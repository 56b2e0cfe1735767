import MujinClient.ClientRuns

/-! Threads that call operations on one client. Their steps are the actions of the operations. -/
namespace MujinClient

instance (p : Request α) : Decidable p.Ended :=
  match p with
  | .returns _ | .throws _ => .isTrue trivial
  | .acts _ _ => .isFalse id

structure ClientThreads (Thread : Type) where
  /-- Who holds the mutex. -/
  holder : Option Thread
  /-- What is left of the call of a thread. -/
  program : Thread → Request Unit
  handle : CurlHandle
  /-- Who set the sink of the handle. -/
  sinkOf : Option Thread
  /-- Who made the last transfer. -/
  transfer : Option Thread
  /-- Whose transfers wrote to the buffer since it was cleared. -/
  buffer : List Thread
  /-- Whose transfers wrote to what the caller passed in, since it was installed. -/
  output : Thread → List Thread

inductive ThreadEvent (Thread : Type) where
  | call (t : Thread) (op : Operation)
  | acts (t : Thread) (event : ClientEvent)

namespace ClientThreads

variable {Thread : Type} [DecidableEq Thread]

def start (h : CurlHandle) : ClientThreads Thread :=
  ⟨none, fun _ => .returns (), h, none, none, [], fun _ => []⟩

/-- The response of a transfer goes where the handle says. -/
def respond (s : ClientThreads Thread) (t : Thread) : ClientThreads Thread :=
  match s.handle.options .writeData, s.sinkOf with
  | .sink .buffer, _ => { s with buffer := t :: s.buffer }
  | .sink _, some u => { s with output := Function.update s.output u (t :: s.output u) }
  | _, _ => s

def effect (s : ClientThreads Thread) (t : Thread) : ClientEvent → ClientThreads Thread
  | ⟨.lock, _⟩ => { s with holder := some t }
  | ⟨.unlock, _⟩ => { s with holder := none }
  | ⟨.setopt o v, ok⟩ =>
    if (ok : Bool) then
      { s with
        handle := s.handle.setopt o v
        sinkOf := if o = .writeData then some t else s.sinkOf
        output := if o = .writeData ∧ v.isOutput then Function.update s.output t [] else s.output }
    else s
  | ⟨.restore o v, ok⟩ =>
    if (ok : Bool) then
      { s with handle := s.handle.setopt o v, sinkOf := if o = .writeData then some t else s.sinkOf }
    else s
  | ⟨.perform, _⟩ => { s.respond t with transfer := some t }
  | ⟨.clearBuffer, _⟩ => { s with buffer := [] }
  | _ => s

/-- Taking the mutex waits until nobody holds it, and only who holds it releases it. -/
def enabled (s : ClientThreads Thread) (t : Thread) : ClientAction → Bool
  | .lock => s.holder = none
  | .unlock => s.holder = some t
  | _ => true

def step (client : ControllerClient) (s : ClientThreads Thread) :
    ThreadEvent Thread → Option (ClientThreads Thread)
  | .call t op =>
    if (s.program t).Ended then some { s with program := Function.update s.program t (client.script op) }
    else none
  | .acts t event =>
    if s.enabled t event.1 then
      ((s.program t).step event).map fun p => { s.effect t event with program := Function.update s.program t p }
    else none

/-- What a thread may do next: touch the handle and the request state with the mutex held, and
read the status and the response of its own transfers. -/
def Safe (s : ClientThreads Thread) (t : Thread) : ClientAction → Prop
  | .setopt _ _ | .restore _ _ | .perform | .access _ | .clearBuffer => s.holder = some t
  | .getinfo _ => s.holder = some t ∧ s.transfer = some t
  | .readBuffer => s.holder = some t ∧ ∀ u ∈ s.buffer, u = t
  | .readOutput => s.holder = some t ∧ ∀ u ∈ s.output t, u = t
  | _ => True

def KeepsLock (_ : ClientThreads Thread) : ThreadEvent Thread → Prop
  | .call _ op => op.leavesLock = false
  | .acts _ _ => True

/-- What the ledger of a thread says is so while the thread holds the mutex. -/
structure Knows (s : ClientThreads Thread) (t : Thread) (L : Ledger) : Prop where
  held : L.held = true → s.holder = some t
  own : L.own = true → L.held = true ∧ s.transfer = some t
  reply : L.reply = true → L.held = true ∧ ∀ u ∈ s.buffer, u = t
  output : L.output = true → L.held = true ∧ ∀ u ∈ s.output t, u = t

def Accounted (s : ClientThreads Thread) : Prop := ∀ t, ∃ d L, Demands.mutex d = true ∧
  (s.program t).Obeys (Ledger.watcher d) (fun _ _ => True) L ∧ s.Knows t L

section

variable {s : ClientThreads Thread} {t u : Thread} {L : Ledger}

omit [DecidableEq Thread] in
theorem Knows.elsewhere {next : ClientThreads Thread} (knows : s.Knows u L)
    (elsewhere : s.holder ≠ some u) : next.Knows u L where
  held held := absurd (knows.held held) elsewhere
  own own := absurd (knows.held (knows.own own).1) elsewhere
  reply reply := absurd (knows.held (knows.reply reply).1) elsewhere
  output output := absurd (knows.held (knows.output output).1) elsewhere

omit [DecidableEq Thread] in
theorem Knows.safe {a : ClientAction} (knows : s.Knows t L) (asked : d.mutex = true)
    (allowed : Ledger.allows d L a) : s.Safe t a := by
  cases a with
  | setopt | restore | access | clearBuffer => exact knows.held (allowed asked)
  | perform => exact knows.held (allowed.1 asked)
  | getinfo info => exact ⟨knows.held (allowed asked).1, (knows.own (allowed asked).2).2⟩
  | readBuffer => exact ⟨knows.held (allowed asked).1, (knows.reply (allowed asked).2).2⟩
  | readOutput => exact ⟨knows.held (allowed asked).1, (knows.output (allowed asked).2).2⟩
  | _ => trivial

theorem respond_buffer (own : ∀ u ∈ s.buffer, u = t) : ∀ u ∈ (s.respond t).buffer, u = t := by
  unfold respond
  split
  · simpa using own
  · exact own
  · exact own

theorem respond_output (own : ∀ u ∈ s.output t, u = t) : ∀ u ∈ (s.respond t).output t, u = t := by
  unfold respond
  split
  · exact own
  · rename_i v _ _ _
    by_cases same : t = v
    · subst same
      simpa using own
    · simpa [Function.update_of_ne same] using own
  · exact own

theorem respond_holder : (s.respond t).holder = s.holder := by
  unfold respond
  split <;> rfl

theorem Knows.effect {d : Demands} {event : ClientEvent} (knows : s.Knows t L) (asked : d.mutex = true)
    (allowed : Ledger.allows d L event.1) : (s.effect t event).Knows t (L.next event.1 event.2) := by
  obtain ⟨a, r⟩ := event
  cases a with
  | lock => exact ⟨fun _ => rfl, nofun, nofun, nofun⟩
  | unlock => exact ⟨nofun, nofun, nofun, nofun⟩
  | setopt o v =>
    cases r with
    | false => exact knows
    | true =>
      have held := allowed asked
      refine ⟨knows.held, knows.own, knows.reply, fun output => ⟨held, ?_⟩⟩
      by_cases installed : o = .writeData ∧ v.isOutput
      · simp [ClientThreads.effect, installed]
      · have either : L.output = true ∨ (o = .writeData ∧ v.isOutput = true) := by simpa [Ledger.next] using output
        have before := either.resolve_right installed
        simpa [ClientThreads.effect, installed] using (knows.output before).2
  | restore o v => cases r <;> exact ⟨knows.held, knows.own, knows.reply, knows.output⟩
  | perform =>
    have held := allowed.1 asked
    refine ⟨fun _ => respond_holder.trans (knows.held held), fun _ => ⟨held, rfl⟩, fun reply => ⟨held, ?_⟩,
      fun output => ⟨held, ?_⟩⟩
    · exact respond_buffer (knows.reply reply).2
    · exact respond_output (knows.output output).2
  | clearBuffer =>
    exact ⟨knows.held, knows.own, fun _ => ⟨allowed asked, by simp [ClientThreads.effect]⟩, knows.output⟩
  | _ => exact knows

/-- An action that changes something is one of the thread that has the mutex, or takes it. -/
theorem effect_elsewhere {d : Demands} {event : ClientEvent} (knows : s.Knows t L) (asked : d.mutex = true)
    (allowed : Ledger.allows d L event.1) (enabled : s.enabled t event.1 = true) (other : u ≠ t) :
    s.effect t event = s ∨ s.holder ≠ some u := by
  obtain ⟨a, r⟩ := event
  have elsewhere (held : s.holder = some t) : s.holder ≠ some u := by simp [held, other.symm]
  cases a with
  | lock => exact .inr (by simp [of_decide_eq_true enabled])
  | unlock => exact .inr (elsewhere (of_decide_eq_true enabled))
  | setopt | restore | clearBuffer => exact .inr (elsewhere (knows.held (allowed asked)))
  | perform => exact .inr (elsewhere (knows.held (allowed.1 asked)))
  | _ => exact .inl rfl

theorem accounted_call (client : ControllerClient) {op : Operation} (keeps : op.leavesLock = false)
    (options : CurlOption → OptionValue) : (client.demands op).mutex = true ∧
    (client.script op).Obeys (Ledger.watcher (client.demands op)) (fun _ _ => True) (Ledger.start options) := by
  have obeys := client.script_obeys_start op options
  exact ⟨by simp [ControllerClient.demands, keeps], obeys.mono fun _ _ _ => trivial⟩

theorem accounted_step {client : ControllerClient} {event : ThreadEvent Thread} {next : ClientThreads Thread}
    (accounted : s.Accounted) (keeps : s.KeepsLock event) (taken : s.step client event = some next) :
    next.Accounted := by
  intro u
  obtain ⟨d, L, asked, obeys, knows⟩ := accounted u
  cases event with
  | call t op =>
    simp only [step] at taken
    split at taken
    case isFalse => nomatch taken
    obtain rfl := Option.some.inj taken
    by_cases same : u = t
    · subst same
      obtain ⟨asked, obeys⟩ := accounted_call client keeps s.handle.options
      refine ⟨client.demands op, Ledger.start s.handle.options, asked, ?_, nofun, nofun, nofun, nofun⟩
      simpa using obeys
    · refine ⟨d, L, asked, ?_, ⟨knows.held, knows.own, knows.reply, knows.output⟩⟩
      simpa [same] using obeys
  | acts t event =>
    simp only [step] at taken
    split at taken
    case isFalse => nomatch taken
    rename_i enabled
    obtain ⟨q, stepped, rfl⟩ := Option.map_eq_some_iff.mp taken
    by_cases same : u = t
    · subst same
      obtain ⟨allowed, obeys⟩ := obeys.step stepped
      obtain ⟨held, own, reply, output⟩ := knows.effect asked allowed
      refine ⟨d, (Ledger.watcher d).next L event.1 event.2, asked, ?_, ⟨held, own, reply, output⟩⟩
      simpa using obeys
    · obtain ⟨dt, Lt, askedt, obeyst, knowst⟩ := accounted t
      refine ⟨d, L, asked, ?_, ?_⟩
      · simpa [same] using obeys
      · rcases effect_elsewhere knowst askedt (obeyst.step stepped).1 enabled same with unchanged | elsewhere
        · rw [unchanged]
          exact ⟨knows.held, knows.own, knows.reply, knows.output⟩
        · exact knows.elsewhere elsewhere

end

omit [DecidableEq Thread] in
theorem accounted_start (h : CurlHandle) : (start h : ClientThreads Thread).Accounted := by
  intro t
  exact ⟨⟨true, true, true, true⟩, Ledger.start h.options, rfl, trivial, nofun, nofun, nofun, nofun⟩

/-- In every interleaving of calls that keep the lock, a thread that acts on the handle or the
request state holds the mutex, and the status and the response it reads are those of its own
transfer. -/
theorem threads_safe {client : ControllerClient} {h : CurlHandle} {events : List (ThreadEvent Thread)}
    {s : ClientThreads Thread}
    {t : Thread} {a : ClientAction} (keeps : Transition.Meets KeepsLock (step client) (start h) events)
    (ran : Transition.run (step client) (start h) events = some s) (next : (s.program t).action? = some a) :
    s.Safe t a := by
  obtain ⟨d, L, asked, obeys, knows⟩ :=
    Transition.run_invariant Accounted (fun _ _ _ => accounted_step) (accounted_start h) keeps ran t
  exact knows.safe asked (obeys.allowed next)

def reachable : (a : ClientAction) → a.Answer
  | .perform => true
  | a => ControllerClient.unreachable a

def calling (client : ControllerClient) (t : Thread) (op : Operation) (n : Nat) : List (ThreadEvent Thread) :=
  .call t op :: ((client.script op).answered reachable n).1.map (.acts t)

/-- One thread gets to its transfer in `GetModifiedTime`, and another one calls it. -/
def twoModifiedTimes : List (ThreadEvent Bool) :=
  calling default false (.getModifiedTime [] ControllerClient.defaultTimeout) 5 ++
    [.call true (.getModifiedTime [] ControllerClient.defaultTimeout)]

theorem keepsLock_twoModifiedTimes (s : ClientThreads Bool) :
    Transition.Meets KeepsLock (step default) s twoModifiedTimes := by
  refine Transition.meets_of_forall fun event member s => ?_
  rcases List.mem_append.mp member with first | second
  · rcases List.mem_cons.mp first with rfl | acts
    · rfl
    · obtain ⟨_, _, rfl⟩ := List.mem_map.mp acts
      trivial
  · obtain rfl := List.mem_singleton.mp second
    rfl

/-- The first thread may make its transfer. -/
theorem threads_safe_twoModifiedTimes :
    ∃ s, Transition.run (step default) (start (CurlHandle.constructed fun _ => .null))
    twoModifiedTimes = some s ∧ (s.program false).action? = some .perform ∧ s.Safe false .perform :=
  ⟨_, rfl, rfl, threads_safe (keepsLock_twoModifiedTimes _) rfl rfl⟩

/-- One thread in `ListFilesInController` has made its transfer and asked for the status, then another
one makes its own. -/
def twoListings : List (ThreadEvent Bool) :=
  calling default false (.listFilesInController [] ControllerClient.defaultTimeout) 9 ++
    calling default true (.listFilesInController [] ControllerClient.defaultTimeout) 8

theorem twoListings_crosses :
    ∃ s, Transition.run (step default) (start (CurlHandle.constructed fun _ => .null)) twoListings = some s ∧
    (s.program false).action? = some .readBuffer ∧ s.buffer = [true] :=
  ⟨_, rfl, rfl, rfl⟩

/-- `ListFilesInController` does not lock. -/
theorem listFilesInController_crosses :
    ¬∀ (client : ControllerClient) (h : CurlHandle) (events : List (ThreadEvent Bool))
    (s : ClientThreads Bool) (t : Bool) (a : ClientAction), Transition.run (step client)
    (start h) events = some s →
    (s.program t).action? = some a → s.Safe t a := by
  intro safe
  obtain ⟨s, ran, next, buffer⟩ := twoListings_crosses
  have own := (safe default _ _ s false .readBuffer ran next).2
  nomatch own true (by simp [buffer])

end ClientThreads
end MujinClient
