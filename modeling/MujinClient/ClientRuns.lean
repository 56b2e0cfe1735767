import MujinClient.ClientDiscipline

/-! Runs of the operations on the handle: the lock, the options a run leaves, what a transfer is
given, and the requests that are sent. -/
namespace MujinClient

abbrev ClientEvent := Program.Event ClientAction.Answer

/-- The program gets to `q` by these events. -/
def Program.Reaches (p : Request α) (trace : List ClientEvent) (q : Request α) : Prop :=
  Transition.run Program.step p trace = some q

def heldAfter (held : Bool) (event : ClientEvent) : Bool :=
  match event.1 with
  | .lock => true
  | .unlock => false
  | _ => held

/-- The thread that did this holds the mutex. -/
def holds (trace : List ClientEvent) : Bool := trace.foldl heldAfter false

/-- The mutex is only taken when it is not held, and released in the end. -/
def Disciplined (p : Request α) : Prop := ∀ trace q, p.Reaches trace q →
  (q.action? = some .lock → holds trace = false) ∧ (q.Ended → holds trace = false)

namespace CurlHandle

def step (h : CurlHandle) : ClientEvent → CurlHandle
  | ⟨.setopt o v, ok⟩ | ⟨.restore o v, ok⟩ => if (ok : Bool) then h.setopt o v else h
  | _ => h

def after (h : CurlHandle) (trace : List ClientEvent) : CurlHandle := trace.foldl step h

@[simp] theorem after_nil (h : CurlHandle) : h.after [] = h := rfl

@[simp] theorem after_cons (h : CurlHandle) : h.after (event :: trace) = (h.step event).after trace := rfl

@[simp] theorem after_append (h : CurlHandle) (first second : List ClientEvent) :
    h.after (first ++ second) = (h.after first).after second := List.foldl_append ..

def requests (h : CurlHandle) : List ClientEvent → List SentRequest
  | [] => []
  | event :: trace => (if event.1 = .perform then [h.sends] else []) ++ requests (h.step event) trace

end CurlHandle

def RestoresSucceed (trace : List ClientEvent) : Prop := ∀ o v, (⟨.restore o v, false⟩ : ClientEvent) ∉ trace

/-- The value an option was last set to. -/
def lastSetStep (set : CurlOption → Option OptionValue) : ClientEvent → CurlOption → Option OptionValue
  | ⟨.setopt o v, ok⟩ | ⟨.restore o v, ok⟩ => if (ok : Bool) then Function.update set o (some v) else set
  | _ => set

def lastSet (trace : List ClientEvent) : CurlOption → Option OptionValue := trace.foldl lastSetStep fun _ => none

/-- Every transfer has a URL, a header list and a sink that the operation itself has set. `h` is the
handle that operations before it left. -/
def TransfersOwn (p : Request α) : Prop := ∀ (h : CurlHandle) trace q, p.Reaches trace q →
  ∀ before r after, trace = before ++ (⟨.perform, r⟩ : ClientEvent) :: after → ∀ o ∈ sinkOptions,
    ∃ v, v ≠ .null ∧ lastSet before o = some v ∧ (h.after before).options o = v

namespace Ledger

variable {d : Demands}

theorem held_after (L : Ledger) (trace : List ClientEvent) :
    ((watcher d).after L trace).held = trace.foldl heldAfter L.held := by
  induction trace generalizing L with
  | nil => rfl
  | cons event trace ih =>
    have step : (L.next event.1 event.2).held = heldAfter L.held event := by
      obtain ⟨a, r⟩ := event
      cases a with
      | setopt o v => cases r <;> rfl
      | _ => rfl
    show ((watcher d).after (L.next event.1 event.2) trace).held = _
    rw [ih, step, List.foldl_cons]

theorem options_step (L : Ledger) (h : CurlHandle) (event : ClientEvent) (same : L.options = h.options) :
    (L.next event.1 event.2).options = (h.step event).options := by
  obtain ⟨a, r⟩ := event
  cases a with
  | setopt o v | restore o v => cases r <;> simp [next, set, restored, CurlHandle.step, CurlHandle.setopt, same]
  | _ => exact same

theorem options_after (L : Ledger) (h : CurlHandle) (trace : List ClientEvent) (same : L.options = h.options) :
    ((watcher d).after L trace).options = (h.after trace).options := by
  induction trace generalizing L h with
  | nil => exact same
  | cons event trace ih => exact ih _ _ (options_step L h event same)

theorem spoiled_after (L : Ledger) (trace : List ClientEvent) (sound : L.spoiled = false)
    (restored : RestoresSucceed trace) :
    ((watcher d).after L trace).spoiled = false := by
  induction trace generalizing L with
  | nil => exact sound
  | cons event trace ih =>
    refine ih _ ?_ fun o v member => restored o v (List.mem_cons_of_mem _ member)
    obtain ⟨a, r⟩ := event
    cases a with
    | setopt o v => cases r <;> exact sound
    | restore o v =>
      cases r with
      | true => simp [watcher, next, Ledger.restored, sound]
      | false => exact absurd List.mem_cons_self (restored o v)
    | _ => exact sound

/-- A call that started on a handle without options for requests has left none. -/
theorem CallKept.unset {M : Ledger} {g h : CurlHandle} (kept : CallKept d (Ledger.start h.options) M)
    (sound : M.spoiled = false) (options : M.options = g.options) (unset : h.Unset) : g.Unset := by
  intro o ofRequest
  rw [← options]
  rcases kept.options sound o ofRequest with same | same
  · rw [same]
    exact unset o ofRequest
  · exact same

/-- What a call knows as its own is what it has last set. -/
theorem mine_after (L : Ledger) (trace : List ClientEvent) (set : CurlOption → Option OptionValue)
    (known : ∀ o, L.mine o = true → ∃ v, v ≠ .null ∧ set o = some v) (o : CurlOption)
    (mine : ((watcher d).after L trace).mine o = true) :
    ∃ v, v ≠ .null ∧ trace.foldl lastSetStep set o = some v := by
  induction trace generalizing L set with
  | nil => exact known o mine
  | cons event trace ih =>
    refine ih (L.next event.1 event.2) (lastSetStep set event) (fun p mine => ?_) mine
    obtain ⟨a, r⟩ := event
    cases a with
    | setopt q v =>
      cases r with
      | false => exact known p mine
      | true =>
        by_cases same : p = q
        · subst same
          have nonnull : v ≠ .null := by simpa [next] using mine
          exact ⟨v, nonnull, by simp [lastSetStep]⟩
        · have before : L.mine p = true := by simpa [next, same] using mine
          simpa [lastSetStep, Function.update_of_ne same] using known p before
    | restore q v =>
      have other : p ≠ q := fun same => by simp [next, restored, same] at mine
      have before : L.mine p = true := by simpa [next, restored, Function.update_of_ne other] using mine
      cases r <;> simpa [lastSetStep, Function.update_of_ne other] using known p before
    | _ => exact known p mine

end Ledger

/-- An option that was set has that value, on any handle. -/
theorem lastSet_after (h : CurlHandle) (trace : List ClientEvent) (set : CurlOption → Option OptionValue)
    (known : ∀ o v, set o = some v → h.options o = v) {o : CurlOption} {v : OptionValue}
    (last : trace.foldl lastSetStep set o = some v) : (h.after trace).options o = v := by
  induction trace generalizing h set with
  | nil => exact known o v last
  | cons event trace ih =>
    refine ih (h.step event) (lastSetStep set event) (fun p w known' => ?_) last
    obtain ⟨a, r⟩ := event
    cases a with
    | setopt q v | restore q v =>
      cases r with
      | false => exact known p w known'
      | true =>
        by_cases same : p = q
        · subst same
          simpa [lastSetStep, CurlHandle.step, CurlHandle.setopt] using known'
        · have before : set p = some w := by simpa [lastSetStep, Function.update_of_ne same] using known'
          simpa [CurlHandle.step, CurlHandle.setopt, Function.update_of_ne same] using known p w before
    | _ => exact known p w known'

namespace ControllerClient

open Ledger

variable (client : ControllerClient)

theorem script_obeys_start (op : Operation) (options : CurlOption → OptionValue) :
    (client.script op).Obeys (watcher (client.demands op))
    (fun _ M => CallKept (client.demands op) (Ledger.start options) M) (Ledger.start options) := by
  have respects := client.script_respects op options
  unfold CallRespects at respects
  exact respects

theorem script_obeys {op : Operation} {trace : List ClientEvent} {p : Request Unit}
    (options : CurlOption → OptionValue)
    (ran : (client.script op).Reaches trace p) : p.Obeys (watcher (client.demands op))
      (fun _ M => CallKept (client.demands op) (Ledger.start options) M)
      ((watcher (client.demands op)).after (Ledger.start options) trace) :=
  (client.script_obeys_start op options).run ran

/-- A call takes the mutex only when its thread does not hold it, and releases it however it ends,
unless it is the call that locks around a call that locks. -/
theorem disciplined_iff (op : Operation) : Disciplined (client.script op) ↔ op.locksTwice = false := by
  constructor
  · intro disciplined
    cases op with
    | deleteAllScenes timeout =>
      have locked := (disciplined [⟨.lock, ()⟩] _ rfl).1 rfl
      simp [holds, heldAfter] at locked
    | _ => rfl
  · intro once trace q ran
    have asked : (client.demands op).lock = true := by simp [demands, once]
    have obeys := client.script_obeys (fun _ => .null) ran
    have held : ((watcher (client.demands op)).after (Ledger.start fun _ => .null) trace).held = holds
        trace := held_after _ trace
    constructor
    · intro next
      exact held ▸ obeys.allowed next asked
    · intro ended
      obtain ⟨-, kept⟩ := obeys.ended ended
      exact held ▸ kept.held asked

/-- `DeleteAllScenes` waits for itself. -/
theorem deleteAllScenes_deadlocks :
    ¬∀ (client : ControllerClient) (op : Operation), Disciplined (client.script op) := by
  intro disciplined
  have locked := (disciplined default (.deleteAllScenes defaultTimeout) [⟨.lock, ()⟩] _ rfl).1 rfl
  simp [holds, heldAfter] at locked

/-- On every way out of every operation, the options of a request have the value again that the
constructor leaves. -/
theorem script_restores {op : Operation} {trace : List ClientEvent} {p : Request Unit} {h : CurlHandle}
    (unset : h.Unset)
    (ran : (client.script op).Reaches trace p) (ended : p.Ended) (restored : RestoresSucceed trace) :
    (h.after trace).Unset := by
  obtain ⟨-, kept⟩ := (client.script_obeys h.options ran).ended ended
  exact kept.unset (spoiled_after _ trace rfl restored) (options_after _ h trace rfl) unset

/-- An operation that fails to connect, answered otherwise with success. -/
def unreachable : (a : ClientAction) → a.Answer
  | .perform => false
  | .lock | .unlock | .access _ | .clearBuffer => ()
  | .setopt _ _ | .restore _ _ | .seek | .openFile _ | .calls => true
  | .getinfo _ | .tell => some 200
  | .readBuffer | .readOutput => []
  | .profile => .null

theorem restoresSucceed_unreachable (p : Request α) (n : Nat) : RestoresSucceed (p.answered unreachable n).1 :=
  fun _ _ member => nomatch Program.answered_answer member

/-- Without a connection, `GetModifiedTime` gives back its four options. -/
theorem script_restores_getModifiedTime :
    ((CurlHandle.constructed fun _ => .null).after
      ((script default (.getModifiedTime [] defaultTimeout)).answered unreachable 11).1).Unset :=
  script_restores default (CurlHandle.constructed_unset _) (Program.run_answered unreachable 11 _) trivial
    (restoresSucceed_unreachable _ 11)

theorem deleteDirectory_lacks (uri : Text) : ¬TransfersOwn (Request.locked (deleteDirectory uri)) := by
  intro own
  obtain ⟨v, -, last, -⟩ :=
    own ⟨fun _ => .null, .get⟩ ((Request.locked (deleteDirectory uri)).answered unreachable 5).1 _
    (Program.run_answered unreachable 5 _) ((Request.locked (deleteDirectory uri)).answered unreachable 4).1
      false [] rfl .writeData
    (by simp [sinkOptions])
  cases last

theorem getModifiedTime_lacks (uri : Text) (timeout : Double) :
    ¬TransfersOwn (client.script (.getModifiedTime uri timeout)) := by
  intro own
  obtain ⟨v, -, last, -⟩ :=
    own ⟨fun _ => .null, .get⟩ ((client.script (.getModifiedTime uri timeout)).answered unreachable 6).1 _
    (Program.run_answered unreachable 6 _)
      ((client.script (.getModifiedTime uri timeout)).answered unreachable 5).1 false [] rfl
    .writeData (by simp [sinkOptions])
  cases last

/-- Every transfer of an operation goes to a URL, with headers and to a sink that the operation
has set for it, exactly where it is not one of those that leave the sink to libcurl. -/
theorem transfersOwn_iff (op : Operation) : TransfersOwn (client.script op) ↔ op.lacksSink = false := by
  constructor
  · intro own
    cases op with
    | getModifiedTime uri timeout => exact absurd own (client.getModifiedTime_lacks uri timeout)
    | deleteDirectoryOnController_UTF8 desturi =>
      obtain ⟨uri, prepared⟩ := prepareDestinationURI_lift client desturi false true
      have script : client.script (.deleteDirectoryOnController_UTF8 desturi) = Request.locked
          (deleteDirectory uri) := by
        rw [ControllerClient.script, prepared]
        rfl
      exact absurd (script ▸ own) (deleteDirectory_lacks uri)
    | deleteDirectoryOnController_UTF16 desturi =>
      cases converted : utf16to8 desturi with
      | error e => simp [Operation.lacksSink, converted, Except.isOk, Except.toBool]
      | ok desturi_utf8 =>
        obtain ⟨uri, prepared⟩ := prepareDestinationURI_lift client desturi_utf8 false true
        have script : client.script (.deleteDirectoryOnController_UTF16 desturi) = Request.locked
            (deleteDirectory uri) := by
          rw [ControllerClient.script, prepareDestinationURI_UTF16, converted]
          show Request.locked (client.prepareDestinationURI desturi_utf8 false false true >>= deleteDirectory) = _
          rw [prepared]
          rfl
        exact absurd (script ▸ own) (deleteDirectory_lacks uri)
    | _ => rfl
  · intro complete h trace q ran before r after split o sink
    have asked : (client.demands op).sink = true := by simp [demands, complete]
    subst split
    obtain ⟨middle, reached, next⟩ := Program.action_of_run ran
    have mine := ((client.script_obeys (fun _ => .null) reached).allowed next).2.1 asked o sink
    obtain ⟨v, nonnull, last⟩ := mine_after _ before (fun _ => none) (by simp [Ledger.start]) o mine
    exact ⟨v, nonnull, last, lastSet_after h before _ (by simp) last⟩

/-- The response to the deletion of a directory goes where libcurl sends it. -/
theorem deleteDirectory_leaves_sink :
    ¬∀ (client : ControllerClient) (op : Operation), TransfersOwn (client.script op) :=
  fun own => deleteDirectory_lacks _ (own default (.deleteDirectoryOnController_UTF8 (lit "mujin:/a")))

/-- From handles of one kind, the same events send the same requests. -/
theorem requests_of_kind {g h : CurlHandle} (same : g.SameOptions h) (kind : g.kind = h.kind)
    (trace : List ClientEvent) :
    g.requests trace = h.requests trace := by
  induction trace generalizing g h with
  | nil => rfl
  | cons event trace ih =>
    have step : (g.step event).SameOptions (h.step event) ∧ (g.step event).kind = (h.step event).kind := by
      obtain ⟨a, r⟩ := event
      cases a with
      | setopt o v | restore o v =>
        cases r with
        | false => exact ⟨same, kind⟩
        | true => exact ⟨same.setopt o v, congrArg (RequestKind.after · o v) kind⟩
      | _ => exact ⟨same, kind⟩
    simp only [CurlHandle.requests, same.sends kind, ih step.1 step.2]

/-- A program that selects the kind of request before its transfers sends the same requests from
handles of any kinds. -/
theorem requests_of_chosen {d : Demands} {post : Except Thrown α → Ledger → Prop} {L : Ledger}
    {p q : Request α} {g h : CurlHandle}
    {trace : List ClientEvent} (asked : d.kind = true) (obeys : p.Obeys (watcher d) post L)
    (ran : p.Reaches trace q)
    (same : g.SameOptions h) (kind : L.chosen = true → g.kind = h.kind) : g.requests trace = h.requests trace := by
  induction trace generalizing L p g h with
  | nil => rfl
  | cons event trace ih =>
    obtain ⟨next, taken, ran⟩ := Option.bind_eq_some_iff.mp ran
    have obeyed := obeys.step taken
    have step : (g.step event).SameOptions (h.step event) ∧
        ((L.next event.1 event.2).chosen = true → (g.step event).kind = (h.step event).kind) := by
      obtain ⟨a, r⟩ := event
      cases a with
      | setopt o v =>
        cases r with
        | false => exact ⟨same, kind⟩
        | true =>
          refine ⟨same.setopt o v, fun chosen => ?_⟩
          -- The option selects the kind, or the kind was selected before.
          rcases Bool.or_eq_true_iff.mp chosen with before | selects
          · exact congrArg (RequestKind.after · o v) (kind before)
          · exact RequestKind.after_selects selects _ _
      | restore o v =>
        cases r with
        | false => exact ⟨same, kind⟩
        | true => exact ⟨same.setopt o v, fun chosen => congrArg (RequestKind.after · o v) (kind chosen)⟩
      | _ => exact ⟨same, kind⟩
    have later := ih obeyed.2 ran step.1 step.2
    by_cases transfer : event.1 = .perform
    · have chosen : L.chosen = true := by
        have allowed := obeyed.1
        rw [transfer] at allowed
        exact allowed.2.2 asked
      simp only [CurlHandle.requests, same.sends (kind chosen), later]
    · simp only [CurlHandle.requests, transfer, if_false, later]

/-- Calls that ran to their end, one after the other. -/
def Completed (history : List (Operation × List ClientEvent)) : Prop :=
  ∀ call ∈ history, ∃ q, (client.script call.1).Reaches call.2 q ∧ q.Ended

def events (history : List (Operation × List ClientEvent)) : List ClientEvent := history.flatMap (·.2)

omit client in
theorem completed_nil {client : ControllerClient} : client.Completed [] := by simp [Completed]

theorem restored_nil : RestoresSucceed (events []) := by simp [RestoresSucceed, events]

theorem unset_after_history {history : List (Operation × List ClientEvent)} {h : CurlHandle} (unset : h.Unset)
    (completed : client.Completed history) (restored : RestoresSucceed (events history)) :
    (h.after (events history)).Unset := by
  induction history generalizing h with
  | nil => exact unset
  | cons call history ih =>
    obtain ⟨q, ran, ended⟩ := completed call List.mem_cons_self
    obtain ⟨-, kept⟩ := (client.script_obeys h.options ran).ended ended
    have restoredFirst : RestoresSucceed call.2 := fun o v member => restored o v (by simp [events, member])
    have later :=
      ih (kept.unset (spoiled_after _ call.2 rfl restoredFirst) (options_after _ h call.2 rfl) unset)
        (fun other member => completed other (List.mem_cons_of_mem _ member)) fun o v member =>
      restored o v (List.mem_append_right _ member)
    simpa [events] using later

/-- What an operation sends does not depend on the calls before it, if it selects the kind of
request itself or the calls before it leave the same kind. -/
theorem requests_history_independent (configured : CurlOption → OptionValue)
    {first second : List (Operation × List ClientEvent)}
    (firstCompleted : client.Completed first) (firstRestored : RestoresSucceed (events first))
    (secondCompleted : client.Completed second) (secondRestored : RestoresSucceed (events second))
    {op : Operation} {trace : List ClientEvent} {p : Request Unit} (ran : (client.script op).Reaches trace p)
    (kind : client.inheritsKind op = true →
      ((CurlHandle.constructed configured).after (events first)).kind =
        ((CurlHandle.constructed configured).after (events second)).kind) :
    ((CurlHandle.constructed configured).after (events first)).requests trace =
      ((CurlHandle.constructed configured).after (events second)).requests trace := by
  have start := CurlHandle.constructed_unset configured
  have same := (client.unset_after_history start firstCompleted firstRestored).same
    (client.unset_after_history start secondCompleted secondRestored)
  cases inherits : client.inheritsKind op with
  | true => exact requests_of_kind same (kind inherits) trace
  | false =>
    have obeys := client.script_obeys_start op fun _ => .null
    exact requests_of_chosen (by simp [demands, inherits]) obeys ran same fun impossible => nomatch impossible

def unreachableModifiedTime (client : ControllerClient) : Operation × List ClientEvent :=
  (.getModifiedTime [] defaultTimeout,
    ((client.script (.getModifiedTime [] defaultTimeout)).answered unreachable 11).1)

theorem completed_unreachableModifiedTime (client : ControllerClient) :
    client.Completed [client.unreachableModifiedTime] := by
  intro call member
  obtain rfl := List.mem_singleton.mp member
  exact ⟨_, Program.run_answered unreachable 11 _, trivial⟩

theorem restored_unreachableModifiedTime (client : ControllerClient) :
    RestoresSucceed (events [client.unreachableModifiedTime]) := by
  rw [events, List.flatMap_singleton]
  exact restoresSucceed_unreachable _ 11

/-- A `GetModifiedTime` sends the same after another one as on a fresh client. -/
theorem requests_history_independent_getModifiedTime :
    ((CurlHandle.constructed fun _ => .null).after (events [unreachableModifiedTime default])).requests
      ((script default (.getModifiedTime [] defaultTimeout)).answered unreachable 6).1 =
    ((CurlHandle.constructed fun _ => .null).after (events [])).requests
      ((script default (.getModifiedTime [] defaultTimeout)).answered unreachable 6).1 :=
  requests_history_independent default _ (completed_unreachableModifiedTime _) (restored_unreachableModifiedTime _)
    completed_nil restored_nil (Program.run_answered unreachable 6 _)
    fun inherits => nomatch inherits

/-- A fresh client deletes with the kind POST, and with the kind GET after a `GetModifiedTime`. -/
theorem cancelAllJobs_depends_on_history : ¬∀ (client : ControllerClient) (configured : CurlOption → OptionValue)
    (first second : List (Operation × List ClientEvent)), client.Completed first → RestoresSucceed (events first) →
    client.Completed second → RestoresSucceed (events second) → ∀ (op : Operation)
    (trace : List ClientEvent) (p : Request Unit),
    (client.script op).Reaches trace p → ((CurlHandle.constructed configured).after (events first)).requests
      trace =
      ((CurlHandle.constructed configured).after (events second)).requests trace := by
  intro independent
  have same :=
    independent default (fun _ => .null) [unreachableModifiedTime default] []
      (completed_unreachableModifiedTime _)
    (restored_unreachableModifiedTime _) completed_nil restored_nil .cancelAllJobs _ _
    (Program.run_answered unreachable 10 _)
  have kinds := congrArg (List.map SentRequest.kind) same
  have after : (((CurlHandle.constructed fun _ => .null).after (events [unreachableModifiedTime default])).requests
      ((script default .cancelAllJobs).answered unreachable 10).1).map SentRequest.kind = [.get] := rfl
  have fresh : (((CurlHandle.constructed fun _ => .null).after (events [])).requests
      ((script default .cancelAllJobs).answered unreachable 10).1).map SentRequest.kind = [.post] := rfl
  rw [after, fresh] at kinds
  nomatch kinds

end ControllerClient
end MujinClient
