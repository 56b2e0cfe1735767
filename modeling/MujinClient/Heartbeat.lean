import MujinClient.TaskState
import MujinClient.JsonReader
import MujinClient.TargetIndependence

/-! The heartbeat monitor thread. One heartbeat object is parsed in place for every
message, and its task state is published after every parse that returns. -/
namespace MujinClient

open Loading

structure ResultHeartBeat where
  status : Text
  taskstate : ResultGetBinpickingState
  timestamp : Double
  msg : Text
  deriving DecidableEq

namespace ResultHeartBeat

def initial (mode : UInt8) : ResultHeartBeat := ⟨[], .initial mode, Double.zero, []⟩

def slaveTaskState (slaverequestid : Text) (pt : Json) : Except LoadError (Option Json) := do
  match ← findMemberOf pt "slavestates" with
  | none => pure none
  | some slavestates =>
    if slaverequestid = [] then pure none
    else match ← findMemberNamed slavestates (cString (lit "slaverequestid-" ++ slaverequestid)) with
      | none => pure none
      | some slavestate => findMemberOf slavestate "taskstate"

variable (platform : Platform)

def parseOwn (pt : Json) : Loading LoadError ResultHeartBeat Unit := do
  update fun s => { s with status := [] }
  update fun s => { s with msg := [] }
  update fun s => { s with timestamp := Double.zero }
  zoom (·.status) (fun x s => { s with status := x })
    (loadJsonValueByKey (loadJsonValue platform .string) pt "status")
  zoom (·.msg) (fun x s => { s with msg := x })
    (loadJsonValueByKey (loadJsonValue platform .string) pt "message")
  zoom (·.timestamp) (fun x s => { s with timestamp := x })
    (loadJsonValueByKey (loadJsonValue platform .double) pt "timestamp")

/-- `ResultHeartBeat::Parse`. The `_slaverequestid` is set once, before the first message. -/
def parse (slaverequestid : Text) (mode : UInt8) (pt : Json) : Loading LoadError ResultHeartBeat Unit := do
  parseOwn platform pt
  match ← lift (slaveTaskState slaverequestid pt) with
  | none => pure ()
  | some v =>
    zoom (·.taskstate) (fun x s => { s with taskstate := x }) (ResultGetBinpickingState.parse platform mode v)

end ResultHeartBeat

/-- A heartbeat as received, and what the uninitialized byte of its parse contains. -/
structure Received where
  message : Text
  mode : UInt8
  deriving DecidableEq

/-- The thread's heartbeat object and the `_taskstate` it publishes. -/
structure Monitor where
  heartbeat : ResultHeartBeat
  published : ResultGetBinpickingState
  deriving DecidableEq

namespace Monitor

def start (mode fresh : UInt8) : Monitor := ⟨.initial mode, .initial fresh⟩

variable (platform : Platform) (slaverequestid : Text)

/-- One round of the loop: an exception is logged and the round ends. -/
def receive (m : Monitor) (r : Received) : Monitor :=
  match parseJson r.message with
  | none => m
  | some pt =>
    match ResultHeartBeat.parse platform slaverequestid r.mode pt m.heartbeat with
    | (.ok _, heartbeat) => ⟨heartbeat, heartbeat.taskstate⟩
    | (.error _, heartbeat) => { m with heartbeat := heartbeat }

def receiveAll (m : Monitor) (messages : List Received) : Monitor :=
  messages.foldl (receive platform slaverequestid) m

end Monitor

inductive Reading where
  /-- Not JSON, or an exception before the task state. -/
  | rejected
  /-- It loads, and has no task state of this slave. -/
  | without
  /-- The parse of its task state throws. -/
  | broken
  | complete (v : Json)
  deriving DecidableEq

def Received.reading (platform : Platform) (slaverequestid : Text) (r : Received) : Reading :=
  match parseJson r.message with
  | none => .rejected
  | some pt =>
    match ResultHeartBeat.parseOwn platform pt (.initial r.mode) with
    | (.error _, _) => .rejected
    | (.ok _, _) =>
      match ResultHeartBeat.slaveTaskState slaverequestid pt with
      | .error _ => .rejected
      | .ok none => .without
      | .ok (some v) =>
        match ResultGetBinpickingState.parse platform r.mode v (.initial r.mode) with
        | (.ok _, _) => .complete v
        | (.error _, _) => .broken

/-- No heartbeat without a task state comes while the last task state that was begun is
a broken one. `broken` says so of the heartbeats before. -/
def undisturbed (platform : Platform) (slaverequestid : Text) (broken : Bool) : List Received → Bool
  | [] => true
  | r :: rest =>
    match r.reading platform slaverequestid with
    | .rejected => undisturbed platform slaverequestid broken rest
    | .without => !broken && undisturbed platform slaverequestid broken rest
    | .broken => undisturbed platform slaverequestid true rest
    | .complete _ => undisturbed platform slaverequestid false rest

/-- A default-constructed state, or what one complete parse of one of the messages gives. -/
def FromOne (platform : Platform) (slaverequestid : Text) (messages : List Received)
    (t : ResultGetBinpickingState) : Prop :=
  (∃ mode, t = .initial mode) ∨ ∃ r ∈ messages, ∃ pt v fresh, parseJson r.message = some pt ∧
    ResultHeartBeat.slaveTaskState slaverequestid pt = .ok (some v) ∧
    ResultGetBinpickingState.parse platform r.mode v (.initial fresh) = (.ok (), t)

variable {platform : Platform} {slaverequestid : Text}

theorem returns_loadJsonValueByKey {load : Load α} (each : ∀ j, ∃ c, Returns (load j) c) (v : Json)
    (key : String) : ∃ c, Returns (loadJsonValueByKey load v key) c := by
  cases v with
  | object members =>
    unfold loadJsonValueByKey
    dsimp only
    split
    · exact ⟨_, returns_pure ()⟩
    · exact ⟨_, returns_pure ()⟩
    · rename_i member _ _
      obtain ⟨c, returns⟩ := each member
      exact ⟨c, returns_mapError returns⟩
  | _ => exact ⟨_, returns_throw _⟩

namespace ResultHeartBeat

theorem returns_parseOwn (pt : Json) : ∃ c, Returns (parseOwn platform pt) c := by
  have field : ∀ (ty : Ty) (key : String) {view : ResultHeartBeat → ty.Val} {put},
      ∃ c, Returns (zoom view put (loadJsonValueByKey (loadJsonValue platform ty) pt key) :
        Loading LoadError ResultHeartBeat Unit) c := by
    intro ty key view put
    obtain ⟨c, returns⟩ := returns_loadJsonValueByKey
      (fun j => ⟨_, returns_loadJsonValue platform ty j⟩) pt key
    exact ⟨c, returns_zoom returns⟩
  obtain ⟨_, status⟩ := field .string "status"
  obtain ⟨_, message⟩ := field .string "message"
  obtain ⟨_, timestamp⟩ := field .double "timestamp"
  exact ⟨_, (returns_update _).bind fun _ => (returns_update _).bind fun _ => (returns_update _).bind fun _ =>
    status.bind fun _ => message.bind fun _ => timestamp⟩

theorem keeps_parseOwn (platform : Platform) (pt : Json) (t : ResultGetBinpickingState) :
    Keeps (fun s => s.taskstate = t) (parseOwn platform pt) := by
  unfold parseOwn
  repeat' first
    | exact keeps_update _ fun s same => same
    | exact keeps_zoom_part fun s x same => same
    | refine Keeps.bind ?_ fun _ => ?_

/-- The own fields load for every heartbeat object or for none. -/
theorem parseOwn_succeeds (platform : Platform) (pt : Json) (s t : ResultHeartBeat) :
    (parseOwn platform pt).Succeeds s ↔ (parseOwn platform pt).Succeeds t := by
  obtain ⟨c, returns⟩ := returns_parseOwn pt
  exact (returns s).trans (returns t).symm

end ResultHeartBeat

namespace Monitor

/-- What a round does to the published and to the parsed task state. -/
def Effect (slaverequestid : Text) (platform : Platform) (m : Monitor) (r : Received) (next : Monitor) : Prop :=
  match r.reading platform slaverequestid with
  | .rejected => next.published = m.published ∧ next.heartbeat.taskstate = m.heartbeat.taskstate
  | .without => next.published = m.heartbeat.taskstate ∧ next.heartbeat.taskstate = m.heartbeat.taskstate
  | .broken => next.published = m.published ∧
    next.heartbeat.taskstate.isDynamicEnvironmentStateEmpty = false
  | .complete v => next.published = next.heartbeat.taskstate ∧
    ResultGetBinpickingState.parse platform r.mode v (.initial r.mode) = (.ok (), next.published)

theorem receive_effect (platform : Platform) (slaverequestid : Text) (m : Monitor) (r : Received)
    (untouched : m.heartbeat.taskstate.isDynamicEnvironmentStateEmpty = false) :
    Effect slaverequestid platform m r (receive platform slaverequestid m r) := by
  unfold Effect Received.reading receive
  cases parseJson r.message with
  | none => exact ⟨rfl, rfl⟩
  | some pt =>
    dsimp only
    have own := ResultHeartBeat.parseOwn_succeeds platform pt m.heartbeat (.initial r.mode)
    have kept := ResultHeartBeat.keeps_parseOwn platform pt _ m.heartbeat rfl
    unfold Succeeds at own
    rcases first : ResultHeartBeat.parseOwn platform pt m.heartbeat with ⟨e | a, s⟩
    · rcases fresh : ResultHeartBeat.parseOwn platform pt (.initial r.mode) with ⟨f | b, t⟩
      · rw [first] at kept
        rw [ResultHeartBeat.parse, bind_error first]
        exact ⟨rfl, kept⟩
      · simp [first, fresh] at own
    · rcases fresh : ResultHeartBeat.parseOwn platform pt (.initial r.mode) with ⟨f | b, t⟩
      · simp [first, fresh] at own
      rw [first] at kept
      rw [ResultHeartBeat.parse, bind_ok first]
      rcases ResultHeartBeat.slaveTaskState slaverequestid pt with e | _ | v
      · exact ⟨rfl, kept⟩
      · exact ⟨kept, kept⟩
      · have empty : s.taskstate.isDynamicEnvironmentStateEmpty = false := kept ▸ untouched
        have keeps := ResultGetBinpickingState.keeps_parse platform r.mode v false _ empty
        rcases ResultGetBinpickingState.agree_parse platform r.mode v s.taskstate
            (.initial r.mode) empty with ⟨_, x, y, left, right, rfl⟩ | ⟨e, f, x, y, left, right⟩
        · simp [left, right]
        · simpa [left, right] using keeps

/-- What holds between two rounds. After a broken task state the parsed one is no longer
known to come from a single message. -/
structure Inv (platform : Platform) (slaverequestid : Text) (broken : Bool) (received : List Received)
    (m : Monitor) : Prop where
  untouched : m.heartbeat.taskstate.isDynamicEnvironmentStateEmpty = false
  published : FromOne platform slaverequestid received m.published
  parsed : broken = false → FromOne platform slaverequestid received m.heartbeat.taskstate

theorem inv_start (mode fresh : UInt8) : Inv platform slaverequestid false [] (start mode fresh) where
  untouched := rfl
  published := .inl ⟨fresh, rfl⟩
  parsed _ := .inl ⟨mode, rfl⟩

end Monitor

theorem FromOne.mono (one : FromOne platform slaverequestid messages t) (within : messages ⊆ more) :
    FromOne platform slaverequestid more t := by
  rcases one with initial | ⟨r, member, source⟩
  · exact .inl initial
  · exact .inr ⟨r, within member, source⟩

theorem reading_complete {r : Received} (reading : r.reading platform slaverequestid = .complete v) :
    ∃ pt, parseJson r.message = some pt ∧ ResultHeartBeat.slaveTaskState slaverequestid pt = .ok (some v) := by
  unfold Received.reading at reading
  split at reading
  · simp at reading
  · rename_i pt json
    split at reading
    · simp at reading
    · split at reading
      · simp at reading
      · simp at reading
      · rename_i w found
        split at reading
        · obtain rfl := Reading.complete.inj reading
          exact ⟨pt, json, found⟩
        · simp at reading

namespace Monitor

theorem inv_receive (inv : Inv platform slaverequestid broken received m)
    (quiet : undisturbed platform slaverequestid broken (r :: rest) = true) :
    ∃ next, undisturbed platform slaverequestid next rest = true ∧
      Inv platform slaverequestid next (received ++ [r]) (receive platform slaverequestid m r) := by
  have effect := receive_effect platform slaverequestid m r inv.untouched
  have old : ∀ {t}, FromOne platform slaverequestid received t →
      FromOne platform slaverequestid (received ++ [r]) t :=
    fun one => one.mono (List.subset_append_left _ _)
  unfold Effect at effect
  unfold undisturbed at quiet
  cases reading : r.reading platform slaverequestid with
  | rejected =>
    simp only [reading] at effect quiet
    obtain ⟨published, parsed⟩ := effect
    exact ⟨broken, quiet, parsed ▸ inv.untouched, published ▸ old inv.published,
      fun clean => parsed ▸ old (inv.parsed clean)⟩
  | without =>
    simp only [reading] at effect quiet
    obtain ⟨published, parsed⟩ := effect
    obtain ⟨clean, quiet⟩ : broken = false ∧ _ := by simpa using quiet
    have one := old (inv.parsed clean)
    exact ⟨broken, quiet, parsed ▸ inv.untouched, published ▸ one, fun _ => parsed ▸ one⟩
  | broken =>
    simp only [reading] at effect quiet
    obtain ⟨published, untouched⟩ := effect
    exact ⟨true, quiet, untouched, published ▸ old inv.published, by simp⟩
  | complete v =>
    simp only [reading] at effect quiet
    obtain ⟨published, parsed⟩ := effect
    obtain ⟨pt, json, found⟩ := reading_complete reading
    have one : FromOne platform slaverequestid (received ++ [r]) (receive platform slaverequestid m r).published :=
      .inr ⟨r, by simp, pt, v, r.mode, json, found, parsed⟩
    have untouched := ResultGetBinpickingState.keeps_parse platform r.mode v false
      (.initial r.mode) rfl
    rw [parsed] at untouched
    exact ⟨false, quiet, published ▸ untouched, one, fun _ => published ▸ one⟩

theorem inv_receiveAll (inv : Inv platform slaverequestid broken received m)
    (quiet : undisturbed platform slaverequestid broken messages = true) :
    ∃ final, Inv platform slaverequestid final (received ++ messages)
      (receiveAll platform slaverequestid m messages) := by
  induction messages generalizing m broken received with
  | nil => exact ⟨broken, by simpa [receiveAll] using inv⟩
  | cons r rest ih =>
    obtain ⟨next, quiet, inv⟩ := inv_receive inv quiet
    obtain ⟨final, inv⟩ := ih inv quiet
    exact ⟨final, by simpa [receiveAll] using inv⟩

end Monitor

theorem undisturbed_of_append (quiet : undisturbed platform slaverequestid broken (first ++ second) = true) :
    undisturbed platform slaverequestid broken first = true := by
  induction first generalizing broken with
  | nil => rfl
  | cons r rest ih =>
    rw [List.cons_append, undisturbed] at quiet
    rw [undisturbed]
    cases reading : r.reading platform slaverequestid with
    | without =>
      simp only [reading, Bool.and_eq_true] at quiet ⊢
      exact ⟨quiet.1, ih quiet.2⟩
    | _ =>
      simp only [reading] at quiet ⊢
      exact ih quiet

/-- After every round of an undisturbed run, the published task state is the initial one
or what one complete parse of one received heartbeat gives. -/
theorem published_fromOne (platform : Platform) (slaverequestid : Text) (mode fresh : UInt8)
    (messages received : List Received) (reached : received <+: messages)
    (quiet : undisturbed platform slaverequestid false messages = true) :
    FromOne platform slaverequestid received
      ((Monitor.start mode fresh).receiveAll platform slaverequestid received).published := by
  obtain ⟨later, rfl⟩ := reached
  obtain ⟨final, inv⟩ := Monitor.inv_receiveAll (Monitor.inv_start mode fresh) (undisturbed_of_append quiet)
  simpa using inv.published

def slaveHeartbeat (members : String) : Received where
  message := lit "\x7b\"slavestates\":\x7b\"slaverequestid-s\":\x7b\"taskstate\":\x7b" ++ lit members ++
    lit "\x7d\x7d\x7d\x7d"
  mode := uint8Of 0

def emptyHeartbeat : Received := ⟨lit "\x7b\x7d", uint8Of 0⟩

def completeRun : List Received := [slaveHeartbeat "\"statusPickPlace\":\"x\"", emptyHeartbeat]

theorem published_fromOne_complete :
    undisturbed default (lit "s") false completeRun = true ∧
      FromOne default (lit "s") completeRun
        ((Monitor.start (uint8Of 0) (uint8Of 0)).receiveAll default (lit "s") completeRun).published :=
  have quiet : undisturbed default (lit "s") false completeRun = true := by decide +kernel
  ⟨quiet, published_fromOne default (lit "s") _ _ completeRun completeRun (List.prefix_refl _) quiet⟩

/-- The first task state throws at its second member; the heartbeat after it has none. -/
def brokenRun : List Received :=
  [slaveHeartbeat "\"statusPickPlace\":\"x\",\"pickAttemptFromSourceId\":[]", emptyHeartbeat]

theorem broken_published : ¬∀ (platform : Platform) (slaverequestid : Text) (mode fresh : UInt8)
    (received : List Received), FromOne platform slaverequestid received
      ((Monitor.start mode fresh).receiveAll platform slaverequestid received).published := by
  intro always
  have one := always default (lit "s") (uint8Of 0) (uint8Of 0) brokenRun
  have status : ((Monitor.start (uint8Of 0) (uint8Of 0)).receiveAll default (lit "s")
      brokenRun).published.statusPickPlace = lit "x" := by decide +kernel
  have incomplete : ∀ r ∈ brokenRun, r.mode = uint8Of 0 ∧ (parseJson r.message).all fun pt =>
      (ResultHeartBeat.slaveTaskState (lit "s") pt).toOption.join.all fun v =>
        (ResultGetBinpickingState.parse default (uint8Of 0) v (.initial (uint8Of 0))).1 != .ok () := by
    decide +kernel
  rcases one with ⟨mode, same⟩ | ⟨r, member, pt, v, fresh, json, found, ran⟩
  · rw [same] at status
    exact absurd status (by simp [ResultGetBinpickingState.initial, lit])
  · obtain ⟨mode, throws⟩ := incomplete r member
    simp only [json, Option.all_some, found, Except.toOption, Option.join_some] at throws
    rw [mode] at ran
    have again := ResultGetBinpickingState.parse_of_returned rfl (uint8Of 0) _ ran
    simp [again] at throws

end MujinClient
