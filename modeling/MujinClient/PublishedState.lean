import MujinClient.Heartbeat
import MujinClient.Transition

/-! The published task state between the monitor thread and the callers of
`GetPublishedTaskState`, who check it under the lock, query the controller without it and
write the reply back. The controller's messages are numbered in the order it made them. -/
namespace MujinClient.Published

open Loading

/-- A heartbeat on its way. A message that carries a time stamp has a number. -/
structure Produced where
  number : Nat
  received : Received
  deriving DecidableEq

structure Reply where
  number : Nat
  pt : Json
  mode : UInt8
  deriving DecidableEq

/-- A `GetPublishedTaskState` that found no published state: the caller's object and the
reply to the state query once the controller has made it. -/
structure Query where
  result : ResultGetBinpickingState
  reply : Option Reply
  deriving DecidableEq

/-- `stamps` lists the time stamps in the order the controller made them, after the one of
a default-constructed state. `parsedFrom` and `storedFrom` are the places in it of the
monitor's heartbeat object and of `_taskstate`. -/
structure Service where
  monitor : Monitor
  inFlight : List Produced
  queries : List Query
  stamps : List Int
  parsedFrom : Nat
  storedFrom : Nat
  deriving DecidableEq

def Service.start (mode fresh : UInt8) : Service := ⟨.start mode fresh, [], [], [0], 0, 0⟩

inductive Event where
  /-- The controller publishes a heartbeat. -/
  | produce (r : Received)
  | lose
  /-- The monitor receives the oldest heartbeat on its way. -/
  | receive
  /-- A caller reads `_taskstate` under the lock. -/
  | check (result : ResultGetBinpickingState)
  /-- The controller makes the reply to a state query. -/
  | answer (query : Nat) (pt : Json) (mode : UInt8)
  /-- The caller parses the reply and stores it. -/
  | store (query : Nat)
  /-- The state query throws. -/
  | abandon (query : Nat)
  deriving DecidableEq

/-- The time stamp in the task state of this slave. -/
def heartbeatStamp (platform : Platform) (slaverequestid : Text) (r : Received) : Option Int :=
  (parseJson r.message).bind fun pt =>
    match ResultHeartBeat.slaveTaskState slaverequestid pt with
    | .ok (some v) => ResultGetBinpickingState.stamp platform v
    | _ => none

def replyStamp (platform : Platform) (pt : Json) : Option Int :=
  match findMemberOf pt "output" with
  | .ok (some v) => ResultGetBinpickingState.stamp platform v
  | _ => none

namespace Service

/-- Numbers a new message. The controller's time stamps do not decrease. -/
def number (s : Service) : Option Int → Option (Nat × List Int)
  | none => some (0, s.stamps)
  | some t => if ∀ earlier ∈ s.stamps, earlier ≤ t then some (s.stamps.length, s.stamps ++ [t]) else none

variable (platform : Platform) (slaverequestid : Text)

def onReceive (s : Service) (p : Produced) (rest : List Produced) : Service :=
  let monitor := s.monitor.receive platform slaverequestid p.received
  { s with
    monitor := monitor
    inFlight := rest
    parsedFrom :=
      if heartbeatStamp platform slaverequestid p.received = some monitor.heartbeat.taskstate.timestamp.val
      then p.number else s.parsedFrom
    storedFrom :=
      match p.received.reading platform slaverequestid with
      | .rejected | .broken => s.storedFrom
      | .without => s.parsedFrom
      | .complete _ => p.number }

def onStore (s : Service) (query : Nat) (q : Query) (reply : Reply) : Service :=
  let s := { s with queries := s.queries.eraseIdx query }
  match ResultGetBinpickingState.parseReply platform reply.mode reply.pt q.result with
  | (.ok _, result) => { s with monitor := { s.monitor with published := result }, storedFrom := reply.number }
  | (.error _, _) => s

def step (s : Service) : Event → Option Service
  | .produce r => (s.number (heartbeatStamp platform slaverequestid r)).map fun (number, stamps) =>
      { s with inFlight := s.inFlight ++ [⟨number, r⟩], stamps := stamps }
  | .lose =>
    match s.inFlight with
    | [] => none
    | _ :: rest => some { s with inFlight := rest }
  | .receive =>
    match s.inFlight with
    | [] => none
    | p :: rest => some (s.onReceive platform slaverequestid p rest)
  | .check result =>
    -- a published state with a time stamp is returned at once
    if s.monitor.published.timestamp.val = 0 then some { s with queries := s.queries ++ [⟨result, none⟩] }
    else some s
  | .answer query pt mode =>
    match s.queries[query]? with
    | some ⟨result, none⟩ => (s.number (replyStamp platform pt)).map fun (number, stamps) =>
        { s with queries := s.queries.set query ⟨result, some ⟨number, pt, mode⟩⟩, stamps := stamps }
    | _ => none
  | .store query =>
    match s.queries[query]? with
    | some ⟨result, some reply⟩ => some (s.onStore platform query ⟨result, some reply⟩ reply)
    | _ => none
  | .abandon query =>
    match s.queries[query]? with
    | some _ => some { s with queries := s.queries.eraseIdx query }
    | none => none

end Service

/-- Nothing made after message `number` is stored, or nothing with a time stamp is. -/
def Service.Current (s : Service) (number : Nat) : Prop :=
  s.monitor.published.timestamp.val = 0 ∨ s.storedFrom ≤ number

instance (s : Service) (number : Nat) : Decidable (s.Current number) := by
  unfold Service.Current; infer_instance

/-- Task states are stored in the order the controller made them: a heartbeat or a reply
that loads finds nothing stored that was made after it, and a heartbeat without a task
state finds nothing stored that was made after the last task state the monitor parsed. -/
def InOrder (platform : Platform) (slaverequestid : Text) (s : Service) : Event → Prop
  | .receive =>
    match s.inFlight with
    | [] => True
    | p :: _ =>
      match p.received.reading platform slaverequestid with
      | .rejected | .broken => True
      | .without => s.Current s.parsedFrom
      | .complete _ => s.Current p.number
  | .store query =>
    match s.queries[query]? with
    | some ⟨result, some reply⟩ =>
      match (ResultGetBinpickingState.parseReply platform reply.mode reply.pt result).1 with
      | .ok _ => s.Current reply.number
      | .error _ => True
    | _ => True
  | _ => True

instance (platform : Platform) (slaverequestid : Text) (s : Service) (e : Event) :
    Decidable (InOrder platform slaverequestid s e) := by
  unfold InOrder
  repeat' split
  all_goals infer_instance

variable {platform : Platform} {slaverequestid : Text}

structure Inv (platform : Platform) (slaverequestid : Text) (s : Service) : Prop where
  untouched : s.monitor.heartbeat.taskstate.isDynamicEnvironmentStateEmpty = false
  sorted : s.stamps.Pairwise (· ≤ ·)
  stored : s.stamps[s.storedFrom]? = some s.monitor.published.timestamp.val
  parsed : s.stamps[s.parsedFrom]? = some s.monitor.heartbeat.taskstate.timestamp.val
  heartbeats : ∀ p ∈ s.inFlight, ∀ t, heartbeatStamp platform slaverequestid p.received = some t →
    s.stamps[p.number]? = some t
  replies : ∀ q ∈ s.queries, ∀ reply, q.reply = some reply → ∀ t, replyStamp platform reply.pt = some t →
    s.stamps[reply.number]? = some t

theorem inv_start (mode fresh : UInt8) : Inv platform slaverequestid (.start mode fresh) where
  untouched := rfl
  sorted := by simp [Service.start]
  stored := rfl
  parsed := rfl
  heartbeats := by simp [Service.start]
  replies := by simp [Service.start]

/-- Of two messages the one made later has the later time stamp. -/
theorem Inv.stamp_le {m n : Nat} (inv : Inv platform slaverequestid s) (order : m ≤ n)
    (first : s.stamps[m]? = some t) (second : s.stamps[n]? = some u) : t ≤ u := by
  obtain ⟨left, rfl⟩ := List.getElem?_eq_some_iff.mp first
  obtain ⟨right, rfl⟩ := List.getElem?_eq_some_iff.mp second
  rcases Nat.lt_or_eq_of_le order with before | rfl
  · exact List.pairwise_iff_getElem.mp inv.sorted m n left right before
  · exact le_rfl

/-- What is current has a time stamp at least as late as the published one. -/
theorem Inv.published_le (inv : Inv platform slaverequestid s) (current : s.Current n)
    (stamp : s.stamps[n]? = some t) (next : UInt64) (value : next.val = t) :
    s.monitor.published.timestamp.val ≤ next.val := by
  rcases current with zero | order
  · rw [zero]
    exact next.property.1
  · exact value ▸ inv.stamp_le order inv.stored stamp

theorem keeps_heartbeatStamp (platform : Platform) (slaverequestid : Text)
    (json : parseJson r.message = some pt) (old : Int) (mode : UInt8) :
    Keeps (fun s => s.taskstate.timestamp.val = old ∨
        heartbeatStamp platform slaverequestid r = some s.taskstate.timestamp.val)
      (ResultHeartBeat.parse platform slaverequestid mode pt) := by
  unfold ResultHeartBeat.parse ResultHeartBeat.parseOwn
  refine Keeps.bind ?_ fun _ => keeps_lift_bind fun found known => ?_
  · repeat' first
      | exact keeps_update _ fun s same => same
      | exact keeps_zoom_part fun s x same => same
      | refine Keeps.bind ?_ fun _ => ?_
  · cases found with
    | none => exact keeps_pure ()
    | some v =>
      have stamp : heartbeatStamp platform slaverequestid r = ResultGetBinpickingState.stamp platform v := by
        rw [heartbeatStamp, json, Option.bind_some, known]
      rw [stamp]
      exact keeps_zoom (ResultGetBinpickingState.keeps_stamp old mode v) (fun _ same => same)
        fun _ _ _ same => same

theorem receive_stamp (platform : Platform) (slaverequestid : Text) (m : Monitor) (r : Received) :
    (m.receive platform slaverequestid r).heartbeat.taskstate.timestamp.val =
        m.heartbeat.taskstate.timestamp.val ∨
      heartbeatStamp platform slaverequestid r =
        some (m.receive platform slaverequestid r).heartbeat.taskstate.timestamp.val := by
  unfold Monitor.receive
  split
  · exact .inl rfl
  · rename_i pt json
    have keeps := keeps_heartbeatStamp platform slaverequestid json
      m.heartbeat.taskstate.timestamp.val r.mode m.heartbeat (.inl rfl)
    split <;> (rename_i ran; rw [ran] at keeps; exact keeps)

theorem complete_stamp {m : Monitor} {r : Received}
    (untouched : m.heartbeat.taskstate.isDynamicEnvironmentStateEmpty = false)
    (reading : r.reading platform slaverequestid = .complete v) :
    heartbeatStamp platform slaverequestid r =
      some (m.receive platform slaverequestid r).published.timestamp.val := by
  have effect := Monitor.receive_effect platform slaverequestid m r untouched
  simp only [Monitor.Effect, reading] at effect
  obtain ⟨pt, json, found⟩ := reading_complete reading
  rw [heartbeatStamp, json, Option.bind_some, found]
  exact ResultGetBinpickingState.ensures_stamp r.mode v _ _ _ effect.2

variable {s next : Service} {stamps : List Int} {stamp : Option Int} {n i query : Nat} {t : Int}

theorem number_spec (numbered : s.number stamp = some (n, stamps)) :
    (stamp = none ∧ stamps = s.stamps) ∨
    ∃ t, stamp = some t ∧ (∀ earlier ∈ s.stamps, earlier ≤ t) ∧ n = s.stamps.length ∧
      stamps = s.stamps ++ [t] := by
  cases stamp with
  | none =>
    obtain ⟨-, rfl⟩ := Prod.mk.inj (Option.some.inj numbered)
    exact .inl ⟨rfl, rfl⟩
  | some t =>
    simp only [Service.number] at numbered
    split at numbered
    · rename_i latest
      obtain ⟨rfl, rfl⟩ := Prod.mk.inj (Option.some.inj numbered)
      exact .inr ⟨t, rfl, latest, rfl, rfl⟩
    · simp at numbered

/-- The list of time stamps grows at its end only. -/
theorem number_grows (numbered : s.number stamp = some (n, stamps)) (known : s.stamps[i]? = some t) :
    stamps[i]? = some t := by
  rcases number_spec numbered with ⟨-, rfl⟩ | ⟨u, -, -, -, rfl⟩
  · exact known
  · obtain ⟨inside, -⟩ := List.getElem?_eq_some_iff.mp known
    rw [List.getElem?_append_left inside, known]

theorem number_new (numbered : s.number (some t) = some (n, stamps)) : stamps[n]? = some t := by
  rcases number_spec numbered with ⟨absent, -⟩ | ⟨u, same, -, rfl, rfl⟩
  · simp at absent
  · obtain rfl := Option.some.inj same
    simp

theorem number_sorted (numbered : s.number stamp = some (n, stamps)) (sorted : s.stamps.Pairwise (· ≤ ·)) :
    stamps.Pairwise (· ≤ ·) := by
  rcases number_spec numbered with ⟨-, rfl⟩ | ⟨u, -, latest, -, rfl⟩
  · exact sorted
  · exact List.pairwise_append.mpr ⟨sorted, List.pairwise_singleton _ _, by simpa using latest⟩

/-- What a step of the system may rely on and has to show. -/
def Advances (platform : Platform) (slaverequestid : Text) (s next : Service) : Prop :=
  Inv platform slaverequestid next ∧ s.monitor.published.timestamp.val ≤ next.monitor.published.timestamp.val

theorem produce_advances (inv : Inv platform slaverequestid s)
    (numbered : s.number (heartbeatStamp platform slaverequestid r) = some (n, stamps)) :
    Advances platform slaverequestid s
      { s with inFlight := s.inFlight ++ [⟨n, r⟩], stamps := stamps } := by
  refine ⟨{ inv with
    sorted := number_sorted numbered inv.sorted
    stored := number_grows numbered inv.stored
    parsed := number_grows numbered inv.parsed
    heartbeats := fun p member t stamp => ?_
    replies := fun q member reply some t stamp =>
      number_grows numbered (inv.replies q member reply some t stamp) }, le_rfl⟩
  rcases List.mem_append.mp member with old | new
  · exact number_grows numbered (inv.heartbeats p old t stamp)
  · obtain rfl := List.mem_singleton.mp new
    rw [stamp] at numbered
    exact number_new numbered

theorem parsed_onReceive (inv : Inv platform slaverequestid s) (member : p ∈ s.inFlight) (rest : List Produced) :
    s.stamps[(s.onReceive platform slaverequestid p rest).parsedFrom]? =
      some (s.onReceive platform slaverequestid p rest).monitor.heartbeat.taskstate.timestamp.val := by
  have moved := receive_stamp platform slaverequestid s.monitor p.received
  unfold Service.onReceive
  dsimp only
  split
  · rename_i carried
    exact inv.heartbeats p member _ carried
  · rename_i other
    rw [moved.resolve_right other]
    exact inv.parsed

theorem receive_advances (inv : Inv platform slaverequestid s) (front : s.inFlight = p :: rest)
    (order : InOrder platform slaverequestid s .receive) :
    Advances platform slaverequestid s (s.onReceive platform slaverequestid p rest) := by
  have member : p ∈ s.inFlight := by simp [front]
  have parsed := parsed_onReceive inv member rest
  have heartbeats : ∀ q ∈ rest, ∀ t, heartbeatStamp platform slaverequestid q.received = some t →
      s.stamps[q.number]? = some t := fun q later => inv.heartbeats q (by simp [front, later])
  have effect := Monitor.receive_effect platform slaverequestid
    s.monitor p.received inv.untouched
  simp only [InOrder, front] at order
  unfold Monitor.Effect at effect
  cases reading : p.received.reading platform slaverequestid with
  | rejected =>
    simp only [reading] at effect
    obtain ⟨published, same⟩ := effect
    refine ⟨⟨?_, inv.sorted, ?_, parsed, heartbeats, inv.replies⟩, ?_⟩
    · exact same ▸ inv.untouched
    · simpa [Service.onReceive, reading, published] using inv.stored
    · exact (congrArg (·.timestamp.val) published).ge
  | without =>
    simp only [reading] at effect order
    obtain ⟨published, same⟩ := effect
    refine ⟨⟨?_, inv.sorted, ?_, parsed, heartbeats, inv.replies⟩, ?_⟩
    · exact same ▸ inv.untouched
    · simpa [Service.onReceive, reading, published] using inv.parsed
    · exact inv.published_le order inv.parsed _ (congrArg (·.timestamp.val) published)
  | broken =>
    simp only [reading] at effect
    obtain ⟨published, untouched⟩ := effect
    refine ⟨⟨untouched, inv.sorted, ?_, parsed, heartbeats, inv.replies⟩, ?_⟩
    · simpa [Service.onReceive, reading, published] using inv.stored
    · exact (congrArg (·.timestamp.val) published).ge
  | complete v =>
    simp only [reading] at effect order
    obtain ⟨published, parse⟩ := effect
    have carried := complete_stamp inv.untouched reading
    have number := inv.heartbeats p member _ carried
    have untouched := ResultGetBinpickingState.keeps_parse platform p.received.mode v false
      (.initial p.received.mode) rfl
    rw [parse] at untouched
    refine ⟨⟨published ▸ untouched, inv.sorted, ?_, parsed, heartbeats, inv.replies⟩, ?_⟩
    · simpa [Service.onReceive, reading] using number
    · exact inv.published_le order number _ rfl

theorem answer_advances (inv : Inv platform slaverequestid s)
    (numbered : s.number (replyStamp platform pt) = some (n, stamps)) :
    Advances platform slaverequestid s
      { s with queries := s.queries.set query ⟨result, some ⟨n, pt, mode⟩⟩, stamps := stamps } := by
  refine ⟨{ inv with
    sorted := number_sorted numbered inv.sorted
    stored := number_grows numbered inv.stored
    parsed := number_grows numbered inv.parsed
    heartbeats := fun p member t stamp => number_grows numbered (inv.heartbeats p member t stamp)
    replies := fun q member reply answered t stamp => ?_ }, le_rfl⟩
  rcases List.mem_or_eq_of_mem_set member with old | rfl
  · exact number_grows numbered (inv.replies q old reply answered t stamp)
  · obtain rfl := Option.some.inj answered
    rw [stamp] at numbered
    exact number_new numbered

/-- A query that is over. -/
theorem Inv.erase (inv : Inv platform slaverequestid s) (query : Nat) :
    Inv platform slaverequestid { s with queries := s.queries.eraseIdx query } :=
  { inv with replies := fun q member => inv.replies q (List.mem_of_mem_eraseIdx member) }

theorem ensures_replyStamp (mode : UInt8) (pt : Json) :
    Ensures (fun s => replyStamp platform pt = some s.timestamp.val)
      (ResultGetBinpickingState.parseReply platform mode pt) := by
  unfold ResultGetBinpickingState.parseReply replyStamp
  rcases findMemberOf pt "output" with e | _ | v
  · exact fun s a final ran => by simp at ran
  · exact fun s a final ran => by simp at ran
  · exact ResultGetBinpickingState.ensures_stamp mode v

theorem store_advances (inv : Inv platform slaverequestid s)
    (answered : s.queries[query]? = some ⟨result, some reply⟩)
    (order : InOrder platform slaverequestid s (.store query)) :
    Advances platform slaverequestid s (s.onStore platform query ⟨result, some reply⟩ reply) := by
  unfold Service.onStore
  dsimp only
  simp only [InOrder, answered] at order
  split
  · rename_i a t ran
    rw [ran] at order
    have stamp := inv.replies _ (List.mem_of_getElem? answered) reply rfl _ (ensures_replyStamp _ _ _ _ _ ran)
    have erased := inv.erase query
    exact ⟨{ erased with stored := stamp }, inv.published_le order stamp _ rfl⟩
  · exact ⟨inv.erase query, le_rfl⟩

theorem step_advances (inv : Inv platform slaverequestid s) (order : InOrder platform slaverequestid s e)
    (stepped : s.step platform slaverequestid e = some next) : Advances platform slaverequestid s next := by
  cases e with
  | produce r =>
    obtain ⟨⟨n, stamps⟩, numbered, rfl⟩ := Option.map_eq_some_iff.mp stepped
    exact produce_advances inv numbered
  | lose =>
    simp only [Service.step] at stepped
    split at stepped
    · simp at stepped
    · rename_i p rest front
      obtain rfl := Option.some.inj stepped
      exact ⟨{ inv with heartbeats := fun p member => inv.heartbeats p (by simp [front, member]) }, le_rfl⟩
  | receive =>
    simp only [Service.step] at stepped
    split at stepped
    · simp at stepped
    · rename_i p rest front
      obtain rfl := Option.some.inj stepped
      exact receive_advances inv front order
  | check result =>
    simp only [Service.step] at stepped
    split at stepped
    · obtain rfl := Option.some.inj stepped
      refine ⟨{ inv with replies := fun q member reply answered => ?_ }, le_rfl⟩
      rcases List.mem_append.mp member with old | new
      · exact inv.replies q old reply answered
      · obtain rfl := List.mem_singleton.mp new
        simp at answered
    · obtain rfl := Option.some.inj stepped
      exact ⟨inv, le_rfl⟩
  | answer query pt mode =>
    simp only [Service.step] at stepped
    split at stepped
    · obtain ⟨⟨n, stamps⟩, numbered, rfl⟩ := Option.map_eq_some_iff.mp stepped
      exact answer_advances inv numbered
    · simp at stepped
  | store query =>
    simp only [Service.step] at stepped
    split at stepped
    · rename_i result reply answered
      obtain rfl := Option.some.inj stepped
      exact store_advances inv answered order
    · simp at stepped
  | abandon query =>
    simp only [Service.step] at stepped
    split at stepped
    · obtain rfl := Option.some.inj stepped
      exact ⟨inv.erase query, le_rfl⟩
    · simp at stepped

theorem start_run (events : List Event)
    (ran : Transition.run (Service.step platform slaverequestid) s events = some final)
    (inv : Inv platform slaverequestid s)
    (order : Transition.Meets (InOrder platform slaverequestid) (Service.step platform slaverequestid) s events) :
    Inv platform slaverequestid final ∧
      s.monitor.published.timestamp.val ≤ final.monitor.published.timestamp.val := by
  refine Transition.run_invariant
    (fun reached => Inv platform slaverequestid reached ∧
      s.monitor.published.timestamp.val ≤ reached.monitor.published.timestamp.val) ?_ ⟨inv, le_rfl⟩ order ran
  rintro reached e next ⟨inv, above⟩ order stepped
  obtain ⟨inv, later⟩ := step_advances inv order stepped
  exact ⟨inv, above.trans later⟩

/-- The time stamp of the published state never decreases while the states are stored in
the order the controller made them. -/
theorem published_never_decreases (platform : Platform) (slaverequestid : Text) (mode fresh : UInt8)
    (first second : List Event) (middle final : Service)
    (order : Transition.Meets (InOrder platform slaverequestid) (Service.step platform slaverequestid)
      (.start mode fresh) (first ++ second))
    (ranFirst : Transition.run (Service.step platform slaverequestid) (.start mode fresh) first = some middle)
    (ranSecond : Transition.run (Service.step platform slaverequestid) middle second = some final) :
    middle.monitor.published.timestamp.val ≤ final.monitor.published.timestamp.val := by
  obtain ⟨early, late⟩ := Transition.meets_append.mp order
  obtain ⟨inv, -⟩ := start_run first ranFirst (inv_start mode fresh) early
  exact (start_run second ranSecond inv (late middle ranFirst)).2

/-- A reply with time stamp 1 s, which is stored. -/
def queried : List Event :=
  [.check (.initial (uint8Of 0)),
    .answer 0 (.object [(lit "output", .object [(lit "timestamp", .int ⟨1, by decide⟩)])]) (uint8Of 0), .store 0]

def ordered : List Event := [.produce (slaveHeartbeat "\"timestamp\":2"), .receive]

theorem published_never_decreases_ordered : ∃ middle final,
    Transition.run (Service.step default (lit "s")) (.start (uint8Of 0) (uint8Of 0)) queried = some middle ∧
    Transition.run (Service.step default (lit "s")) middle ordered = some final ∧
    middle.monitor.published.timestamp.val = 1000 ∧
    middle.monitor.published.timestamp.val ≤ final.monitor.published.timestamp.val := by
  obtain ⟨middle, ranFirst, value⟩ : ∃ middle,
      Transition.run (Service.step default (lit "s")) (.start (uint8Of 0) (uint8Of 0)) queried = some middle ∧
        middle.monitor.published.timestamp.val = 1000 :=
    ⟨(Transition.run (Service.step default (lit "s")) (.start (uint8Of 0) (uint8Of 0)) queried).get
      (by decide +kernel), by simp, by decide +kernel⟩
  obtain ⟨final, ran⟩ : ∃ final,
      Transition.run (Service.step default (lit "s")) (.start (uint8Of 0) (uint8Of 0)) (queried ++ ordered) =
        some final :=
    ⟨(Transition.run (Service.step default (lit "s")) (.start (uint8Of 0) (uint8Of 0)) (queried ++ ordered)).get
      (by decide +kernel), by simp⟩
  have ranSecond : Transition.run (Service.step default (lit "s")) middle ordered = some final := by
    rwa [Transition.run_append, ranFirst, Option.bind_some] at ran
  exact ⟨middle, final, ranFirst, ranSecond, value, published_never_decreases default (lit "s") _ _ queried ordered
    middle final (by decide +kernel) ranFirst ranSecond⟩

/-- After the reply is stored, a heartbeat without a task state publishes the monitor's
default-constructed one. -/
theorem published_decreases : ¬∀ (platform : Platform) (slaverequestid : Text) (mode fresh : UInt8)
    (first second : List Event) (middle final : Service),
    Transition.run (Service.step platform slaverequestid) (.start mode fresh) first = some middle →
    Transition.run (Service.step platform slaverequestid) middle second = some final →
    middle.monitor.published.timestamp.val ≤ final.monitor.published.timestamp.val := by
  intro never
  obtain ⟨middle, ranFirst, value⟩ : ∃ middle,
      Transition.run (Service.step default (lit "s")) (.start (uint8Of 0) (uint8Of 0)) queried = some middle ∧
        middle.monitor.published.timestamp.val = 1000 :=
    ⟨(Transition.run (Service.step default (lit "s")) (.start (uint8Of 0) (uint8Of 0)) queried).get
      (by decide +kernel), by simp, by decide +kernel⟩
  obtain ⟨final, ran, zero⟩ : ∃ final,
      Transition.run (Service.step default (lit "s")) (.start (uint8Of 0) (uint8Of 0))
        (queried ++ [.produce emptyHeartbeat, .receive]) = some final ∧
        final.monitor.published.timestamp.val = 0 :=
    ⟨(Transition.run (Service.step default (lit "s")) (.start (uint8Of 0) (uint8Of 0))
      (queried ++ [.produce emptyHeartbeat, .receive])).get (by decide +kernel), by simp, by decide +kernel⟩
  rw [Transition.run_append, ranFirst, Option.bind_some] at ran
  have order := never default (lit "s") _ _ queried _ middle final ranFirst ran
  omega

end MujinClient.Published
