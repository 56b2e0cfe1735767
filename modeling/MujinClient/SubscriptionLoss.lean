import MujinClient.SubscriptionRouting

/-! Subscriptions over the connections of a client. A call looks at the stream of a connection before
it starts a subscription on it, and the reads of the connection may end in between. -/
namespace MujinClient

/-- A connection with its stream, and what the callers know of it. -/
structure SubscriptionConnection (Callback : Type) where
  handler : GraphSubscriptionWebSocketHandler Callback
  isStreamOpen : Bool
  /-- The subscriptions whose ids were returned. -/
  returned : List (Text × Option Callback)
  /-- The ids of those that their owners have stopped. -/
  stopped : List Text

inductive SubscriptionEvent (Callback : Type) where
  /-- `ExecuteGraphSubscription` takes the mutex of the client and finds a connection. `connects` is
  false where a new one cannot be made. -/
  | looksUp (connects : Bool)
  /-- The same call goes on with `StartSubscription`. An open stream may refuse the message. -/
  | starts (operationName query : Text) (rVariables : Json) (subscriptionId : Uuid)
    (onReadHandler : Option Callback) (throws : Bool)
  /-- An owner destroys the handler of a subscription. -/
  | stops (c : Nat) (subscriptionId : Text) (writes : Bool)
  | arrives (c : Nat) (message : Text)
  | reads (c : Nat)
  | fails (c : Nat) (message : Text)
  /-- The stream is no longer open, and its read has not completed yet. -/
  | breaks (c : Nat)
  /-- The last pointer to a connection goes away. -/
  | destroys (c : Nat) (message : Text)

structure SubscriptionClient (Callback : Type) where
  /-- In the order of their creation. -/
  connections : List (SubscriptionConnection Callback)
  /-- The weak pointer, while its connection is there. -/
  graphSubscriptionWebSocketHandler : Option Nat
  /-- The connection of the call that holds the mutex. -/
  chosen : Option Nat

variable {Callback : Type}

namespace SubscriptionConnection

def connected : SubscriptionConnection Callback := ⟨.connected, true, [], []⟩

/-- A stream that is not open drops the message. -/
def start (platform : Platform) (k : SubscriptionConnection Callback) (operationName query : Text)
    (rVariables : Json)
    (subscriptionId : Uuid) (onReadHandler : Option Callback) (throws : Bool) : SubscriptionConnection Callback :=
  { k with
    handler := k.handler.startSubscription platform operationName query rVariables subscriptionId
      onReadHandler (k.isStreamOpen && !throws)
    returned := if k.isStreamOpen && throws then k.returned else k.returned ++
      [(subscriptionId.toText, onReadHandler)] }

def stop (k : SubscriptionConnection Callback) (subscriptionId : Text) (writes : Bool) :
    Option (SubscriptionConnection Callback) :=
  if subscriptionId ∈ k.returned.map Prod.fst ∧ subscriptionId ∉ k.stopped then
    some { k with
      handler := k.handler.stopSubscription subscriptionId (k.isStreamOpen && writes)
      stopped := k.stopped ++ [subscriptionId] }
  else none

def receives (platform : Platform) (k : SubscriptionConnection Callback) (event : StreamEvent Callback) :
    Option (SubscriptionConnection Callback) :=
  (k.handler.step platform event).map fun handler => { k with handler }

/-- A read completes with an error, which leaves the stream closed. -/
def fail (platform : Platform) (k : SubscriptionConnection Callback) (message : Text) :
    Option (SubscriptionConnection Callback) :=
  (k.handler.step platform (.fails message)).map fun handler => { k with handler, isStreamOpen := false }

def breakStream (k : SubscriptionConnection Callback) : SubscriptionConnection Callback :=
  { k with isStreamOpen := false }

theorem generated_empty :
    ∀ entry ∈ (UnorderedMap.empty : UnorderedMap Text Callback).entries, NulFree entry.1 := by simp

/-- `StopAllSubscriptions` in the destructor, after which nothing is left of the connection. -/
def destroy (k : SubscriptionConnection Callback) (message : Text) : Option (SubscriptionConnection Callback) :=
  if ∀ entry ∈ k.returned, entry.1 ∈ k.stopped then
    some { k with
      handler := { k.handler.onError message with
        onReadHandlers := .empty, generated := generated_empty, reads := 0 }
      isStreamOpen := false }
  else none

def Notified (k : SubscriptionConnection Callback) (id : Text) (callback : Callback) : Prop :=
  ∃ message, ⟨id, callback, constructErrorsFromErrorCode message, .null⟩ ∈ k.handler.delivered

/-- Once its reads have ended, nobody waits for this connection without knowing. -/
def Safe (k : SubscriptionConnection Callback) : Prop := k.handler.reads = 0 →
  (∀ id callback, (id, some callback) ∈ k.returned → id ∈ k.stopped ∨ k.Notified id callback) ∧
  ∀ id callback, k.handler.registered id = some callback → k.Notified id callback

/-- What is not stopped is registered, and what is registered was notified at the end. -/
structure Sound (k : SubscriptionConnection Callback) : Prop where
  live : ∀ entry ∈ k.returned, entry.1 ∈ k.stopped ∨ k.handler.registered entry.1 = entry.2
  ended : k.handler.reads = 0 → ∀ id callback, k.handler.registered id = some callback → k.Notified id callback

end SubscriptionConnection

namespace SubscriptionClient

def initial : SubscriptionClient Callback := ⟨[], none, none⟩

def onConnection (s : SubscriptionClient Callback) (c : Nat)
    (f : SubscriptionConnection Callback → Option (SubscriptionConnection Callback)) :
    Option (SubscriptionClient Callback) :=
  s.connections[c]?.bind fun k => (f k).map fun k => { s with connections := s.connections.set c k }

def isStreamOpen (s : SubscriptionClient Callback) (c : Nat) : Bool := s.connections[c]?.any (·.isStreamOpen)

/-- The connection there is, if its stream is open, or a new one. -/
def lookUp (s : SubscriptionClient Callback) (connects : Bool) : SubscriptionClient Callback :=
  match s.graphSubscriptionWebSocketHandler.filter s.isStreamOpen with
  | some c => { s with chosen := some c }
  | none =>
    if connects then
      { s with connections := s.connections ++ [.connected], chosen := some s.connections.length } else s

def step (platform : Platform) (s : SubscriptionClient Callback) :
    SubscriptionEvent Callback → Option (SubscriptionClient Callback)
  | .looksUp connects => if s.chosen.isSome then none else some (s.lookUp connects)
  | .starts operationName query rVariables subscriptionId onReadHandler throws =>
    s.chosen.bind fun c =>
      let pointed := if s.isStreamOpen c && throws then s.graphSubscriptionWebSocketHandler else some c
      onConnection { s with chosen := none, graphSubscriptionWebSocketHandler := pointed } c fun k =>
        some (k.start platform operationName query rVariables subscriptionId onReadHandler throws)
  | .stops c subscriptionId writes => s.onConnection c (·.stop subscriptionId writes)
  | .arrives c message => s.onConnection c (·.receives platform (.arrives message))
  | .reads c => s.onConnection c (·.receives platform .reads)
  | .fails c message => s.onConnection c (·.fail platform message)
  | .breaks c => s.onConnection c fun k => some k.breakStream
  | .destroys c message =>
    if s.chosen = some c then none
    else
      let pointed := s.graphSubscriptionWebSocketHandler.filter (· ≠ c)
      onConnection { s with graphSubscriptionWebSocketHandler := pointed } c (·.destroy message)

/-- No subscription is lost. -/
def Safe (s : SubscriptionClient Callback) : Prop := ∀ k ∈ s.connections, k.Safe

def Sound (s : SubscriptionClient Callback) : Prop := ∀ k ∈ s.connections, k.Sound

/-- A subscription starts with a new id, on a connection whose reads have not ended. -/
def InTime (s : SubscriptionClient Callback) : SubscriptionEvent Callback → Prop
  | .starts _ _ _ subscriptionId _ _ => ∀ c ∈ s.chosen, ∀ k ∈ s.connections[c]?,
    k.handler.reads ≠ 0 ∧ subscriptionId.toText ∉ k.returned.map Prod.fst
  | _ => True

end SubscriptionClient

namespace SubscriptionConnection

variable {k l : SubscriptionConnection Callback} {platform : Platform}

theorem Sound.safe (sound : k.Sound) : k.Safe := by
  intro ended
  refine ⟨fun id callback member => ?_, sound.ended ended⟩
  rcases sound.live _ member with stopped | registered
  · exact .inl stopped
  · exact .inr (sound.ended ended id callback registered)

theorem sound_connected : (connected : SubscriptionConnection Callback).Sound :=
  ⟨fun _ member => absurd member List.not_mem_nil, fun ended => absurd ended Nat.one_ne_zero⟩

/-- A connection that keeps its callbacks and its deliveries keeps what was known. -/
theorem Sound.congr (sound : k.Sound) (registered : ∀ id, l.handler.registered id = k.handler.registered id)
    (delivered : l.handler.delivered = k.handler.delivered) (returned : l.returned = k.returned)
    (stopped : l.stopped = k.stopped)
    (reads : l.handler.reads = 0 → k.handler.reads = 0) : l.Sound := by
  constructor
  · intro entry member
    rw [stopped, registered]
    exact sound.live entry (returned ▸ member)
  · intro ended id callback found
    obtain ⟨message, member⟩ := sound.ended (reads ended) id callback (registered id ▸ found)
    exact ⟨message, delivered ▸ member⟩

theorem Sound.start {operationName query : Text} {rVariables : Json} {subscriptionId : Uuid}
    {onReadHandler : Option Callback} {throws : Bool} (sound : k.Sound) (reading : k.handler.reads ≠ 0)
    (new : subscriptionId.toText ∉ k.returned.map Prod.fst) :
    (k.start platform operationName query rVariables subscriptionId onReadHandler throws).Sound := by
  have registered (id : Text) :
      (k.start platform operationName query rVariables subscriptionId onReadHandler throws).handler.registered id =
        if id = subscriptionId.toText then onReadHandler else k.handler.registered id :=
    GraphSubscriptionWebSocketHandler.registered_startSubscription id
  have reads : (k.start platform operationName query rVariables subscriptionId onReadHandler
      throws).handler.reads = k.handler.reads :=
    GraphSubscriptionWebSocketHandler.sendMessage_frame.2.2.1
  refine ⟨fun entry member => ?_, fun ended => absurd (reads ▸ ended) reading⟩
  rw [registered]
  have old (before : entry ∈ k.returned) : entry.1 ∈ k.stopped ∨
      (if entry.1 = subscriptionId.toText then onReadHandler else k.handler.registered entry.1) = entry.2 := by
    have other : entry.1 ≠ subscriptionId.toText := fun same => new (same ▸ List.mem_map_of_mem before)
    rw [if_neg other]
    exact sound.live entry before
  simp only [SubscriptionConnection.start] at member
  split at member
  · exact old member
  · rcases List.mem_append.mp member with before | added
    · exact old before
    · obtain rfl := List.mem_singleton.mp added
      exact .inr (if_pos rfl)

theorem Sound.stop {subscriptionId : Text} {writes : Bool} (sound : k.Sound)
    (stops : k.stop subscriptionId writes = some l) : l.Sound := by
  unfold SubscriptionConnection.stop at stops
  split at stops
  · obtain rfl := Option.some.inj stops
    have frame : (k.handler.stopSubscription subscriptionId (k.isStreamOpen && writes)).incoming =
        k.handler.incoming ∧
        (k.handler.stopSubscription subscriptionId (k.isStreamOpen && writes)).reads = k.handler.reads ∧
        (k.handler.stopSubscription subscriptionId (k.isStreamOpen && writes)).delivered = k.handler.delivered :=
      GraphSubscriptionWebSocketHandler.stopSubscription_frame
    obtain ⟨-, reads, delivered⟩ := frame
    constructor
    · intro entry member
      simp only [GraphSubscriptionWebSocketHandler.registered_stopSubscription, List.mem_append,
        List.mem_singleton]
      rcases sound.live entry member with stopped | registered
      · exact .inl (.inl stopped)
      · by_cases same : entry.1 = subscriptionId
        · exact .inl (.inr same)
        · exact .inr ((if_neg same).trans registered)
    · intro ended id callback found
      rw [GraphSubscriptionWebSocketHandler.registered_stopSubscription] at found
      split at found
      · cases found
      · obtain ⟨message, member⟩ := sound.ended (reads ▸ ended) id callback found
        exact ⟨message, delivered.symm ▸ member⟩
  · cases stops

theorem Sound.receives {event : StreamEvent Callback} (sound : k.Sound)
    (stream : event = .reads ∨ ∃ message, event = .arrives message)
    (received : k.receives platform event = some l) : l.Sound := by
  obtain ⟨handler, taken, rfl⟩ := Option.map_eq_some_iff.mp received
  rcases stream with rfl | ⟨message, rfl⟩
  · unfold GraphSubscriptionWebSocketHandler.step at taken
    dsimp only at taken
    split at taken
    · obtain rfl := Option.some.inj taken
      -- The next read is under way, and no callback is gone.
      refine ⟨fun entry member => ?_, fun ended => ?_⟩
      · rw [GraphSubscriptionWebSocketHandler.registered_onMessage]
        exact sound.live entry member
      · rw [GraphSubscriptionWebSocketHandler.onMessage_eq] at ended
        exact absurd ended (Nat.succ_ne_zero _)
    · cases taken
  · obtain rfl := Option.some.inj taken
    exact sound.congr (fun _ => rfl) rfl rfl rfl id

/-- An error reaches every callback that is registered. -/
theorem notified_onError {s : GraphSubscriptionWebSocketHandler Callback} {message id : Text} {callback : Callback}
    (found : s.registered id = some callback) :
    ⟨id, callback, constructErrorsFromErrorCode message, .null⟩ ∈ (s.onError message).delivered := by
  refine List.mem_append_right _ (List.mem_filterMap.mpr ⟨(id, some callback), ?_, rfl⟩)
  exact mem_of_findEntry (Option.join_eq_some_iff.mp found)

theorem Sound.fail {message : Text} (sound : k.Sound) (failed : k.fail platform message = some l) : l.Sound := by
  obtain ⟨handler, taken, rfl⟩ := Option.map_eq_some_iff.mp failed
  unfold GraphSubscriptionWebSocketHandler.step at taken
  dsimp only at taken
  split at taken
  · obtain rfl := Option.some.inj taken
    exact ⟨sound.live, fun _ id callback found => ⟨message, notified_onError found⟩⟩
  · cases taken

theorem Sound.destroy {message : Text} (destroyed : k.destroy message = some l) : l.Sound := by
  unfold SubscriptionConnection.destroy at destroyed
  split at destroyed
  · rename_i stopped
    obtain rfl := Option.some.inj destroyed
    refine ⟨fun entry member => .inl (stopped entry member), fun _ id callback found => ?_⟩
    cases found
  · cases destroyed

end SubscriptionConnection

namespace SubscriptionClient

variable {s t : SubscriptionClient Callback} {platform : Platform} {c : Nat}
  {f : SubscriptionConnection Callback → Option (SubscriptionConnection Callback)}

/-- A step of one connection that keeps it sound keeps all of them sound. -/
theorem Sound.onConnection (sound : s.Sound)
    (kept : ∀ k l, s.connections[c]? = some k → k.Sound → f k = some l → l.Sound)
    (taken : s.onConnection c f = some t) : t.Sound := by
  obtain ⟨k, there, taken⟩ := Option.bind_eq_some_iff.mp taken
  obtain ⟨l, made, rfl⟩ := Option.map_eq_some_iff.mp taken
  intro m member
  rcases List.mem_or_eq_of_mem_set member with old | rfl
  · exact sound m old
  · exact kept k _ there (sound k (List.mem_of_getElem? there)) made

theorem Sound.lookUp {connects : Bool} (sound : s.Sound) : (s.lookUp connects).Sound := by
  unfold SubscriptionClient.lookUp
  split
  · exact sound
  · split
    · intro k member
      rcases List.mem_append.mp member with old | new
      · exact sound k old
      · obtain rfl := List.mem_singleton.mp new
        exact SubscriptionConnection.sound_connected
    · exact sound

theorem Sound.step {event : SubscriptionEvent Callback} (sound : s.Sound) (inTime : s.InTime event)
    (taken : s.step platform event = some t) : t.Sound := by
  cases event with
  | looksUp connects =>
    simp only [SubscriptionClient.step] at taken
    split at taken
    · cases taken
    · obtain rfl := Option.some.inj taken
      exact sound.lookUp
  | starts operationName query rVariables subscriptionId onReadHandler throws =>
    obtain ⟨c, chosen, taken⟩ := Option.bind_eq_some_iff.mp taken
    refine Sound.onConnection (s := { s with chosen := none, graphSubscriptionWebSocketHandler := _ }) sound
      ?_ taken
    intro k l there kept made
    obtain ⟨reading, new⟩ := inTime c chosen k there
    obtain rfl := Option.some.inj made
    exact kept.start reading new
  | stops c subscriptionId writes => exact sound.onConnection (fun k l _ kept made => kept.stop made) taken
  | arrives c message =>
    exact sound.onConnection (fun k l _ kept made => kept.receives (.inr ⟨message, rfl⟩) made) taken
  | reads c => exact sound.onConnection (fun k l _ kept made => kept.receives (.inl rfl) made) taken
  | fails c message => exact sound.onConnection (fun k l _ kept made => kept.fail made) taken
  | breaks c =>
    refine sound.onConnection (fun k l _ kept made => ?_) taken
    obtain rfl := Option.some.inj made
    exact kept.congr (fun _ => rfl) rfl rfl rfl id
  | destroys c message =>
    simp only [SubscriptionClient.step] at taken
    split at taken
    · cases taken
    · exact Sound.onConnection
        (s := { s with
          graphSubscriptionWebSocketHandler := s.graphSubscriptionWebSocketHandler.filter (· ≠ c) })
        sound (fun k l _ _ made => SubscriptionConnection.Sound.destroy made) taken

/-- In every run whose subscriptions start in time, with new ids, no subscription is lost on the way. -/
theorem none_lost {platform : Platform} {events : List (SubscriptionEvent Callback)}
    (inTime : Transition.Meets InTime (step platform) initial events) : ∀ before, before <+: events → ∀ s,
      Transition.run (step platform) initial before = some s → s.Safe := by
  rintro before ⟨rest, rfl⟩ s ran
  have sound := Transition.run_invariant Sound (fun _ _ _ sound inTime taken => sound.step inTime taken)
    (fun _ member => absurd member List.not_mem_nil) (Transition.meets_append.mp inTime).1 ran
  exact fun k member => (sound k member).safe

/-- A subscription that starts while its connection reads, and is told of the error. -/
def failingRun : List (SubscriptionEvent Unit) :=
  [.looksUp true, .starts [] [] .null GraphSubscriptionWebSocketHandler.zeroUuid (some ()) false, .fails 0 []]

theorem none_lost_failingRun : ∃ s, Transition.run (step default) initial failingRun = some s ∧ s.Safe := by
  have inTime : Transition.Meets InTime (step default) initial failingRun := by
    refine ⟨trivial, fun s looked => ⟨fun c chosen k there => ?_, fun t started => ⟨trivial, fun _ _ => trivial⟩⟩⟩
    obtain rfl := Option.some.inj looked
    obtain rfl := Option.some.inj chosen
    obtain rfl := Option.some.inj there
    exact ⟨Nat.one_ne_zero, List.not_mem_nil⟩
  exact ⟨_, rfl, none_lost inTime failingRun (List.prefix_refl _) _ rfl⟩

/-- A subscription that starts after the reads of its connection have ended is never told. -/
theorem subscription_lost :
    ¬∀ (platform : Platform) (events : List (SubscriptionEvent Unit)) (s : SubscriptionClient Unit),
    Transition.run (step platform) initial events = some s → s.Safe := by
  intro safe
  have ended :=
    safe default [.looksUp true, .fails 0 [], .starts [] [] .null ⟨List.replicate 16 0, rfl⟩ (some ())
      false] _ rfl _
    (List.mem_singleton.mpr rfl) rfl
  obtain ⟨message, delivered⟩ := ended.2 (Uuid.toText ⟨List.replicate 16 0, rfl⟩) () rfl
  exact absurd delivered List.not_mem_nil

end SubscriptionClient

end MujinClient
