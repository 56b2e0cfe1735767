import MujinClient.SubscriptionStream

/-! Messages go to the callbacks of their subscriptions. A router that looks at whole strings says
what is to be delivered. -/
namespace MujinClient

/-- What a message has to have to be delivered. -/
structure SubscriptionMessage where
  type : Text
  id : Text
  errors : Json
  data : Json

def subscriptionMessage? (message : Text) : Option SubscriptionMessage :=
  match parseMessage message with
  | .ok (.object members) =>
    match Json.findMember members (lit "type"), Json.findMember members (lit "id") with
    | some (.string type), some (.string id) =>
      (payload? members).map fun contents => ⟨type, id, contents.1, contents.2⟩
    | _, _ => none
  | _ => none

def StreamEvent.starts {Callback : Type} : StreamEvent Callback → Text → Prop
  | .startSubscription _ _ _ subscriptionId _ _, id => subscriptionId.toText = id
  | _, _ => False

def ignoredTypes : List Text := [lit "pong", lit "ka"]

/-- What the subscriptions of a connection are for. -/
structure SubscriptionRouter (Callback : Type) where
  /-- The callback of a subscription that was started and not stopped. -/
  registered : Text → Option Callback
  incoming : List Text
  delivered : List (Delivery Callback)

namespace SubscriptionRouter

variable {Callback : Type}

def idle : SubscriptionRouter Callback := ⟨fun _ => none, [], []⟩

/-- A message is for the callback of exactly its id. -/
def route (r : SubscriptionRouter Callback) (message : Text) : Option (Delivery Callback) :=
  match subscriptionMessage? message with
  | some m =>
    if m.type ∈ ignoredTypes then none
    else (r.registered m.id).map fun callback => ⟨m.id, callback, m.errors, m.data⟩
  | none => none

def follow (r : SubscriptionRouter Callback) : StreamEvent Callback → SubscriptionRouter Callback
  | .startSubscription _ _ _ subscriptionId onReadHandler _ =>
    { r with registered := Function.update r.registered subscriptionId.toText onReadHandler }
  | .stopSubscription subscriptionId _ => { r with registered := Function.update r.registered subscriptionId none }
  | .arrives message => { r with incoming := r.incoming ++ [message] }
  | .reads =>
    match r.incoming with
    | message :: incoming => { r with incoming, delivered := r.delivered ++ (r.route message).toList }
    | [] => r
  | .fails _ => r

end SubscriptionRouter

namespace GraphSubscriptionWebSocketHandler

variable {Callback : Type}

def registered (s : GraphSubscriptionWebSocketHandler Callback) (id : Text) : Option Callback :=
  (s.onReadHandlers.find? id).join

/-- The connection has done what the router says, and waits for the next message. -/
structure Routes (s : GraphSubscriptionWebSocketHandler Callback) (r : SubscriptionRouter Callback) : Prop where
  delivered : s.delivered = r.delivered
  registered : ∀ id, s.registered id = r.registered id
  incoming : s.incoming = r.incoming
  reads : s.reads = 1

/-- The stream reports no error, and a zero byte in the type or the id of the next message does not
decide where it goes. -/
def Undisturbed (s : GraphSubscriptionWebSocketHandler Callback) : StreamEvent Callback → Prop
  | .reads => ∀ message ∈ s.incoming.head?, ∀ m ∈ subscriptionMessage? message,
    if cString m.type ∈ ignoredTypes then m.type ∈ ignoredTypes ∨ s.registered m.id = none
    else NulFree m.id ∨ s.registered (cString m.id) = none
  | .fails _ => False
  | _ => True

def routed (s : GraphSubscriptionWebSocketHandler Callback) (message : Text) : Option (Delivery Callback) :=
  match subscriptionMessage? message with
  | some m =>
    if cString m.type ∈ ignoredTypes then none
    else (s.registered (cString m.id)).map fun callback => ⟨cString m.id, callback, m.errors, m.data⟩
  | none => none

section

variable {s : GraphSubscriptionWebSocketHandler Callback} {r : SubscriptionRouter Callback}

/-- Every way out starts one read and calls at most one callback. -/
theorem onMessage_eq (message : Text) : s.onMessage message =
    readFromSubscriptionStream { s with delivered := s.delivered ++ (s.routed message).toList } := by
  unfold onMessage routed subscriptionMessage?
  cases parseMessage message with
  | error e => simp
  | ok rResult =>
    cases rResult with
    | object members =>
      dsimp only
      generalize Json.findMember members (lit "type") = type, Json.findMember members (lit "id") = id,
        payload? members = payload
      cases type with
      | none => simp
      | some type =>
        cases type with
        | string type =>
          have ignored : (cString type = lit "pong" ∨ cString type = lit "ka") ↔
              cString type ∈ ignoredTypes := by simp [ignoredTypes]
          simp only [ignored]
          cases id with
          | none => simp
          | some id =>
            cases id with
            | string id =>
              unfold registered
              by_cases ping : cString type ∈ ignoredTypes
              · cases payload <;> simp [ping]
              · rcases found : s.onReadHandlers.find? (cString id) with _ | _ | callback <;>
                  cases payload <;> simp [ping, found, deliver]
            | _ => simp
        | _ => simp
    | _ => simp

theorem nulFree_of_registered {id : Text} (found : s.registered id = some callback) : NulFree id := by
  exact s.generated _ (mem_of_findEntry (Option.join_eq_some_iff.mp found))

theorem ignored_cString {type : Text} (ignored : type ∈ ignoredTypes) : cString type ∈ ignoredTypes := by
  have itself : ∀ type ∈ ignoredTypes, cString type = type := by decide
  rwa [itself type ignored]

/-- A connection and its router agree on a message exactly if no zero byte decides where it goes. -/
theorem routed_iff (registered : ∀ id, s.registered id = r.registered id) (message : Text) :
    s.routed message = r.route message ↔
    ∀ m ∈ subscriptionMessage? message, if cString m.type ∈ ignoredTypes then m.type ∈ ignoredTypes ∨
      s.registered m.id = none
      else NulFree m.id ∨ s.registered (cString m.id) = none := by
  unfold routed SubscriptionRouter.route
  cases subscriptionMessage? message with
  | none => simp
  | some m =>
    simp only [Option.mem_some_iff, forall_eq', ← registered]
    by_cases cut : cString m.type ∈ ignoredTypes
    · by_cases whole : m.type ∈ ignoredTypes
      · simp [cut, whole]
      · simp [cut, whole, eq_comm]
    · have whole : m.type ∉ ignoredTypes := fun ignored => cut (ignored_cString ignored)
      simp only [if_neg cut, if_neg whole]
      constructor
      · intro same
        cases found : s.registered (cString m.id) with
        | none => exact .inr rfl
        | some callback =>
          rw [found] at same
          obtain ⟨other, -, delivery⟩ := Option.map_eq_some_iff.mp same.symm
          have cut : m.id = cString m.id := congrArg Delivery.subscriptionId delivery
          exact .inl ((cString_eq_self_iff m.id).mp cut.symm)
      · rintro (nulFree | none)
        · rw [cString_of_nulFree m.id nulFree]
        · -- An id that is registered has no zero byte, so it would be the one that is not.
          cases found : s.registered m.id with
          | none => simp [none]
          | some callback =>
            rw [cString_of_nulFree m.id (nulFree_of_registered found), found] at none
            nomatch none

theorem sendMessage_frame : (s.sendMessage message writes).onReadHandlers = s.onReadHandlers ∧
    (s.sendMessage message writes).incoming = s.incoming ∧ (s.sendMessage message writes).reads = s.reads ∧
    (s.sendMessage message writes).delivered = s.delivered := by
  cases writes <;> exact ⟨rfl, rfl, rfl, rfl⟩

theorem registered_startSubscription (id : Text) :
    (s.startSubscription platform operationName query rVariables subscriptionId onReadHandler
      writes).registered id =
      if id = subscriptionId.toText then onReadHandler else s.registered id := by
  unfold registered startSubscription
  rw [sendMessage_frame.1, UnorderedMap.find?_insert]
  split <;> rfl

theorem registered_stopSubscription (id : Text) :
    (s.stopSubscription subscriptionId writes).registered id = if id = subscriptionId then none else
      s.registered id := by
  unfold registered stopSubscription
  cases found : s.onReadHandlers.find? subscriptionId with
  | none =>
    by_cases same : id = subscriptionId
    · simp [same, found]
    · simp [same]
  | some stored =>
    dsimp only
    rw [sendMessage_frame.1, UnorderedMap.find?_erase]
    split <;> rfl

theorem stopSubscription_frame : (s.stopSubscription subscriptionId writes).incoming = s.incoming ∧
    (s.stopSubscription subscriptionId writes).reads = s.reads ∧
    (s.stopSubscription subscriptionId writes).delivered = s.delivered := by
  unfold stopSubscription
  split
  · exact ⟨rfl, rfl, rfl⟩
  · exact sendMessage_frame.2

end

variable {platform : Platform} {s : GraphSubscriptionWebSocketHandler Callback} {r : SubscriptionRouter Callback}

/-- A step keeps a connection with its router exactly if nothing disturbs it. -/
theorem routes_step (routes : s.Routes r) (event : StreamEvent Callback) :
    s.Undisturbed event ↔ ∀ next, s.step platform event = some next → next.Routes (r.follow event) := by
  obtain ⟨delivered, registered, incoming, reads⟩ := routes
  cases event with
  | startSubscription operationName query rVariables subscriptionId onReadHandler writes =>
    refine iff_of_true trivial fun next taken => ?_
    obtain rfl := Option.some.inj taken
    obtain ⟨-, sameIncoming, sameReads, sameDelivered⟩ := sendMessage_frame
    refine ⟨sameDelivered.trans delivered, fun id => ?_, sameIncoming.trans incoming, sameReads.trans reads⟩
    rw [registered_startSubscription, registered]
    simp [SubscriptionRouter.follow, Function.update_apply]
  | stopSubscription subscriptionId writes =>
    refine iff_of_true trivial fun next taken => ?_
    obtain rfl := Option.some.inj taken
    obtain ⟨sameIncoming, sameReads, sameDelivered⟩ := stopSubscription_frame
    refine ⟨sameDelivered.trans delivered, fun id => ?_, sameIncoming.trans incoming, sameReads.trans reads⟩
    rw [registered_stopSubscription, registered]
    simp [SubscriptionRouter.follow, Function.update_apply]
  | arrives message =>
    refine iff_of_true trivial fun next taken => ?_
    obtain rfl := Option.some.inj taken
    exact ⟨delivered, registered, congrArg (· ++ [message]) incoming, reads⟩
  | reads =>
    cases waiting : s.incoming with
    | nil => simp [step, Undisturbed, waiting]
    | cons message rest =>
      have taken : s.step platform .reads = some (onMessage { s with reads := 0, incoming := rest } message) := by
        simp [step, reads, waiting]
      have follows : r.follow .reads =
          { r with incoming := rest, delivered := r.delivered ++ (r.route message).toList } := by
        simp [SubscriptionRouter.follow, ← incoming, waiting]
      have undisturbed : s.Undisturbed .reads ↔ s.routed message = r.route message := by
        simp only [Undisturbed, waiting, List.head?_cons, Option.mem_some_iff, forall_eq', routed_iff registered]
      rw [undisturbed, taken, follows, onMessage_eq]
      constructor
      · intro same next done
        obtain rfl := Option.some.inj done
        refine ⟨?_, registered, rfl, rfl⟩
        show s.delivered ++ (s.routed message).toList = r.delivered ++ (r.route message).toList
        rw [delivered, same]
      · intro kept
        have appended : s.delivered ++ (s.routed message).toList = r.delivered ++
            (r.route message).toList := (kept _ rfl).delivered
        rw [delivered] at appended
        simpa using congrArg List.head? (List.append_cancel_left appended)
  | fails message =>
    refine iff_of_false id fun kept => ?_
    have taken : s.step platform (.fails message) = some (onError { s with reads := 0 } message) := by
      simp [step, reads]
    have waits : 0 = 1 := (kept _ taken).reads
    omega

theorem registered_onMessage (message id : Text) : (s.onMessage message).registered id = s.registered id := by
  rw [onMessage_eq]
  rfl

theorem delivered_onMessage (message : Text) :
    (s.onMessage message).delivered = s.delivered ++ (s.routed message).toList := by
  rw [onMessage_eq]
  rfl

/-- Only a registered id is routed to. -/
theorem registered_of_routed {message : Text} {d : Delivery Callback} (sent : s.routed message = some d) :
    s.registered d.subscriptionId = some d.callback := by
  unfold routed at sent
  split at sent
  · split at sent
    · nomatch sent
    · obtain ⟨callback, found, rfl⟩ := Option.map_eq_some_iff.mp sent
      exact found
  · nomatch sent

/-- An id without a callback gets none, and no message, while it is not started. -/
theorem unregistered_step {next : GraphSubscriptionWebSocketHandler Callback} {event : StreamEvent Callback}
    {id : Text} (unregistered : s.registered id = none) (unstarted : ¬event.starts id)
    (taken : s.step platform event = some next) :
    next.registered id = none ∧ ∃ later, next.delivered = s.delivered ++ later ∧
      ∀ d ∈ later, d.subscriptionId ≠ id := by
  cases event with
  | startSubscription operationName query rVariables subscriptionId onReadHandler writes =>
    obtain rfl := Option.some.inj taken
    obtain ⟨-, -, -, delivered⟩ := sendMessage_frame
    have other : id ≠ subscriptionId.toText := fun same => unstarted same.symm
    exact ⟨by rw [registered_startSubscription, if_neg other, unregistered], [],
      by rw [List.append_nil]; exact delivered, by simp⟩
  | stopSubscription subscriptionId writes =>
    obtain rfl := Option.some.inj taken
    refine ⟨?_, [], by rw [List.append_nil]; exact stopSubscription_frame.2.2, by simp⟩
    rw [registered_stopSubscription]
    split
    · rfl
    · exact unregistered
  | arrives message =>
    obtain rfl := Option.some.inj taken
    exact ⟨unregistered, [], (List.append_nil _).symm, by simp⟩
  | reads =>
    simp only [step] at taken
    split at taken
    · obtain rfl := Option.some.inj taken
      refine ⟨(registered_onMessage _ _).trans unregistered, _, delivered_onMessage _, fun d sent same => ?_⟩
      have found := registered_of_routed (Option.mem_toList.mp sent)
      rw [same] at found
      nomatch found.symm.trans unregistered
    · nomatch taken
  | fails message =>
    simp only [step] at taken
    split at taken
    · obtain rfl := Option.some.inj taken
      refine ⟨unregistered, _, rfl, fun d sent same => ?_⟩
      obtain ⟨⟨key, callback⟩, stored, called⟩ := List.mem_filterMap.mp sent
      obtain ⟨callback, rfl, rfl⟩ := Option.map_eq_some_iff.mp called
      have found : s.registered key = some callback := by simp [registered, UnorderedMap.find?_of_mem _ stored]
      rw [show key = id from same] at found
      nomatch found.symm.trans unregistered
    · nomatch taken

theorem unregistered_run {final : GraphSubscriptionWebSocketHandler Callback}
    {events : List (StreamEvent Callback)} {id : Text}
    (unregistered : s.registered id = none) (unstarted : ∀ event ∈ events, ¬event.starts id)
    (ran : Transition.run (step platform) s events = some final) :
    ∃ later, final.delivered = s.delivered ++ later ∧ ∀ d ∈ later, d.subscriptionId ≠ id := by
  induction events generalizing s with
  | nil => exact ⟨[], by simp [← Option.some.inj ran], by simp⟩
  | cons event rest ih =>
    obtain ⟨next, taken, ran⟩ := Option.bind_eq_some_iff.mp ran
    obtain ⟨first, unstarted⟩ := List.forall_mem_cons.mp unstarted
    obtain ⟨unregistered, later, delivered, others⟩ := unregistered_step unregistered first taken
    obtain ⟨more, last, rest⟩ := ih unregistered unstarted ran
    refine ⟨later ++ more, by rw [last, delivered, List.append_assoc], fun d member => ?_⟩
    exact (List.mem_append.mp member).elim (others d) (rest d)

theorem undisturbed_iff (platform : Platform) (events : List (StreamEvent Callback)) :
    Transition.Meets Undisturbed (step platform) connected events ↔ ∀ before, before <+: events → ∀ s,
      Transition.run (step platform) connected before = some s →
        s.Routes (before.foldl SubscriptionRouter.follow .idle) :=
  Transition.meets_iff_simulates SubscriptionRouter.follow Routes
    (fun _ _ event routes => routes_step routes event) .idle
    ⟨rfl, fun _ => rfl, rfl, rfl⟩

/-- In every state on the way the connection has delivered what its router says and waits for one
message, exactly if nothing disturbs it. In any case, a subscription that was stopped gets no message. -/
theorem routes_iff (platform : Platform) (events : List (StreamEvent Callback)) :
    (Transition.Meets Undisturbed (step platform) connected events ↔ ∀ before, before <+: events → ∀ s,
      Transition.run (step platform) connected before = some s →
        s.Routes (before.foldl SubscriptionRouter.follow .idle)) ∧
    ∀ before id writes after s t, events = before ++ .stopSubscription id writes :: after →
      (∀ event ∈ after, ¬event.starts id) →
      Transition.run (step platform) connected (before ++ [.stopSubscription id writes]) = some s →
      Transition.run (step platform) s after = some t →
      ∃ later, t.delivered = s.delivered ++ later ∧ ∀ d ∈ later, d.subscriptionId ≠ id := by
  refine ⟨undisturbed_iff platform events, fun before id writes after s t split unstarted stopped ran => ?_⟩
  rw [Transition.run_append, Option.bind_eq_some_iff] at stopped
  obtain ⟨middle, -, stopped⟩ := stopped
  obtain rfl : middle.stopSubscription id writes = s := Option.some.inj stopped
  exact unregistered_run (by rw [registered_stopSubscription, if_pos rfl]) unstarted ran

/-- A message whose id goes on after the id of a subscription and a zero byte. -/
def strayMessage (subscriptionId : Text) : Json :=
  .object [(lit "type", .string (lit "data")), (lit "id", .string (subscriptionId ++ [0])),
    (lit "payload", .object [(lit "data", .object [])])]

def zeroUuid : Uuid := ⟨List.replicate 16 0, rfl⟩

theorem parseMessage_stray :
    parseMessage (dumpJson default (strayMessage zeroUuid.toText)) =
      .ok (strayMessage zeroUuid.toText) := by
  have nulFree : NulFree (dumpJson default (strayMessage zeroUuid.toText)) := by decide +kernel
  have printable : Printable default (strayMessage zeroUuid.toText) := by
    simp [strayMessage, Printable, PrintableMembers]
  have nonempty : dumpJson default (strayMessage zeroUuid.toText) ≠ [] := by simp [strayMessage, dumpJson]
  rw [parseMessage, if_pos nonempty, parseJsonStream, cString_of_nulFree _ nulFree,
    readJson_dumpJson clientToken_reader default _ printable]

theorem subscriptionMessage_stray : subscriptionMessage? (dumpJson default (strayMessage zeroUuid.toText)) =
    some ⟨lit "data", zeroUuid.toText ++ [0], .null, .object []⟩ := by
  rw [subscriptionMessage?, parseMessage_stray]
  rfl

/-- The message of another id is delivered to a subscription. -/
theorem reads_stray :
    ¬∀ (platform : Platform) (events : List (StreamEvent Unit)), (∀ message, .fails message ∉ events) →
    ∀ before, before <+: events → ∀ s, Transition.run (step platform) connected before = some s →
      s.Routes (before.foldl SubscriptionRouter.follow .idle) := by
  intro routes
  have undisturbed := (undisturbed_iff default [.startSubscription [] [] .null zeroUuid (some ()) true,
    .arrives (dumpJson default (strayMessage zeroUuid.toText)), .reads]).mpr (routes default _ (by simp))
  have next := ((undisturbed.2 _ rfl).2 _ rfl).1 _ rfl _ subscriptionMessage_stray
  have cut : cString (zeroUuid.toText ++ [0]) = zeroUuid.toText := by decide
  have known : lit "data" ∉ ignoredTypes := by decide
  rw [cString_of_nulFree (lit "data") (by decide), if_neg known, cut] at next
  rcases next with nulFree | unregistered
  · exact nulFree (by simp)
  · have started := (registered_startSubscription zeroUuid.toText).symm.trans unregistered
    rw [if_pos rfl] at started
    nomatch started

end GraphSubscriptionWebSocketHandler
end MujinClient
