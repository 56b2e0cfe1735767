import MujinClient.SubscriptionLoss

/-! What a subscription leaves behind when a step of it throws, and whom the end of a connection
reaches when the callbacks throw. -/
namespace MujinClient

open Loading

variable {Callback : Type}

/-- What the steps of a start come to. An error is the text of the exception. -/
structure StartOutcomes where
  randomGenerator : Except Text Uuid
  /-- Building the message and making room for the callback. -/
  building : Except Text Unit
  /-- Copying the `std::function`. -/
  copying : Except Text Unit
  /-- The write, which is made on an open stream only. -/
  writing : Except Text Unit

namespace GraphSubscriptionWebSocketHandler

variable {s : GraphSubscriptionWebSocketHandler Callback}

def register (s : GraphSubscriptionWebSocketHandler Callback) (subscriptionId : Uuid)
    (onReadHandler : Option Callback) :
    GraphSubscriptionWebSocketHandler Callback :=
  { s with
    onReadHandlers := s.onReadHandlers.insert subscriptionId.toText onReadHandler
    generated := s.generated_insert subscriptionId onReadHandler }

def subscript (s : GraphSubscriptionWebSocketHandler Callback) (subscriptionId : Uuid) :
    GraphSubscriptionWebSocketHandler Callback :=
  match s.onReadHandlers.find? subscriptionId.toText with
  | some _ => s
  | none => s.register subscriptionId none

-- `throws` says which callbacks throw a `std::exception`, and its text.
def invoke (throws : Text → Callback → Option Text) (subscriptionId : Text) (callback : Callback)
    (message : Text) :
    Loading Text (GraphSubscriptionWebSocketHandler Callback) Unit := do
  update (·.deliver ⟨subscriptionId, callback, constructErrorsFromErrorCode message, .null⟩)
  match throws subscriptionId callback with
  | some what => throw what
  | none => pure ()

/-- `try` with a handler that only logs. -/
def logged (p : Loading ε σ Unit) : Loading ε σ Unit := fun s => (.ok (), (p s).2)

def invokeLogged (throws : Text → Callback → Option Text) (message : Text) : List (Text × Option Callback) →
    Loading Text (GraphSubscriptionWebSocketHandler Callback) Unit
  | [] => pure ()
  | (subscriptionId, some callback) :: rest => do
    logged (invoke throws subscriptionId callback message)
    invokeLogged throws message rest
  | (_, none) :: rest => invokeLogged throws message rest

/-- The loop of `StopAllSubscriptions`. -/
def invokeAll (throws : Text → Callback → Option Text) (message : Text) : List (Text × Option Callback) →
    Loading Text (GraphSubscriptionWebSocketHandler Callback) Unit
  | [] => pure ()
  | (subscriptionId, some callback) :: rest => do
    invoke throws subscriptionId callback message
    invokeAll throws message rest
  | (_, none) :: rest => invokeAll throws message rest

/-- The error path of `_ReadFromSubscriptionStream`. -/
def onErrorCode (throws : Text → Callback → Option Text) (message : Text) :
    Loading Text (GraphSubscriptionWebSocketHandler Callback) Unit :=
  fun s => invokeLogged throws message s.onReadHandlers.entries s

/-- The calls of `StopAllSubscriptions`. -/
def onClosed (throws : Text → Callback → Option Text) (message : Text) :
    Loading Text (GraphSubscriptionWebSocketHandler Callback) Unit :=
  fun s => invokeAll throws message s.onReadHandlers.entries s

end GraphSubscriptionWebSocketHandler

namespace SubscriptionConnection

def sendMessage (message : Text) (writing : Except Text Unit) :
    Loading Text (SubscriptionConnection Callback) Unit := fun k =>
  if k.isStreamOpen then (writing, { k with handler := k.handler.sendMessage message writing.toBool })
  else (.ok (), k)

def startSubscription (platform : Platform) (operationName query : Text) (rVariables : Json)
    (onReadHandler : Option Callback)
    (o : StartOutcomes) : Loading Text (SubscriptionConnection Callback) Text := do
  let subscriptionId ← lift o.randomGenerator
  lift o.building
  -- save the callback function
  update fun k => { k with handler := k.handler.subscript subscriptionId }
  lift o.copying
  update fun k => { k with handler := k.handler.register subscriptionId onReadHandler }
  -- start subscription
  sendMessage (GraphSubscriptionWebSocketHandler.subscriptionMessage platform operationName query rVariables
    subscriptionId.toText) o.writing
  pure subscriptionId.toText

/-- The stream is closed, then the callbacks are called with the text of `error::closed`. -/
def stopAllSubscriptions (throws : Text → Callback → Option Text) (message : Text) :
    Loading Text (SubscriptionConnection Callback) Unit := do
  update fun k => { k with isStreamOpen := false }
  zoom (·.handler) (fun handler k => { k with handler })
    (GraphSubscriptionWebSocketHandler.onClosed throws message)

/-- A call that throws leaves the callbacks as they were, and one that returns an id has added that
new one with the callback. -/
def Atomic (k : SubscriptionConnection Callback) (onReadHandler : Option Callback)
    (ended : Except Text Text × SubscriptionConnection Callback) : Prop :=
  match ended.1 with
  | .error _ => ended.2.handler.onReadHandlers = k.handler.onReadHandlers
  | .ok id =>
    k.handler.onReadHandlers.find? id = none ∧
      ended.2.handler.onReadHandlers = k.handler.onReadHandlers.insert id onReadHandler

theorem insert_insert (m : UnorderedMap Text α) (key : Text) (x y : α) :
    (m.insert key x).insert key y = m.insert key y := by
  have each (entries : List (Text × α)) : UnorderedMap.insertEntry key y (UnorderedMap.insertEntry key x entries) =
      UnorderedMap.insertEntry key y entries := by
    induction entries with
    | nil => simp [UnorderedMap.insertEntry]
    | cons head rest ih =>
      by_cases same : head.1 = key
      · simp [UnorderedMap.insertEntry, same]
      · simp [UnorderedMap.insertEntry, same, ih]
  exact UnorderedMap.ext_entries (each m.entries)

theorem insert_ne {m : UnorderedMap Text α} (absent : m.find? key = none) (x : α) : m.insert key x ≠ m := by
  intro same
  have found : (m.insert key x).find? key = some x := (UnorderedMap.find?_insert m key x).trans (if_pos rfl)
  rw [same, absent] at found
  nomatch found

variable {platform : Platform} {k : SubscriptionConnection Callback} {operationName query : Text}
    {rVariables : Json} {onReadHandler : Option Callback} {o : StartOutcomes}

theorem onReadHandlers_register (s : GraphSubscriptionWebSocketHandler Callback) (subscriptionId : Uuid)
    (onReadHandler : Option Callback) :
    ((s.subscript subscriptionId).register subscriptionId onReadHandler).onReadHandlers =
      s.onReadHandlers.insert subscriptionId.toText onReadHandler := by
  unfold GraphSubscriptionWebSocketHandler.subscript
  split
  · rfl
  · exact insert_insert ..

theorem startSubscription_written (platform : Platform) (k : SubscriptionConnection Callback)
    (operationName query : Text)
    (rVariables : Json) (onReadHandler : Option Callback) {o : StartOutcomes}
    (made : o.randomGenerator = .ok subscriptionId) (built : o.building = .ok ())
    (copied : o.copying = .ok ()) :
    (startSubscription platform operationName query rVariables onReadHandler o k).1 =
        (if k.isStreamOpen then o.writing else .ok ()).map (fun _ => subscriptionId.toText) ∧
      (startSubscription platform operationName query rVariables onReadHandler o k).2.handler.onReadHandlers =
        k.handler.onReadHandlers.insert subscriptionId.toText onReadHandler := by
  unfold startSubscription
  rw [made, built, copied]
  simp only [lift_ok_bind]
  rw [bind_ok (update_apply ..), bind_ok (update_apply ..)]
  have registered := onReadHandlers_register k.handler subscriptionId onReadHandler
  cases opened : k.isStreamOpen with
  | false => simp [sendMessage, bind_apply, registered, Except.map]
  | true =>
    cases written : o.writing with
    | error e =>
      simp [sendMessage, bind_apply, Except.map, GraphSubscriptionWebSocketHandler.sendMessage_frame, registered]
    | ok _ =>
      simp [sendMessage, bind_apply, Except.map, GraphSubscriptionWebSocketHandler.sendMessage_frame, registered]

theorem startSubscription_not_copied (made : o.randomGenerator = .ok subscriptionId) (built : o.building = .ok ())
    (copied : o.copying = .error e) (new : k.handler.onReadHandlers.find? subscriptionId.toText = none) :
    startSubscription platform operationName query rVariables onReadHandler o k =
      (.error e, { k with handler := k.handler.register subscriptionId none }) := by
  unfold startSubscription
  rw [made, built, copied]
  simp only [lift_ok_bind]
  rw [bind_ok (update_apply ..), GraphSubscriptionWebSocketHandler.subscript, new]
  rfl

/-- A start is atomic exactly if it fails before the callback is there, or copies the callback and is
not stopped by a write: the callback is registered first, and nothing takes it back. -/
theorem startSubscription_atomic_iff (platform : Platform) (k : SubscriptionConnection Callback)
    (operationName query : Text)
    (rVariables : Json) (onReadHandler : Option Callback) (o : StartOutcomes)
    (new : ∀ id, o.randomGenerator = .ok id → k.handler.onReadHandlers.find? id.toText = none) :
    Atomic k onReadHandler (startSubscription platform operationName query rVariables onReadHandler o k) ↔
      (∃ e, o.randomGenerator = .error e) ∨ (∃ e, o.building = .error e) ∨
        o.copying = .ok () ∧ (k.isStreamOpen = true → o.writing = .ok ()) := by
  cases made : o.randomGenerator with
  | error e =>
    have ended : startSubscription platform operationName query rVariables onReadHandler o k = (.error e, k) := by
      rw [startSubscription, made]
      rfl
    simp [ended, Atomic]
  | ok id =>
    cases built : o.building with
    | error e =>
      have ended : startSubscription platform operationName query rVariables onReadHandler o k =
          (.error e, k) := by
        rw [startSubscription, made, built]
        rfl
      simp [ended, Atomic]
    | ok _ =>
      have absent := new id made
      cases copied : o.copying with
      | error e =>
        rw [startSubscription_not_copied made built copied absent]
        have changed := insert_ne absent (none : Option Callback)
        simp [Atomic, GraphSubscriptionWebSocketHandler.register, changed]
      | ok _ =>
        obtain ⟨ended, callbacks⟩ :=
          startSubscription_written platform k operationName query rVariables onReadHandler made built
            copied
        have changed := insert_ne absent onReadHandler
        rw [Atomic, ended, callbacks]
        cases opened : k.isStreamOpen with
        | false => simp [Except.map, absent]
        | true => cases written : o.writing <;> simp [Except.map, absent, changed]

theorem startSubscription_atomic_iff_connected :
    Atomic (.connected : SubscriptionConnection Nat) (some 0)
        (startSubscription default (lit "watch") (lit "subscription") .null (some 0)
          ⟨.ok ⟨List.replicate 16 7, rfl⟩, .ok (), .ok (), .ok ()⟩ .connected) ↔
      (∃ e, (.ok ⟨List.replicate 16 7, rfl⟩ : Except Text Uuid) = .error e) ∨
        (∃ e, (.ok () : Except Text Unit) = .error e) ∨
        (.ok () : Except Text Unit) = .ok () ∧
          ((.connected : SubscriptionConnection Nat).isStreamOpen = true → (.ok () : Except Text Unit) = .ok ()) :=
  startSubscription_atomic_iff default .connected (lit "watch") (lit "subscription") .null (some 0)
    ⟨.ok ⟨List.replicate 16 7, rfl⟩, .ok (), .ok (), .ok ()⟩ fun _ _ => rfl

/-- The write fails, and the callback stays. -/
theorem callback_left_behind :
    ¬∀ (platform : Platform) (k : SubscriptionConnection Nat)
      (operationName query : Text) (rVariables : Json)
    (onReadHandler : Option Nat) (o : StartOutcomes),
    (∀ id, o.randomGenerator = .ok id → k.handler.onReadHandlers.find? id.toText = none) →
      Atomic k onReadHandler (startSubscription platform operationName query rVariables onReadHandler o k) := by
  intro each
  have left := each default .connected (lit "watch") (lit "subscription") .null (some 0)
    ⟨.ok ⟨List.replicate 16 7, rfl⟩, .ok (), .ok (), .error (lit "Broken pipe")⟩ fun _ _ => rfl
  obtain ⟨ended, callbacks⟩ :=
    startSubscription_written default .connected (lit "watch") (lit "subscription") .null (some 0)
    (o := ⟨.ok ⟨List.replicate 16 7, rfl⟩, .ok (), .ok (), .error (lit "Broken pipe")⟩) rfl rfl rfl
  have thrown : (startSubscription default (lit "watch") (lit "subscription") .null (some 0)
      ⟨.ok ⟨List.replicate 16 7, rfl⟩, .ok (), .ok (), .error (lit "Broken pipe")⟩ .connected).1 =
        .error (lit "Broken pipe") := ended
  rw [Atomic, thrown, callbacks] at left
  exact insert_ne rfl (some 0) left

/-- Where only the write can fail, the call is the start that the client makes. -/
theorem start_of_startSubscription (made : o.randomGenerator = .ok subscriptionId) (built : o.building = .ok ())
    (copied : o.copying = .ok ()) :
    (startSubscription platform operationName query rVariables onReadHandler o k).2.handler.onReadHandlers =
      (k.start platform operationName query rVariables subscriptionId onReadHandler
        (!o.writing.toBool)).handler.onReadHandlers := by
  rw [(startSubscription_written platform k operationName query rVariables onReadHandler made built copied).2]
  unfold start GraphSubscriptionWebSocketHandler.startSubscription
  rw [GraphSubscriptionWebSocketHandler.sendMessage_frame.1]

end SubscriptionConnection

namespace GraphSubscriptionWebSocketHandler

def notifications (message : Text) (entries : List (Text × Option Callback)) : List (Delivery Callback) :=
  entries.filterMap fun entry => entry.2.map fun callback =>
    ⟨entry.1, callback, constructErrorsFromErrorCode message, .null⟩

/-- The notifier has returned, and has called every callback that is not empty once and nothing else. -/
structure Notifies (s : GraphSubscriptionWebSocketHandler Callback) (outcome : Except Text Unit)
    (final : GraphSubscriptionWebSocketHandler Callback) : Prop where
  returns : outcome = .ok ()
  calls : ∃ calls, final.delivered = s.delivered ++ calls ∧
    (∀ d ∈ calls, s.registered d.subscriptionId = some d.callback) ∧
    ∀ id callback, s.registered id = some callback → (calls.map (·.subscriptionId)).count id = 1

variable {s : GraphSubscriptionWebSocketHandler Callback} {throws : Text → Callback → Option Text}

theorem listed_iff {id : Text} {callback : Callback} :
    (id, some callback) ∈ s.onReadHandlers.entries ↔ s.registered id = some callback := by
  constructor
  · intro inside
    rw [registered, s.onReadHandlers.find?_of_mem inside]
    rfl
  · intro found
    exact mem_of_findEntry (Option.join_eq_some_iff.mp found)

theorem mem_notifications_iff {d : Delivery Callback} : d ∈ notifications message entries ↔
    (d.subscriptionId, some d.callback) ∈ entries ∧ d.errors = constructErrorsFromErrorCode message ∧
      d.data = .null := by
  unfold notifications
  constructor
  · intro inside
    obtain ⟨⟨id, stored⟩, listed, called⟩ := List.mem_filterMap.mp inside
    obtain ⟨callback, rfl, rfl⟩ := Option.map_eq_some_iff.mp called
    exact ⟨listed, rfl, rfl⟩
  · rintro ⟨listed, errors, data⟩
    refine List.mem_filterMap.mpr ⟨_, listed, ?_⟩
    rw [← errors, ← data]
    rfl

theorem ids_notifications (message : Text) (entries : List (Text × Option Callback)) :
    ((notifications message entries).map (·.subscriptionId)).Sublist (entries.map Prod.fst) := by
  induction entries with
  | nil => exact .slnil
  | cons entry rest ih =>
    obtain ⟨id, stored⟩ := entry
    cases stored with
    | none => exact ih.cons id
    | some callback => exact ih.cons_cons id

theorem notifies_of_delivered (message : Text) {final : GraphSubscriptionWebSocketHandler Callback}
    (delivered : final.delivered = s.delivered ++ notifications message s.onReadHandlers.entries) :
    Notifies s (.ok ()) final := by
  refine ⟨rfl, _, delivered, fun d inside => listed_iff.mp (mem_notifications_iff.mp inside).1,
    fun id callback found => ?_⟩
  have inside := mem_notifications_iff (d := ⟨id, callback, constructErrorsFromErrorCode message, .null⟩).mpr
    ⟨listed_iff.mpr found, rfl, rfl⟩
  exact List.count_eq_one_of_mem (s.onReadHandlers.distinct.sublist (ids_notifications ..))
    (List.mem_map_of_mem inside)

theorem invokeLogged_eq (message : Text) (entries : List (Text × Option Callback)) :
    invokeLogged throws message entries s =
      (.ok (), { s with delivered := s.delivered ++ notifications message entries }) := by
  induction entries generalizing s with
  | nil => simp [invokeLogged, notifications]
  | cons entry rest ih =>
    obtain ⟨id, stored⟩ := entry
    cases stored with
    | none => exact ih
    | some callback =>
      have step : logged (invoke throws id callback message) s =
          (.ok (), s.deliver ⟨id, callback, constructErrorsFromErrorCode message, .null⟩) := by
        unfold logged invoke
        rw [bind_ok (update_apply ..)]
        cases throws id callback <;> rfl
      refine (bind_ok step).trans (ih.trans ?_)
      simp [deliver, notifications]

/-- The error path of a read is what the connection does of it. -/
theorem onErrorCode_eq (message : Text) : onErrorCode throws message s = (.ok (), s.onError message) :=
  invokeLogged_eq message s.onReadHandlers.entries

theorem invokeAll_eq (message : Text) {entries : List (Text × Option Callback)}
    (quiet : ∀ id callback, (id, some callback) ∈ entries → throws id callback = none) :
    invokeAll throws message entries s =
      (.ok (), { s with delivered := s.delivered ++ notifications message entries }) := by
  induction entries generalizing s with
  | nil => simp [invokeAll, notifications]
  | cons entry rest ih =>
    obtain ⟨id, stored⟩ := entry
    have later := ih (s := s) fun id callback inside => quiet id callback (List.mem_cons_of_mem _ inside)
    cases stored with
    | none => exact later
    | some callback =>
      have step : invoke throws id callback message s =
          (.ok (), s.deliver ⟨id, callback, constructErrorsFromErrorCode message, .null⟩) := by
        unfold invoke
        rw [bind_ok (update_apply ..), quiet id callback List.mem_cons_self]
        rfl
      refine (bind_ok step).trans
        ((ih fun id callback inside => quiet id callback (List.mem_cons_of_mem _ inside)).trans ?_)
      simp [deliver, notifications]

theorem quiet_of_returned {entries : List (Text × Option Callback)}
    (returned : (invokeAll throws message entries s).1 = .ok ()) :
    ∀ id callback, (id, some callback) ∈ entries → throws id callback = none := by
  induction entries generalizing s with
  | nil => simp
  | cons entry rest ih =>
    obtain ⟨id, stored⟩ := entry
    intro other callback inside
    cases stored with
    | none => exact ih returned other callback ((List.mem_cons.mp inside).resolve_left (by simp))
    | some first =>
      cases thrown : throws id first with
      | none =>
        have step : invoke throws id first message s =
            (.ok (), s.deliver ⟨id, first, constructErrorsFromErrorCode message, .null⟩) := by
          unfold invoke
          rw [bind_ok (update_apply ..), thrown]
          rfl
        rw [invokeAll, bind_ok step] at returned
        rcases List.mem_cons.mp inside with same | later
        · obtain ⟨rfl, called⟩ := Prod.mk.inj same
          rw [Option.some.inj called]
          exact thrown
        · exact ih returned other callback later
      | some what =>
        have step : invoke throws id first message s =
            (.error what, s.deliver ⟨id, first, constructErrorsFromErrorCode message, .null⟩) := by
          unfold invoke
          rw [bind_ok (update_apply ..), thrown]
          rfl
        rw [invokeAll, bind_error step] at returned
        nomatch returned

end GraphSubscriptionWebSocketHandler

namespace SubscriptionConnection

open GraphSubscriptionWebSocketHandler

/-- Both notifiers reach everyone exactly if no callback throws. The loop of `StopAllSubscriptions`
does not catch what the loop of a failed read catches. -/
theorem notifies_iff (k : SubscriptionConnection Callback) (throws : Text → Callback → Option Text)
    (message closed : Text) :
    (Notifies k.handler (onErrorCode throws message k.handler).1 (onErrorCode throws message k.handler).2 ∧
        Notifies k.handler (stopAllSubscriptions throws closed k).1
          (stopAllSubscriptions throws closed k).2.handler) ↔
      ∀ id callback, k.handler.registered id = some callback → throws id callback = none := by
  have read : Notifies k.handler (onErrorCode throws message k.handler).1
      (onErrorCode throws message k.handler).2 := by
    rw [onErrorCode_eq]
    exact notifies_of_delivered message rfl
  rw [and_iff_right read]
  constructor
  · intro stopped id callback found
    have returned : (invokeAll throws closed k.handler.onReadHandlers.entries k.handler).1 = .ok () :=
      stopped.returns
    exact quiet_of_returned returned id callback (listed_iff.mpr found)
  · intro quiet
    have ended : onClosed throws closed k.handler = _ :=
      invokeAll_eq closed fun id callback inside => quiet id callback (listed_iff.mp inside)
    have same : stopAllSubscriptions throws closed k = (.ok (), { k with
        handler := { k.handler with
          delivered := k.handler.delivered ++ notifications closed k.handler.onReadHandlers.entries }
        isStreamOpen := false }) := by
      rw [stopAllSubscriptions, bind_ok (update_apply ..), zoom_apply, ended]
    rw [same]
    exact notifies_of_delivered closed rfl

def twoCallbacks : SubscriptionConnection Nat :=
  { (.connected : SubscriptionConnection Nat) with
    handler := ((.connected : GraphSubscriptionWebSocketHandler Nat).register ⟨List.replicate 16 1, rfl⟩
      (some 1)).register
      ⟨List.replicate 16 2, rfl⟩ (some 2) }

def firstThrows (_ : Text) (callback : Nat) : Option Text := if callback = 1 then some (lit "failed") else none

theorem second_not_notified :
    ¬∀ (k : SubscriptionConnection Nat) (throws : Text → Nat → Option Text) (message closed : Text),
    Notifies k.handler (onErrorCode throws message k.handler).1 (onErrorCode throws message k.handler).2 ∧
      Notifies k.handler (stopAllSubscriptions throws closed k).1
        (stopAllSubscriptions throws closed k).2.handler := by
  intro each
  have returned := (each twoCallbacks firstThrows (lit "closed") (lit "closed")).2.returns
  have thrown : (stopAllSubscriptions firstThrows (lit "closed") twoCallbacks).1 = .error (lit "failed") := rfl
  rw [thrown] at returned
  nomatch returned

end SubscriptionConnection
end MujinClient
