import MujinClient.ClientRequests
import MujinClient.Maps
import MujinClient.Transition

/-! The websocket connection of subscriptions: its callbacks, and what a read makes of a message.
Every function holds the mutex of the connection. -/
namespace MujinClient

/-- A `boost::uuids::uuid`. -/
structure Uuid where
  data : List Byte
  size : data.length = 16

namespace Uuid

def hexDigit (d : Nat) : Byte := Fin.ofNat 256 (if d < 10 then 48 + d else 87 + d)

/-- `to_string`. -/
def toText (u : Uuid) : Text :=
  u.data.zipIdx.flatMap fun entry =>
    hexDigit (entry.1.val / 16) :: hexDigit (entry.1.val % 16) :: if entry.2 ∈ [3, 5, 7, 9] then [byte '-'] else []

theorem toText_nulFree (u : Uuid) : NulFree u.toText := by
  have digits : ∀ d < 16, 0 ≠ hexDigit d := by decide
  intro member
  obtain ⟨⟨b, i⟩, -, member⟩ := List.mem_flatMap.mp member
  rcases List.mem_cons.mp member with high | member
  · exact digits (b.val / 16) (by omega) high
  rcases List.mem_cons.mp member with low | member
  · exact digits (b.val % 16) (by omega) low
  split at member
  · exact absurd (List.mem_singleton.mp member) (by decide)
  · nomatch member

end Uuid

structure Delivery (Callback : Type) where
  subscriptionId : Text
  callback : Callback
  errors : Json
  data : Json

structure GraphSubscriptionWebSocketHandler (Callback : Type) where
  /-- An empty `std::function` is `none`. -/
  onReadHandlers : UnorderedMap Text (Option Callback)
  /-- All keys are generated ones. -/
  generated : ∀ entry ∈ onReadHandlers.entries, NulFree entry.1
  /-- The messages that no read has taken, in the order of their arrival. -/
  incoming : List Text
  /-- The asynchronous reads under way. -/
  reads : Nat
  delivered : List (Delivery Callback)
  sent : List Text

inductive StreamEvent (Callback : Type) where
  /-- `writes` is false where the message cannot be sent. -/
  | startSubscription (operationName query : Text) (rVariables : Json) (subscriptionId : Uuid)
    (onReadHandler : Option Callback) (writes : Bool)
  | stopSubscription (subscriptionId : Text) (writes : Bool)
  | arrives (message : Text)
  /-- A read completes with the next message. -/
  | reads
  /-- A read completes with an error, which has this text. -/
  | fails (message : Text)

/-- What a message has for a callback: an array of errors, or else a data object. -/
def payload? (rResult : Json.Members) : Option (Json × Json) :=
  match Json.findMember rResult (lit "payload") with
  | some (.object rPayload) =>
    match Json.findMember rPayload (lit "errors") with
    | some (.array errors) => some (.array errors, .null)
    | _ =>
      match Json.findMember rPayload (lit "data") with
      | some (.object data) => some (.null, .object data)
      | _ => none
  | _ => none

/-- Nothing is parsed where nothing was received. -/
def parseMessage (message : Text) : Except Thrown Json :=
  if message ≠ [] then parseJsonStream message else .ok .null

def constructErrorsFromErrorCode (message : Text) : Json :=
  .array [.object [(lit "message", .string (cString message))]]

namespace GraphSubscriptionWebSocketHandler

variable {Callback : Type} (platform : Platform)

/-- After the constructor, which starts the first read. -/
def connected : GraphSubscriptionWebSocketHandler Callback := ⟨.empty, by simp, [], 1, [], []⟩

def sendMessage (s : GraphSubscriptionWebSocketHandler Callback) (message : Text) (writes : Bool) :
    GraphSubscriptionWebSocketHandler Callback :=
  if writes then { s with sent := s.sent ++ [message] } else s

def subscriptionMessage (operationName query : Text) (rVariables : Json) (subscriptionId : Text) : Text :=
  cString (writeJson platform (.object [
    (lit "type", .string (lit "start")),
    (lit "payload", .object [(lit "operationName", .string (cString operationName)),
      (lit "query", .string (cString query)),
      (lit "variables", rVariables)]),
    (lit "id", .string (cString subscriptionId))])).1

def completeMessage (subscriptionId : Text) : Text :=
  lit "\x7b\"id\":\"" ++ subscriptionId ++ lit "\",\"type\":\"stop\"\x7d"

theorem generated_insert (s : GraphSubscriptionWebSocketHandler Callback) (subscriptionId : Uuid)
    (onReadHandler : Option Callback) :
    ∀ entry ∈ (s.onReadHandlers.insert subscriptionId.toText onReadHandler).entries, NulFree entry.1 := by
  intro entry member
  rcases UnorderedMap.mem_insertEntry member with rfl | old
  · exact subscriptionId.toText_nulFree
  · exact s.generated entry old

/-- The callback is there before the message is sent, and stays when that fails. -/
def startSubscription (s : GraphSubscriptionWebSocketHandler Callback) (operationName query : Text)
    (rVariables : Json) (subscriptionId : Uuid)
    (onReadHandler : Option Callback) (writes : Bool) : GraphSubscriptionWebSocketHandler Callback :=
  sendMessage
    { s with
      onReadHandlers := s.onReadHandlers.insert subscriptionId.toText onReadHandler
      generated := s.generated_insert subscriptionId onReadHandler }
    (subscriptionMessage platform operationName query rVariables subscriptionId.toText) writes

def stopSubscription (s : GraphSubscriptionWebSocketHandler Callback) (subscriptionId : Text) (writes : Bool) :
    GraphSubscriptionWebSocketHandler Callback :=
  match s.onReadHandlers.find? subscriptionId with
  | none => s
  | some _ =>
    sendMessage
      { s with
        onReadHandlers := s.onReadHandlers.erase subscriptionId
        generated := fun entry member => s.generated entry (List.mem_of_mem_filter member) }
      (completeMessage subscriptionId) writes

/-- `_ReadFromSubscriptionStream` starts one read. -/
def readFromSubscriptionStream (s : GraphSubscriptionWebSocketHandler Callback) :
    GraphSubscriptionWebSocketHandler Callback :=
  { s with reads := s.reads + 1 }

/-- What a callback throws is caught. -/
def deliver (s : GraphSubscriptionWebSocketHandler Callback) (d : Delivery Callback) :
    GraphSubscriptionWebSocketHandler Callback :=
  { s with delivered := s.delivered ++ [d] }

/-- The end of a read that got a message. Every way out starts the next read. -/
def onMessage (s : GraphSubscriptionWebSocketHandler Callback) (message : Text) :
    GraphSubscriptionWebSocketHandler Callback :=
  match parseMessage message with
  | .ok (.object rResult) =>
    match Json.findMember rResult (lit "type") with
    | some (.string type) =>
      let messageType := cString type
      if messageType = lit "pong" ∨ messageType = lit "ka" then s.readFromSubscriptionStream
      else
        match Json.findMember rResult (lit "id") with
        | some (.string id) =>
          let subscriptionId := cString id
          match s.onReadHandlers.find? subscriptionId with
          | some (some callback) =>
            match payload? rResult with
            | some (errors, data) =>
              (s.deliver ⟨subscriptionId, callback, errors, data⟩).readFromSubscriptionStream
            | none => s.readFromSubscriptionStream
          | _ => s.readFromSubscriptionStream
        | _ => s.readFromSubscriptionStream
    | _ => s.readFromSubscriptionStream
  | _ => s.readFromSubscriptionStream

/-- The end of a read with an error. There is no further read. -/
def onError (s : GraphSubscriptionWebSocketHandler Callback) (message : Text) :
    GraphSubscriptionWebSocketHandler Callback :=
  { s with
    delivered := s.delivered ++ s.onReadHandlers.entries.filterMap fun entry =>
      entry.2.map fun callback => ⟨entry.1, callback, constructErrorsFromErrorCode message, .null⟩ }

def step (s : GraphSubscriptionWebSocketHandler Callback) :
    StreamEvent Callback → Option (GraphSubscriptionWebSocketHandler Callback)
  | .startSubscription operationName query rVariables subscriptionId onReadHandler writes =>
    some (s.startSubscription platform operationName query rVariables subscriptionId onReadHandler writes)
  | .stopSubscription subscriptionId writes => some (s.stopSubscription subscriptionId writes)
  | .arrives message => some { s with incoming := s.incoming ++ [message] }
  | .reads =>
    match s.reads, s.incoming with
    | reads + 1, message :: incoming => some (onMessage { s with reads, incoming } message)
    | _, _ => none
  | .fails message =>
    match s.reads with
    | reads + 1 => some (onError { s with reads } message)
    | 0 => none

end GraphSubscriptionWebSocketHandler
end MujinClient
