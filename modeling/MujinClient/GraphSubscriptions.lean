import MujinClient.CurlHandle
import MujinClient.Machine
import MujinClient.Transition

/-! Where the requests and the subscriptions of a client go: the options of its handle, its info,
and the websocket connections of its subscriptions. -/
namespace MujinClient

structure ControllerClientInfo where
  host : Text
  httpPort : IntFormat.Value ⟨16, false⟩
  username : Text
  password : Text
  additionalHeaders : List Text
  unixEndpoint : Text
  userAgent : Text

/-- A `GraphSubscriptionWebSocketHandler`, with the info that it was created with. -/
structure Connection where
  clientInfo : ControllerClientInfo
  isStreamOpen : Bool

/-- A setopt that fails may have released the value before. -/
inductive SetoptResult where
  | succeeds
  | fails (released : Bool)
  deriving DecidableEq

structure GraphClient where
  handle : CurlHandle
  clientInfo : ControllerClientInfo
  /-- In the order of their creation. -/
  connections : List Connection
  /-- The weak pointer to a connection. -/
  graphSubscriptionWebSocketHandler : Option Nat
  /-- The connections that the handlers of subscriptions keep, one for each handler. -/
  subscriptions : List Nat

namespace GraphClient

/-- What the constructor leaves. `clientInfo` is what it finds in the URL. -/
def constructed (clientInfo : ControllerClientInfo) (proxyserverport proxyuserpw useragent : Text) :
    GraphClient where
  handle := CurlHandle.constructed fun
    | .proxy => if proxyserverport ≠ [] then .text (cString proxyserverport) else .null
    | .proxyUserPwd => if proxyserverport ≠ [] then .text (cString proxyuserpw) else .null
    | .userAgent => .text (cString useragent)
    | _ => .null
  clientInfo := { clientInfo with additionalHeaders := [], unixEndpoint := [], userAgent := [] }
  connections := []
  graphSubscriptionWebSocketHandler := none
  subscriptions := []

def setopts (results : CurlOption → SetoptResult) :
    CurlHandle → List (CurlOption × OptionValue) → CurlHandle × Bool
  | h, [] => (h, true)
  | h, (o, v) :: rest =>
    match results o with
    | .succeeds => setopts results (h.setopt o v) rest
    | .fails released => (if released then h.setopt o .null else h, false)

def lock (s : GraphClient) : Option Nat := s.graphSubscriptionWebSocketHandler.filter (· ∈ s.subscriptions)

def isStreamOpen (s : GraphClient) (c : Nat) : Bool := s.connections[c]?.any (·.isStreamOpen)

def close (s : GraphClient) (c : Nat) : GraphClient :=
  { s with connections := s.connections.modify c fun connection => { connection with isStreamOpen := false } }

/-- A pointer to the connection goes away; the last one destroys it. -/
def release (s : GraphClient) (c : Nat) : GraphClient := if c ∈ s.subscriptions then s else s.close c

/-- A callback that throws leaves `StopAllSubscriptions`, after the stream was closed. -/
def stopSubscriptions (s : GraphClient) (callbackThrows : Bool) : GraphClient :=
  match s.lock with
  | none => s
  | some c =>
    if s.isStreamOpen c then
      let s := s.close c
      if callbackThrows then s else { s with graphSubscriptionWebSocketHandler := none }
    else s

def configure (s : GraphClient) (options : List (CurlOption × OptionValue)) (unixEndpoint : Text)
    (results : CurlOption → SetoptResult) (callbackThrows : Bool) : GraphClient :=
  match setopts results s.handle options with
  | (handle, false) => { s with handle }
  | (handle, true) =>
    ({ s with handle, clientInfo := { s.clientInfo with unixEndpoint } } : GraphClient).stopSubscriptions
      callbackThrows

def setProxy (s : GraphClient) (serverport userpw : Text) : (CurlOption → SetoptResult) → Bool → GraphClient :=
  s.configure [(.unixSocketPath, .null), (.proxy, .text (cString serverport)),
    (.proxyUserPwd, .text (cString userpw))] []

def setUnixEndpoint (s : GraphClient) (unixendpoint : Text) : (CurlOption → SetoptResult) → Bool → GraphClient :=
  s.configure [(.proxy, .null), (.proxyUserPwd, .null), (.unixSocketPath, .text (cString unixendpoint))]
    unixendpoint

/-- The connection that the next subscription runs on: the one there is, or a new one. -/
def connectionFor (s : GraphClient) (connects : Bool) : Option (Nat × GraphClient) :=
  match s.lock.filter s.isStreamOpen with
  | some c => some (c, s)
  | none =>
    if connects then some (s.connections.length,
      { s with connections := s.connections ++ [⟨s.clientInfo, true⟩] }) else none

/-- How a call of `ExecuteGraphSubscription` goes: a new connection may fail, the stream may be lost
before `StartSubscription`, and that may throw. -/
structure Execution where
  connects : Bool
  lost : Bool
  starts : Bool

def executeGraphSubscription (s : GraphClient) (execution : Execution) : GraphClient :=
  match s.connectionFor execution.connects with
  | none => s
  | some (c, s) =>
    let s := if execution.lost then s.close c else s
    if execution.starts then
      { s with graphSubscriptionWebSocketHandler := some c, subscriptions := s.subscriptions ++ [c] }
    else s.release c

end GraphClient

inductive EndpointEvent where
  | setProxy (serverport userpw : Text) (results : CurlOption → SetoptResult) (callbackThrows : Bool)
  | setUnixEndpoint (unixendpoint : Text) (results : CurlOption → SetoptResult) (callbackThrows : Bool)
  | executeGraphSubscription (execution : GraphClient.Execution)
  /-- The owner destroys the handler of a subscription. -/
  | destroys (subscription : Nat)
  | loses (c : Nat)

namespace GraphClient

def step (s : GraphClient) : EndpointEvent → Option GraphClient
  | .setProxy serverport userpw results callbackThrows =>
    some (s.setProxy serverport userpw results callbackThrows)
  | .setUnixEndpoint unixendpoint results callbackThrows =>
    some (s.setUnixEndpoint unixendpoint results callbackThrows)
  | .executeGraphSubscription execution => some (s.executeGraphSubscription execution)
  | .destroys subscription =>
    s.subscriptions[subscription]?.map fun c =>
      release { s with subscriptions := s.subscriptions.eraseIdx subscription } c
  | .loses c => if c < s.connections.length then some (s.close c) else none

end GraphClient
end MujinClient
