import MujinClient.Machine
import MujinClient.StreamOutput
import MujinClient.Transition

/-! `ZmqClient::Call` over a REQ socket, one event at a time: clock readings, the
outcomes of send, poll and recv, the preempt callback, and the peer's answers. -/
namespace MujinClient.Zmq

/-- A reply, with the number of the Call whose request it answers. -/
structure Reply where
  request : Nat
  body : Text
  deriving DecidableEq

/-- A REQ socket. `senders` lists the Calls whose request was sent on it. -/
structure Socket where
  pending : Option Nat
  reply : Option Reply
  senders : List Nat
  deriving DecidableEq

def Socket.fresh : Socket := ⟨none, none, []⟩

/-- The only reply a REQ socket lets in is the one to its outstanding request. -/
def Socket.deliver (s : Socket) (r : Reply) : Socket :=
  if s.pending = some r.request ∧ s.reply = none then { s with reply := some r } else s

/-- Where a Call stands: before a clock reading, a socket operation or the callback. -/
inductive Point where
  | starting
  | sendTest | sending | sendPreempt
  | sentTest
  | receiveTest | receivePreempt | polling | receiving
  | finalTest
  deriving DecidableEq

/-- The local variables of a running Call. `delivered` records that its send succeeded. -/
structure Frame where
  msg : Text
  timeout : Double
  start : Nat
  point : Point
  recreatedonce : Bool
  receivedonce : Bool
  delivered : Bool
  deriving DecidableEq

def Frame.limit (f : Frame) : Double := Double.mul f.timeout (Double.ofInt 1000)

def Frame.elapsed (f : Frame) (t : Nat) : Double := Double.ofInt (t - f.start : Nat)

/-- `GetMilliTime() - starttime < timeout*1000.0`. -/
def Frame.within (f : Frame) (t : Nat) : Bool := Double.lt (f.elapsed t) f.limit

/-- `GetMilliTime() - starttime > timeout*1000.0`. -/
def Frame.past (f : Frame) (t : Nat) : Bool := Double.lt f.limit (f.elapsed t)

inductive CallError where
  | mujin (e : MujinException)
  | preempted
  deriving DecidableEq

structure Wait where
  call : Nat
  senders : List Nat
  deriving DecidableEq

/-- A normal return: the string, and the reply it was taken from if one was received. -/
structure Return where
  call : Nat
  text : Text
  reply : Option Reply
  deriving DecidableEq

/-- The client, numbered Calls and what they did so far. -/
structure Client where
  preemptfn : Bool
  socket : Socket
  now : Nat
  calls : Nat
  running : Option Frame
  sent : List Nat
  waits : List Wait
  returned : List Return
  thrown : List (Nat × CallError)
  deriving DecidableEq

def Client.start (preemptfn : Bool) : Client := ⟨preemptfn, .fresh, 0, 0, none, [], [], [], []⟩

inductive SendOutcome where
  /-- `send` returned true. -/
  | sent
  /-- `send` returned false: the wrapper reports EAGAIN this way and throws any other error. -/
  | again
  | failed
  deriving DecidableEq

inductive PollOutcome where
  | event | noEvent
  /-- `poll` threw EAGAIN. -/
  | again
  | failed
  deriving DecidableEq

inductive RecvOutcome where
  | received
  /-- `recv` returned false and left the message empty. -/
  | again
  | failed
  deriving DecidableEq

inductive Event where
  | call (msg : Text) (timeout : Double)
  | clock (t : Nat)
  | send (outcome : SendOutcome)
  | preempt (throws : Bool)
  | poll (outcome : PollOutcome)
  | recv (outcome : RecvOutcome)
  | answer (r : Reply)
  deriving DecidableEq

namespace Client

def resume (c : Client) (f : Frame) : Client := { c with running := some f }

def throws (c : Client) (e : CallError) : Client :=
  { c with running := none, thrown := c.thrown ++ [(c.calls, e)] }

def returns (c : Client) (text : Text) (reply : Option Reply) : Client :=
  { c with running := none, returned := c.returned ++ [⟨c.calls, text, reply⟩] }

def failure (text : String) (code : ErrorCode) : CallError :=
  .mujin (MujinException.mk (lit text) code)

/-- The end of the send loop's body. -/
def loopSend (c : Client) (f : Frame) : Frame :=
  { f with point := if c.preemptfn then .sendPreempt else .sendTest }

/-- The start of the receive loop's body. -/
def enterReceive (c : Client) (f : Frame) : Frame :=
  { f with point := if c.preemptfn then .receivePreempt else .polling }

/-- The receive loop's condition reads the clock only after a poll has returned. -/
def loopReceive (c : Client) (f : Frame) : Frame :=
  if f.receivedonce then { f with point := .receiveTest } else c.enterReceive f

def onClock (c : Client) (f : Frame) (t : Nat) : Option Client :=
  match f.point with
  | .starting => some (c.resume { f with start := t, point := .sendTest })
  | .sendTest => some (c.resume { f with point := if f.within t then .sending else .sentTest })
  | .sentTest =>
    if f.past t then some (c.throws (failure "Timed out trying to send request." .timeout))
    else some (c.resume (c.loopReceive { f with recreatedonce := false, receivedonce := false }))
  | .receiveTest =>
    some (c.resume (if f.within t then c.enterReceive f else { f with point := .finalTest }))
  | .finalTest =>
    if f.past t then some (c.throws (failure "timed out trying to receive request" .failed))
    else some (c.returns [] none)
  | _ => none

/-- A request is outstanding: sending raises EFSM. The call does not look at what `send` returned. -/
def onSend (c : Client) (f : Frame) : SendOutcome → Option Client
  | .sent =>
    if c.socket.pending ≠ none then none
    else some { c.resume { f with point := .sentTest, delivered := true } with
      socket := ⟨some c.calls, none, c.socket.senders ++ [c.calls]⟩
      sent := c.sent ++ [c.calls] }
  | .again =>
    if c.socket.pending ≠ none then none else some (c.resume { f with point := .sentTest })
  | .failed =>
    if f.recreatedonce then
      some (c.throws (failure "Failed to send request after re-creating socket." .failed))
    else some ({ c with socket := .fresh }.resume (c.loopSend { f with recreatedonce := true }))

def onPreempt (c : Client) (f : Frame) (throws : Bool) : Option Client :=
  if f.point = .sendPreempt then
    some (if throws then c.throws .preempted else c.resume { f with point := .sendTest })
  else if f.point = .receivePreempt then
    some (if throws then c.throws .preempted else c.resume { f with point := .polling })
  else none

/-- The message without the quotes and backslashes a JSON parser would stumble over. -/
def timedOutReceiving (f : Frame) : CallError :=
  let msg := if 1000 < f.msg.length then f.msg.take 1000 ++ lit "..." else f.msg
  let text := lit "Timed out receiving response of command " ++ msg ++ lit " after " ++
    printDouble 6 f.timeout ++ lit " seconds"
  .mujin (MujinException.mk (text.filter fun b => b ≠ byte '"' && b ≠ byte '\\') .timeout)

/-- The receive loop's handler for errors other than EAGAIN. -/
def receiveFailed (c : Client) (f : Frame) : Client :=
  if f.recreatedonce then
    c.throws (failure "Failed to receive response after re-creating socket." .failed)
  else { c with socket := .fresh }.resume (c.loopReceive { f with recreatedonce := true })

/-- Without a positive timeout the poll waits until something happens. -/
def onPoll (c : Client) (f : Frame) (outcome : PollOutcome) : Option Client :=
  let c := { c with waits := c.waits ++ [Wait.mk c.calls c.socket.senders] }
  match outcome with
  | .event => some (c.resume { f with receivedonce := true, point := .receiving })
  | .noEvent =>
    if Double.lt Double.zero f.timeout then some (c.throws (timedOutReceiving f)) else none
  | .again => some (c.resume (c.loopReceive f))
  | .failed => some (c.receiveFailed f)

/-- Without an outstanding request receiving raises EFSM. -/
def onRecv (c : Client) (f : Frame) : RecvOutcome → Option Client
  | .received =>
    match c.socket.reply with
    | some r => some ({ c with socket := ⟨none, none, c.socket.senders⟩ }.returns r.body (some r))
    | none => none
  | .again => if c.socket.pending = none then none else some (c.returns [] none)
  | .failed => some (c.receiveFailed f)

end Client

def step (c : Client) : Event → Option Client
  | .call msg timeout =>
    if c.running ≠ none then none
    else some { c with
      calls := c.calls + 1
      running := some ⟨msg, timeout, 0, .starting, false, false, false⟩ }
  | .answer r => if r.request ∈ c.sent then some { c with socket := c.socket.deliver r } else none
  | .clock t =>
    if t < c.now then none else c.running.bind fun f => { c with now := t }.onClock f t
  | .send outcome => c.running.bind fun f => if f.point = .sending then c.onSend f outcome else none
  | .preempt throws => c.running.bind fun f => c.onPreempt f throws
  | .poll outcome =>
    c.running.bind fun f => if f.point = .polling then c.onPoll f outcome else none
  | .recv outcome => c.running.bind fun f => if f.point = .receiving then c.onRecv f outcome else none

/-- Every wait for a reply was on a socket that carries the Call's own request, and every
returned string is the reply to the Call's request. -/
structure Sound (c : Client) : Prop where
  waited : ∀ w ∈ c.waits, w.call ∈ w.senders
  answered : ∀ r ∈ c.returned, ∃ reply, r.reply = some reply ∧ reply.request = r.call ∧ r.text = reply.body

/-- The steps that cannot mix up Calls. After the send loop, the request has been sent or the
timeout has passed; no poll follows a re-creation of the socket in the receive loop; recv
does not report EAGAIN; and the last check is not made at the very limit. -/
def Orderly (c : Client) (e : Event) : Prop :=
  match c.running, e with
  | some f, .clock t =>
    (f.point = .sentTest → f.delivered = true ∨ f.past t = true) ∧
      (f.point = .finalTest → f.past t = true)
  | some f, .poll _ => f.recreatedonce = false
  | some _, .recv outcome => outcome ≠ .again
  | _, _ => True

instance (c : Client) (e : Event) : Decidable (Orderly c e) := by
  unfold Orderly
  split <;> infer_instance

variable {c d next : Client} {f : Frame}

/-- The Call's request is the outstanding one. -/
def Outstanding (c : Client) : Prop :=
  c.socket.pending = some c.calls ∧ c.calls ∈ c.socket.senders

/-- What is known at each point of a running Call. -/
def AtPoint (c : Client) (f : Frame) : Prop :=
  match f.point with
  | .starting | .sendTest | .sending | .sendPreempt => f.delivered = false
  | .sentTest => f.delivered = true → Outstanding c
  | .receiving => f.recreatedonce = false ∧ Outstanding c
  | .receiveTest | .receivePreempt | .polling => f.recreatedonce = false → Outstanding c
  | .finalTest => True

structure Inv (c : Client) : Prop where
  sound : Sound c
  /-- A reply in the socket answers its outstanding request. -/
  replied : ∀ r, c.socket.reply = some r → c.socket.pending = some r.request
  running : ∀ f, c.running = some f → AtPoint c f

theorem inv_start (preemptfn : Bool) : Inv (Client.start preemptfn) :=
  ⟨⟨by simp [Client.start], by simp [Client.start]⟩, by simp [Client.start, Socket.fresh],
    by simp [Client.start]⟩

theorem Inv.resume (inv : Inv c) (point : AtPoint c f) : Inv (c.resume f) :=
  ⟨⟨inv.sound.waited, inv.sound.answered⟩, inv.replied, fun g same => by
    obtain rfl := Option.some.inj same
    exact point⟩

theorem Inv.throws (inv : Inv c) (e : CallError) : Inv (c.throws e) :=
  ⟨⟨inv.sound.waited, inv.sound.answered⟩, inv.replied, fun _ same => by contradiction⟩

theorem Inv.returns (inv : Inv c) (reply : Reply) (own : reply.request = c.calls) :
    Inv (c.returns reply.body (some reply)) := by
  refine ⟨⟨inv.sound.waited, fun r member => ?_⟩, inv.replied, fun _ same => by contradiction⟩
  rcases List.mem_append.mp member with old | new
  · exact inv.sound.answered r old
  · rw [List.mem_singleton.mp new]
    exact ⟨reply, rfl, own, rfl⟩

theorem atPoint_enterReceive (known : f.recreatedonce = false → Outstanding d) :
    AtPoint d (c.enterReceive f) := by
  unfold Client.enterReceive
  cases c.preemptfn <;> exact known

theorem atPoint_loopReceive (known : f.recreatedonce = false → Outstanding d) :
    AtPoint d (c.loopReceive f) := by
  unfold Client.loopReceive
  cases f.receivedonce
  · exact atPoint_enterReceive known
  · exact known

theorem atPoint_loopSend (unsent : f.delivered = false) : AtPoint d (c.loopSend f) := by
  unfold Client.loopSend
  cases c.preemptfn <;> exact unsent

theorem Inv.recreate (inv : Inv c) (point : AtPoint { c with socket := .fresh } f) :
    Inv ({ c with socket := .fresh }.resume f) :=
  ⟨⟨inv.sound.waited, inv.sound.answered⟩, fun r there => by simp [Client.resume, Socket.fresh] at there,
    fun g same => by
      obtain rfl := Option.some.inj same
      exact point⟩

theorem Inv.receiveFailed (inv : Inv c) (f : Frame) : Inv (c.receiveFailed f) := by
  unfold Client.receiveFailed
  split
  · exact inv.throws _
  · exact inv.recreate (atPoint_loopReceive fun impossible => by simp at impossible)

theorem inv_onClock (inv : Inv c) (point : AtPoint c f)
    (sentTest : f.point = .sentTest → f.delivered = true ∨ f.past t = true)
    (finalTest : f.point = .finalTest → f.past t = true)
    (stepped : c.onClock f t = some next) : Inv next := by
  unfold Client.onClock at stepped
  unfold AtPoint at point
  cases here : f.point <;> simp only [here] at stepped point
  case starting =>
    obtain rfl := Option.some.inj stepped
    exact inv.resume point
  case sendTest =>
    obtain rfl := Option.some.inj stepped
    apply inv.resume
    unfold AtPoint
    cases f.within t
    · exact fun delivered => absurd delivered (by simp [point])
    · exact point
  case sentTest =>
    split at stepped
    · obtain rfl := Option.some.inj stepped
      exact inv.throws _
    · rename_i early
      obtain rfl := Option.some.inj stepped
      have delivered := (sentTest here).resolve_right early
      exact inv.resume (atPoint_loopReceive fun _ => point delivered)
  case receiveTest =>
    obtain rfl := Option.some.inj stepped
    apply inv.resume
    cases f.within t
    · exact trivial
    · exact atPoint_enterReceive point
  case finalTest =>
    rw [if_pos (finalTest here)] at stepped
    obtain rfl := Option.some.inj stepped
    exact inv.throws _
  all_goals contradiction

theorem inv_onSend (inv : Inv c) (point : AtPoint c f) (here : f.point = .sending)
    (stepped : c.onSend f outcome = some next) : Inv next := by
  have unsent : f.delivered = false := by simpa [AtPoint, here] using point
  cases outcome with
  | sent =>
    simp only [Client.onSend] at stepped
    split at stepped
    · contradiction
    · obtain rfl := Option.some.inj stepped
      refine ⟨⟨inv.sound.waited, inv.sound.answered⟩, fun r there => ?_, fun g same => ?_⟩
      · contradiction
      · obtain rfl := Option.some.inj same
        exact fun _ => ⟨rfl, by simp [Client.resume]⟩
  | again =>
    simp only [Client.onSend] at stepped
    split at stepped
    · contradiction
    · obtain rfl := Option.some.inj stepped
      exact inv.resume fun delivered => absurd delivered (by simp [unsent])
  | failed =>
    simp only [Client.onSend] at stepped
    split at stepped
    · obtain rfl := Option.some.inj stepped
      exact inv.throws _
    · obtain rfl := Option.some.inj stepped
      exact inv.recreate (atPoint_loopSend unsent)

theorem inv_onPreempt (inv : Inv c) (point : AtPoint c f)
    (stepped : c.onPreempt f throws = some next) : Inv next := by
  unfold Client.onPreempt at stepped
  unfold AtPoint at point
  split at stepped
  · rename_i here
    simp only [here] at point
    obtain rfl := Option.some.inj stepped
    cases throws
    · exact inv.resume point
    · exact inv.throws _
  · split at stepped
    · rename_i here
      simp only [here] at point
      obtain rfl := Option.some.inj stepped
      cases throws
      · exact inv.resume point
      · exact inv.throws _
    · contradiction

theorem inv_onPoll (inv : Inv c) (point : AtPoint c f) (here : f.point = .polling)
    (once : f.recreatedonce = false) (stepped : c.onPoll f outcome = some next) :
    Inv next := by
  have outstanding : Outstanding c := by
    simp only [AtPoint, here] at point
    exact point once
  have waiting : Inv { c with waits := c.waits ++ [Wait.mk c.calls c.socket.senders] } := by
    refine ⟨⟨fun w member => ?_, inv.sound.answered⟩, inv.replied, inv.running⟩
    rcases List.mem_append.mp member with old | new
    · exact inv.sound.waited w old
    · rw [List.mem_singleton.mp new]
      exact outstanding.2
  unfold Client.onPoll at stepped
  cases outcome with
  | event =>
    obtain rfl := Option.some.inj stepped
    apply waiting.resume
    exact And.intro once outstanding
  | noEvent =>
    simp only at stepped
    split at stepped
    · obtain rfl := Option.some.inj stepped
      exact waiting.throws _
    · contradiction
  | again =>
    obtain rfl := Option.some.inj stepped
    exact waiting.resume (atPoint_loopReceive fun _ => outstanding)
  | failed =>
    obtain rfl := Option.some.inj stepped
    exact waiting.receiveFailed f

theorem inv_onRecv (inv : Inv c) (point : AtPoint c f) (here : f.point = .receiving)
    (clean : outcome ≠ .again) (stepped : c.onRecv f outcome = some next) : Inv next := by
  have outstanding : Outstanding c := by
    simp only [AtPoint, here] at point
    exact point.2
  cases outcome with
  | received =>
    simp only [Client.onRecv] at stepped
    split at stepped
    · rename_i r there
      obtain rfl := Option.some.inj stepped
      have own : r.request = c.calls := by
        have pending := inv.replied r there
        rw [outstanding.1, Option.some.injEq] at pending
        exact pending.symm
      have emptied : Inv { c with socket := ⟨none, none, c.socket.senders⟩, running := none } :=
        ⟨⟨inv.sound.waited, inv.sound.answered⟩, fun _ same => by contradiction,
          fun _ same => by contradiction⟩
      exact emptied.returns r own
    · contradiction
  | again => contradiction
  | failed =>
    obtain rfl := Option.some.inj stepped
    exact inv.receiveFailed f

theorem inv_deliver (inv : Inv c) (r : Reply) : Inv { c with socket := c.socket.deliver r } := by
  have pending : (c.socket.deliver r).pending = c.socket.pending := by
    unfold Socket.deliver
    split <;> rfl
  have senders : (c.socket.deliver r).senders = c.socket.senders := by
    unfold Socket.deliver
    split <;> rfl
  refine ⟨⟨inv.sound.waited, inv.sound.answered⟩, fun q there => ?_, fun f running => ?_⟩
  · unfold Socket.deliver at there ⊢
    split at there
    · rename_i lets
      obtain rfl := Option.some.inj there
      simp [lets]
    · rename_i drops
      rw [if_neg drops]
      exact inv.replied q there
  · have point := inv.running f running
    simpa only [AtPoint, Outstanding, pending, senders] using point

theorem inv_step (inv : Inv c) (orderly : Orderly c e) (stepped : step c e = some next) :
    Inv next := by
  cases e with
  | call msg timeout =>
    simp only [step] at stepped
    split at stepped
    · contradiction
    · obtain rfl := Option.some.inj stepped
      exact ⟨⟨inv.sound.waited, inv.sound.answered⟩, inv.replied, fun f same => by
        obtain rfl := Option.some.inj same
        exact rfl⟩
  | answer r =>
    simp only [step] at stepped
    split at stepped
    · obtain rfl := Option.some.inj stepped
      exact inv_deliver inv r
    · contradiction
  | clock t =>
    simp only [step] at stepped
    split at stepped
    · contradiction
    · obtain ⟨f, running, stepped⟩ := Option.bind_eq_some_iff.mp stepped
      simp only [Orderly, running] at orderly
      have later : Inv { c with now := t } := ⟨⟨inv.sound.waited, inv.sound.answered⟩, inv.replied, inv.running⟩
      exact inv_onClock later (inv.running f running) orderly.1 orderly.2 stepped
  | send outcome =>
    obtain ⟨f, running, stepped⟩ := Option.bind_eq_some_iff.mp stepped
    split at stepped
    · exact inv_onSend inv (inv.running f running) (by assumption) stepped
    · contradiction
  | preempt throws =>
    obtain ⟨f, running, stepped⟩ := Option.bind_eq_some_iff.mp stepped
    exact inv_onPreempt inv (inv.running f running) stepped
  | poll outcome =>
    obtain ⟨f, running, stepped⟩ := Option.bind_eq_some_iff.mp stepped
    simp only [Orderly, running] at orderly
    split at stepped
    · exact inv_onPoll inv (inv.running f running) (by assumption) orderly stepped
    · contradiction
  | recv outcome =>
    obtain ⟨f, running, stepped⟩ := Option.bind_eq_some_iff.mp stepped
    simp only [Orderly, running] at orderly
    split at stepped
    · exact inv_onRecv inv (inv.running f running) (by assumption) orderly stepped
    · contradiction

/-- A run of orderly steps never mixes up Calls. -/
theorem call_sound (preemptfn : Bool) (events : List Event) (final : Client)
    (orderly : Transition.Meets Orderly step (Client.start preemptfn) events)
    (ran : Transition.run step (Client.start preemptfn) events = some final) :
    Sound final :=
  (Transition.run_invariant Inv (fun _ _ _ => inv_step) (inv_start preemptfn) orderly ran).sound

/-- A Call that is answered after an EAGAIN from poll. -/
def answeredCall : List Event :=
  [.call (lit "ping") (Double.ofInt 5), .clock 10, .clock 10, .send .sent, .clock 11,
    .preempt false, .poll .again, .preempt false, .poll .event, .answer ⟨1, lit "pong"⟩, .recv .received]

theorem call_sound_answered :
    ∃ final, Transition.run step (Client.start true) answeredCall = some final ∧
      final.returned = [⟨1, lit "pong", some ⟨1, lit "pong"⟩⟩] ∧ Sound final := by
  obtain ⟨final, ran, returned⟩ : ∃ final,
      Transition.run step (Client.start true) answeredCall = some final ∧
        final.returned = [⟨1, lit "pong", some ⟨1, lit "pong"⟩⟩] :=
    ⟨(Transition.run step (Client.start true) answeredCall).get (by decide +kernel),
      by simp, by decide +kernel⟩
  exact ⟨final, ran, returned, call_sound true answeredCall final (by decide +kernel) ran⟩

/-- Call 1 times out, its reply arrives late, and Call 2 is made with timeout 0. -/
def lateReply : List Event :=
  [.call (lit "first") (Double.ofInt 1), .clock 0, .clock 0, .send .sent, .clock 0, .poll .noEvent,
    .answer ⟨1, lit "late"⟩,
    .call (lit "second") Double.zero, .clock 2000, .clock 2000, .clock 2000, .poll .event, .recv .received]

/-- The second Call sends nothing and returns the reply to the first. -/
theorem lateReply_unsound :
    ¬∀ (preemptfn : Bool) (events : List Event) (final : Client),
      Transition.run step (Client.start preemptfn) events = some final → Sound final := by
  intro sound
  obtain ⟨final, ran, returned⟩ : ∃ final,
      Transition.run step (Client.start false) lateReply = some final ∧
        final.returned = [⟨2, lit "late", some ⟨1, lit "late"⟩⟩] :=
    ⟨(Transition.run step (Client.start false) lateReply).get (by decide +kernel),
      by simp, by decide +kernel⟩
  obtain ⟨reply, taken, own, _⟩ := (sound false lateReply final ran).answered
    ⟨2, lit "late", some ⟨1, lit "late"⟩⟩ (by simp [returned])
  rw [← Option.some.inj taken] at own
  exact absurd own (by decide)

end MujinClient.Zmq
