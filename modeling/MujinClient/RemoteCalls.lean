import MujinClient.ZmqServer

/-! Clients that call one `ZmqServer` loop. The requests and the replies travel on a network that delays,
reorders and loses them, and the clients give up and call again. -/
namespace MujinClient.Zmq

open Transition

/-- The Call has not left its send loop. -/
def Point.early : Point → Bool
  | .starting | .sendTest | .sending | .sendPreempt => true
  | _ => false

/-- The message of a Call that begins. -/
def Event.asks : Event → Option Text
  | .call msg _ => some msg
  | _ => none

namespace Client

def posts (c : Client) : Event → Option Text
  | .send .sent => c.running.map (·.msg)
  | _ => none

/-- The exception of a Call whose request could not be sent. -/
def sendFailure : CallError := failure "Failed to send request after re-creating socket." .failed

/-- The replies that are left: the socket is as before, has given its reply, or is a new one. -/
def HoldsLess (c next : Client) : Prop := ∀ r, next.socket.reply = some r → c.socket.reply = some r

/-- What a step other than the begin of a Call, the sending of a request and the arrival of a reply does:
the Call goes on, returns, or throws. -/
structure Went (c next : Client) (f : Frame) : Prop where
  calls : next.calls = c.calls
  sent : next.sent = c.sent
  holds : c.HoldsLess next
  later : ∀ g, next.running = some g → g.msg = f.msg ∧ (g.point.early = true → f.point.early = true)
  returned : next.returned = c.returned ∨ next.returned = c.returned ++ [⟨c.calls, [], none⟩] ∨
    ∃ r, c.socket.reply = some r ∧ next.returned = c.returned ++ [⟨c.calls, r.body, some r⟩]
  thrown : next.thrown = c.thrown ∨
    ∃ e, next.thrown = c.thrown ++ [(c.calls, e)] ∧ next.running = none ∧ (e = sendFailure → f.point.early = true)

variable {c d next : Client} {f g : Frame}

theorem went_resume (same : d = { c with now := d.now, waits := d.waits, socket := d.socket })
    (holds : c.HoldsLess d)
    (msg : g.msg = f.msg) (early : g.point.early = true → f.point.early = true) : c.Went (d.resume g) f := by
  rw [same]
  refine ⟨rfl, rfl, holds, fun h running => ?_, .inl rfl, .inl rfl⟩
  obtain rfl := Option.some.inj running
  exact ⟨msg, early⟩

theorem went_throws {e : CallError}
    (same : d = { c with now := d.now, waits := d.waits, socket := d.socket }) (holds : c.HoldsLess d)
    (early : e = sendFailure → f.point.early = true) : c.Went (d.throws e) f := by
  rw [same]
  exact ⟨rfl, rfl, holds, fun h running => (Option.some_ne_none h running.symm).elim, .inl rfl,
    .inr ⟨e, rfl, rfl, early⟩⟩

theorem went_returns_nothing (same : d = { c with now := d.now, waits := d.waits, socket := d.socket })
    (holds : c.HoldsLess d) : c.Went (d.returns [] none) f := by
  rw [same]
  exact ⟨rfl, rfl, holds, fun h running => (Option.some_ne_none h running.symm).elim, .inr (.inl rfl), .inl rfl⟩

theorem holdsLess_refl : c.HoldsLess c := fun _ => id

theorem holdsLess_fresh (fresh : d.socket = .fresh) : c.HoldsLess d := by
  intro r held
  rw [fresh] at held
  cases held

theorem early_loopReceive (c : Client) (f : Frame) :
    (c.loopReceive f).msg = f.msg ∧ (c.loopReceive f).point.early = false := by
  unfold loopReceive enterReceive
  cases f.receivedonce <;> cases c.preemptfn <;> exact ⟨rfl, rfl⟩

theorem early_enterReceive (c : Client) (f : Frame) :
    (c.enterReceive f).msg = f.msg ∧ (c.enterReceive f).point.early = false := by
  unfold enterReceive
  cases c.preemptfn <;> exact ⟨rfl, rfl⟩

theorem went_loopReceive {b : Client}
    (same : d = { c with now := d.now, waits := d.waits, socket := d.socket }) (holds : c.HoldsLess d)
    (msg : g.msg = f.msg) : c.Went (d.resume (b.loopReceive g)) f := by
  obtain ⟨text, late⟩ := early_loopReceive b g
  exact went_resume same holds (text.trans msg) fun early => by simp [late] at early

theorem went_onClock (stepped : ({ c with now := t } : Client).onClock f t = some next) : c.Went next f := by
  unfold onClock at stepped
  cases here : f.point <;> simp only [here] at stepped
  case starting | sendTest =>
    obtain rfl := Option.some.inj stepped
    exact went_resume rfl holdsLess_refl rfl fun _ => by rw [here]; rfl
  case sentTest =>
    split at stepped
    · obtain rfl := Option.some.inj stepped
      exact went_throws rfl holdsLess_refl fun same => by cases same
    · obtain rfl := Option.some.inj stepped
      exact went_loopReceive rfl holdsLess_refl rfl
  case receiveTest =>
    obtain rfl := Option.some.inj stepped
    obtain ⟨msg, late⟩ := early_enterReceive { c with now := t } f
    refine went_resume rfl holdsLess_refl ?_ fun early => ?_
    · split
      · exact msg
      · rfl
    · split at early
      · simp [late] at early
      · cases early
  case finalTest =>
    split at stepped
    · obtain rfl := Option.some.inj stepped
      exact went_throws rfl holdsLess_refl fun same => absurd same (by decide)
    · obtain rfl := Option.some.inj stepped
      exact went_returns_nothing rfl holdsLess_refl
  all_goals cases stepped

theorem went_receiveFailed (same : d = { c with now := d.now, waits := d.waits, socket := d.socket })
    (holds : c.HoldsLess d) : c.Went (d.receiveFailed f) f := by
  unfold receiveFailed
  split
  · exact went_throws same holds fun text => absurd text (by decide)
  · exact went_loopReceive (by rw [same]) (holdsLess_fresh rfl) rfl

theorem went_onSend (here : f.point = .sending) (unsent : outcome ≠ .sent)
    (stepped : c.onSend f outcome = some next) : c.Went next f := by
  have early : f.point.early = true := by rw [here]; rfl
  cases outcome with
  | sent => exact absurd rfl unsent
  | again =>
    simp only [onSend] at stepped
    split at stepped
    · cases stepped
    · obtain rfl := Option.some.inj stepped
      exact went_resume rfl holdsLess_refl rfl fun _ => early
  | failed =>
    simp only [onSend] at stepped
    split at stepped
    · obtain rfl := Option.some.inj stepped
      exact went_throws rfl holdsLess_refl fun _ => early
    · obtain rfl := Option.some.inj stepped
      exact went_resume rfl (holdsLess_fresh rfl) rfl fun _ => early

theorem went_onPreempt (stepped : c.onPreempt f raises = some next) : c.Went next f := by
  unfold onPreempt at stepped
  split at stepped
  · rename_i here
    obtain rfl := Option.some.inj stepped
    cases raises
    · exact went_resume rfl holdsLess_refl rfl fun _ => by rw [here]; rfl
    · exact went_throws rfl holdsLess_refl fun same => by cases same
  · split at stepped
    · obtain rfl := Option.some.inj stepped
      cases raises
      · exact went_resume rfl holdsLess_refl rfl fun early => by cases early
      · exact went_throws rfl holdsLess_refl fun same => by cases same
    · cases stepped

theorem went_onPoll (stepped : c.onPoll f outcome = some next) : c.Went next f := by
  unfold onPoll at stepped
  cases outcome with
  | event =>
    obtain rfl := Option.some.inj stepped
    exact went_resume rfl holdsLess_refl rfl fun early => by cases early
  | noEvent =>
    simp only at stepped
    split at stepped
    · obtain rfl := Option.some.inj stepped
      refine went_throws rfl holdsLess_refl fun same => ?_
      have code := congrArg MujinException.code (CallError.mujin.inj same)
      cases code
    · cases stepped
  | again =>
    obtain rfl := Option.some.inj stepped
    exact went_loopReceive rfl holdsLess_refl rfl
  | failed =>
    obtain rfl := Option.some.inj stepped
    exact went_receiveFailed rfl holdsLess_refl

theorem went_onRecv (stepped : c.onRecv f outcome = some next) : c.Went next f := by
  cases outcome with
  | received =>
    simp only [onRecv] at stepped
    split at stepped
    · rename_i r held
      obtain rfl := Option.some.inj stepped
      exact ⟨rfl, rfl, fun q held => (Option.some_ne_none q held.symm).elim, fun g running =>
        (Option.some_ne_none g running.symm).elim,
        .inr (.inr ⟨r, held, rfl⟩), .inl rfl⟩
    · cases stepped
  | again =>
    simp only [onRecv] at stepped
    split at stepped
    · cases stepped
    · obtain rfl := Option.some.inj stepped
      exact went_returns_nothing rfl holdsLess_refl
  | failed =>
    obtain rfl := Option.some.inj stepped
    exact went_receiveFailed rfl holdsLess_refl

/-- Every step is the begin of a Call, the sending of its request, the arrival of a reply, or one of
its other steps. -/
theorem step_went (stepped : step c e = some next) :
    (∃ msg timeout, e = .call msg timeout ∧ c.running = none ∧
      next = { c with calls := c.calls + 1, running := some ⟨msg, timeout, 0, .starting, false, false, false⟩ }) ∨
    (∃ f, e = .send .sent ∧ c.running = some f ∧ f.point = .sending ∧
      next = { c with
        running := some { f with point := .sentTest, delivered := true }
        socket := ⟨some c.calls, none, c.socket.senders ++ [c.calls]⟩
        sent := c.sent ++ [c.calls] }) ∨
    (∃ r, e = .answer r ∧ next = { c with socket := c.socket.deliver r }) ∨
    (e.asks = none ∧ c.posts e = none ∧ ∃ f, c.running = some f ∧ c.Went next f) := by
  cases e with
  | call msg timeout =>
    simp only [step] at stepped
    split at stepped
    · cases stepped
    · rename_i idle
      exact .inl ⟨msg, timeout, rfl, by simpa using idle, (Option.some.inj stepped).symm⟩
  | answer r =>
    simp only [step] at stepped
    split at stepped
    · exact .inr (.inr (.inl ⟨r, rfl, (Option.some.inj stepped).symm⟩))
    · cases stepped
  | clock t =>
    simp only [step] at stepped
    split at stepped
    · cases stepped
    · obtain ⟨f, running, stepped⟩ := Option.bind_eq_some_iff.mp stepped
      exact .inr (.inr (.inr ⟨rfl, rfl, f, running, went_onClock stepped⟩))
  | send outcome =>
    obtain ⟨f, running, stepped⟩ := Option.bind_eq_some_iff.mp stepped
    split at stepped
    · rename_i here
      by_cases delivered : outcome = .sent
      · subst delivered
        simp only [onSend] at stepped
        split at stepped
        · cases stepped
        · exact .inr (.inl ⟨f, rfl, running, here, (Option.some.inj stepped).symm⟩)
      · refine .inr (.inr (.inr ⟨rfl, ?_, f, running, went_onSend here delivered stepped⟩))
        cases outcome
        · exact absurd rfl delivered
        · rfl
        · rfl
    · cases stepped
  | preempt raises =>
    obtain ⟨f, running, stepped⟩ := Option.bind_eq_some_iff.mp stepped
    exact .inr (.inr (.inr ⟨rfl, rfl, f, running, went_onPreempt stepped⟩))
  | poll outcome =>
    obtain ⟨f, running, stepped⟩ := Option.bind_eq_some_iff.mp stepped
    split at stepped
    · exact .inr (.inr (.inr ⟨rfl, rfl, f, running, went_onPoll stepped⟩))
    · cases stepped
  | recv outcome =>
    obtain ⟨f, running, stepped⟩ := Option.bind_eq_some_iff.mp stepped
    split at stepped
    · exact .inr (.inr (.inr ⟨rfl, rfl, f, running, went_onRecv stepped⟩))
    · cases stepped

/-- A Call sends its request at most once, and one that could not send it never does. -/
structure Counted (c : Client) : Prop where
  bounded : ∀ n ∈ c.sent, n ≤ c.calls
  unsent : ∀ f, c.running = some f → f.point.early = true → c.calls ∉ c.sent
  ended : ∀ x ∈ c.thrown, x.1 ≤ c.calls ∧ (c.running ≠ none → x.1 < c.calls)
  refused : ∀ n, (n, sendFailure) ∈ c.thrown → n ∉ c.sent

theorem counted_start (preemptfn : Bool) : (Client.start preemptfn).Counted := by
  constructor <;> simp [Client.start]

theorem Counted.went (counted : c.Counted) (running : c.running = some f) (went : c.Went next f) :
    next.Counted := by
  constructor
  · rw [went.sent, went.calls]
    exact counted.bounded
  · intro g goes early
    rw [went.sent, went.calls]
    exact counted.unsent f running ((went.later g goes).2 early)
  · rw [went.calls]
    rcases went.thrown with same | ⟨e, thrown, stopped, -⟩
    · rw [same]
      intro x member
      have before := (counted.ended x member).2 (by simp [running])
      exact ⟨by omega, fun _ => before⟩
    · rw [thrown, stopped]
      intro x member
      rcases List.mem_append.mp member with old | new
      · exact ⟨(counted.ended x old).1, fun goes => absurd rfl goes⟩
      · obtain rfl := List.mem_singleton.mp new
        exact ⟨le_rfl, fun goes => absurd rfl goes⟩
  · rw [went.sent]
    rcases went.thrown with same | ⟨e, thrown, -, early⟩
    · rw [same]
      exact counted.refused
    · rw [thrown]
      intro n member
      rcases List.mem_append.mp member with old | new
      · exact counted.refused n old
      · obtain ⟨rfl, failed⟩ := Prod.mk.inj (List.mem_singleton.mp new)
        exact counted.unsent f running (early failed.symm)

theorem Counted.step (counted : c.Counted) (stepped : step c e = some next) : next.Counted := by
  rcases step_went stepped with ⟨msg, timeout, -, idle, rfl⟩ | ⟨f, -, running, here, rfl⟩ | ⟨r, -,
      rfl⟩ | ⟨-, -, f, running, went⟩
  · have later (n : Nat) (member : n ∈ c.sent) : n < c.calls + 1 := Nat.lt_succ_of_le (counted.bounded n member)
    refine ⟨fun n member => (later n member).le, fun g _ _ member => absurd (later _ member) (lt_irrefl _),
      fun x member => ?_, counted.refused⟩
    have before := (counted.ended x member).1
    exact ⟨Nat.le_succ_of_le before, fun _ => Nat.lt_succ_of_le before⟩
  · have before (x : Nat × CallError) (member : x ∈ c.thrown) : x.1 < c.calls :=
      (counted.ended x member).2 (by simp [running])
    refine ⟨fun n member => ?_, fun g goes early => ?_, fun x member =>
      ⟨(before x member).le, fun _ => before x member⟩, fun n failed member => ?_⟩
    · rcases List.mem_append.mp member with old | new
      · exact counted.bounded n old
      · exact (List.mem_singleton.mp new).le
    · obtain rfl := Option.some.inj goes
      cases early
    · rcases List.mem_append.mp member with old | new
      · exact counted.refused n failed old
      · exact absurd (List.mem_singleton.mp new) (before _ failed).ne
  · exact ⟨counted.bounded, counted.unsent, counted.ended, counted.refused⟩
  · exact counted.went running went

end Client

/-- A request of a Call, on its way or at the server. -/
structure Posted (ι : Type) where
  client : ι
  call : Nat
  text : Text
  deriving DecidableEq

def Posted.key {ι : Type} (p : Posted ι) : ι × Nat := (p.client, p.call)

/-- The clients, the server loop, and the network between them. -/
structure Traffic (ι : Type) where
  clients : ι → Client
  server : Server
  /-- The messages of all Calls so far. -/
  asked : List (Posted ι)
  /-- The requests that are on their way. -/
  requests : List (Posted ι)
  /-- Whose requests wait at the server. -/
  inbox : List (Posted ι)
  /-- Whose request the server has taken and not replied to. -/
  serving : Option (Posted ι)
  /-- The replies that are on their way. -/
  replies : List (ι × Reply)
  /-- The requests the server has replied to, with its replies. -/
  served : List (Posted ι × Text)

inductive TrafficEvent (ι : Type) where
  | client (i : ι) (e : Event)
  | arrives (p : Posted ι)
  | loses (p : Posted ι)
  | recv (timeout : Int) (polled : PollOutcome) (outcome : RecvOutcome)
  | reply (message : Text)
  | delivers (i : ι) (r : Reply)
  | losesReply (i : ι) (r : Reply)

/-- Replies come from the network only. -/
def Event.own : Event → Bool
  | .answer _ => false
  | _ => true

namespace Traffic

variable {ι : Type}

def start (preemptfn : ι → Bool) : Traffic ι := ⟨fun i => .start (preemptfn i), .start, [], [], [], none, [], []⟩

def receives (s : Traffic ι) (server : Server) : Option Text → Traffic ι
  | some _ => { s with server := server, inbox := s.inbox.tail, serving := s.inbox.head? }
  | none => { s with server := server }

/-- The reply goes to the client whose request was taken. -/
def answers (s : Traffic ι) (server : Server) (message : Text) : Option (Posted ι) → Traffic ι
  | some p => { s with
    server := server
    serving := none
    replies := s.replies ++ [(p.client, ⟨p.call, message⟩)]
    served := s.served ++ [(p, message)] }
  | none => { s with server := server }

/-- The server has sent this reply to this request of the client. -/
def Replied (s : Traffic ι) (i : ι) (r : Reply) : Prop := ∃ text, (⟨i, r.request, text⟩, r.body) ∈ s.served

/-- What the callers and the server rely on. -/
structure Delivers (s : Traffic ι) : Prop where
  /-- The loop is given the requests it replies to, in order, and then the one it is working on. -/
  taken : s.server.calls.filterMap (·.taken) = (s.served.map (·.1) ++ s.serving.toList).map (·.text)
  /-- No request is served twice. -/
  once : ((s.served.map (·.1) ++ s.serving.toList).map Posted.key).Nodup
  /-- What is served is the message of a Call. -/
  asked : ∀ p ∈ s.served.map (·.1) ++ s.serving.toList, p ∈ s.asked
  /-- A Call has one message. -/
  messages : (s.asked.map Posted.key).Nodup
  /-- A received string is a reply of the server to a request of the client. -/
  returned : ∀ i, ∀ ret ∈ (s.clients i).returned, ∀ r, ret.reply = some r → ret.text = r.body ∧ s.Replied i r
  /-- A request that could not be sent is not served. -/
  refused : ∀ i n, (n, Client.sendFailure) ∈ (s.clients i).thrown → ∀ p ∈ s.served.map (·.1) ++
    s.serving.toList, p.key ≠ (i, n)

/-- All requests, wherever they are. -/
def posted (s : Traffic ι) : Multiset (Posted ι) :=
  (s.requests : Multiset (Posted ι)) + (s.inbox : Multiset (Posted ι)) + (s.serving.toList : Multiset (Posted ι)) +
    (s.served.map (·.1) : Multiset (Posted ι))

structure Inv (s : Traffic ι) : Prop where
  counted : ∀ i, (s.clients i).Counted
  messages : (s.asked.map Posted.key).Nodup
  asked : ∀ p ∈ s.asked, p.call ≤ (s.clients p.client).calls
  running : ∀ i f, (s.clients i).running = some f → ⟨i, (s.clients i).calls, f.msg⟩ ∈ s.asked
  once : (s.posted.map Posted.key).Nodup
  genuine : ∀ p ∈ s.posted, p ∈ s.asked ∧ p.call ∈ (s.clients p.client).sent
  inbox : s.inbox.map (·.text) = s.server.inbox
  owing : s.server.owing = s.serving.isSome
  taken : s.server.calls.filterMap (·.taken) = (s.served.map (·.1) ++ s.serving.toList).map (·.text)
  replies : ∀ x ∈ s.replies, s.Replied x.1 x.2
  held : ∀ i r, (s.clients i).socket.reply = some r → s.Replied i r
  returned : ∀ i, ∀ ret ∈ (s.clients i).returned, ∀ r, ret.reply = some r → ret.text = r.body ∧ s.Replied i r

theorem Inv.delivers {s : Traffic ι} (inv : s.Inv) : s.Delivers := by
  have within : ∀ p ∈ s.served.map (·.1) ++ s.serving.toList, p ∈ s.posted := by
    intro p member
    simp only [posted, Multiset.mem_add, Multiset.mem_coe]
    rcases List.mem_append.mp member with served | serving
    · exact .inr served
    · exact .inl (.inr serving)
  have part : ((s.served.map (·.1) ++ s.serving.toList : List (Posted ι)) : Multiset (Posted ι)) ≤ s.posted := by
    rw [← Multiset.coe_add, add_comm, posted, add_assoc]
    exact Multiset.le_add_left _ _
  refine ⟨inv.taken, ?_, fun p member => (inv.genuine p (within p member)).1, inv.messages, inv.returned, ?_⟩
  · rw [← Multiset.coe_nodup, ← Multiset.map_coe]
    exact Multiset.nodup_of_le (Multiset.map_le_map part) inv.once
  · intro i n failed p member same
    obtain ⟨rfl, rfl⟩ := Prod.mk.inj same
    exact (inv.counted p.client).refused p.call failed (inv.genuine p (within p member)).2

variable [DecidableEq ι]

def advances (s : Traffic ι) (i : ι) (e : Event) (c : Client) : Traffic ι :=
  { s with
    clients := Function.update s.clients i c
    asked := s.asked ++ (e.asks.map fun msg => ⟨i, c.calls, msg⟩).toList
    requests := s.requests ++ (((s.clients i).posts e).map fun text => ⟨i, c.calls, text⟩).toList }

def step (s : Traffic ι) : TrafficEvent ι → Option (Traffic ι)
  | .client i e => if e.own then (Zmq.step (s.clients i) e).map (s.advances i e) else none
  | .arrives p =>
    if p ∈ s.requests then
      (s.server.step (.request p.text)).map fun server =>
        { s with server := server, requests := s.requests.erase p, inbox := s.inbox ++ [p] }
    else none
  | .loses p => if p ∈ s.requests then some { s with requests := s.requests.erase p } else none
  | .recv timeout polled outcome =>
    (s.server.step (.recv timeout polled outcome)).map fun server =>
      s.receives server (s.server.takes timeout polled outcome)
  | .reply message => (s.server.step (.send message)).map fun server => s.answers server message s.serving
  | .delivers i r =>
    if (i, r) ∈ s.replies then
      (Zmq.step (s.clients i) (.answer r)).map fun c =>
        { s with clients := Function.update s.clients i c, replies := s.replies.erase (i, r) }
    else none
  | .losesReply i r => if (i, r) ∈ s.replies then some { s with replies := s.replies.erase (i, r) } else none

variable {s s' : Traffic ι}

omit [DecidableEq ι] in
/-- A request in another place, or lost. -/
theorem Inv.of_posted (inv : s.Inv) (clients : s'.clients = s.clients) (asked : s'.asked = s.asked)
    (posted : s'.posted ≤ s.posted)
    (served : ∀ i r, s.Replied i r → s'.Replied i r) (inbox : s'.inbox.map (·.text) = s'.server.inbox)
    (owing : s'.server.owing = s'.serving.isSome)
    (taken : s'.server.calls.filterMap (·.taken) = (s'.served.map (·.1) ++ s'.serving.toList).map (·.text))
    (replies : ∀ x ∈ s'.replies, s'.Replied x.1 x.2) : s'.Inv := by
  refine ⟨?_, ?_, ?_, ?_, ?_, ?_, inbox, owing, taken, replies, ?_, ?_⟩
  · rw [clients]
    exact inv.counted
  · rw [asked]
    exact inv.messages
  · rw [asked, clients]
    exact inv.asked
  · rw [asked, clients]
    exact inv.running
  · exact Multiset.nodup_of_le (Multiset.map_le_map posted) inv.once
  · rw [asked, clients]
    exact fun p member => inv.genuine p (Multiset.mem_of_le posted member)
  · rw [clients]
    exact fun i r held => served i r (inv.held i r held)
  · rw [clients]
    exact fun i ret member r taken =>
      ⟨(inv.returned i ret member r taken).1, served i r (inv.returned i ret member r taken).2⟩

theorem inv_arrives (inv : s.Inv) {p : Posted ι} (member : p ∈ s.requests) {server : Server}
    (stepped : s.server.step (.request p.text) = some server) :
    Inv { s with server := server, requests := s.requests.erase p, inbox := s.inbox ++ [p] } := by
  obtain rfl := Option.some.inj stepped
  refine inv.of_posted rfl rfl (le_of_eq ?_) (fun _ _ => id) ?_ inv.owing inv.taken inv.replies
  · simp only [posted, ← Multiset.coe_add, Multiset.coe_singleton, ← Multiset.coe_erase]
    rw [add_comm (s.inbox : Multiset (Posted ι)), ← add_assoc, add_comm _ ({p} : Multiset (Posted ι)),
      Multiset.singleton_add,
      Multiset.cons_erase (Multiset.mem_coe.mpr member)]
  · simp [inv.inbox]

theorem inv_loses (inv : s.Inv) (p : Posted ι) : Inv { s with requests := s.requests.erase p } := by
  refine inv.of_posted rfl rfl ?_ (fun _ _ => id) inv.inbox inv.owing inv.taken inv.replies
  have fewer : ((s.requests.erase p : List (Posted ι)) : Multiset (Posted ι)) ≤ s.requests := by
    rw [← Multiset.coe_erase]
    exact Multiset.erase_le p _
  exact add_le_add_left (add_le_add_left (add_le_add_left fewer _) _) _

omit [DecidableEq ι] in
theorem inv_recv (inv : s.Inv) {server : Server}
    (stepped : s.server.step (.recv timeout polled outcome) = some server) :
    (s.receives server (s.server.takes timeout polled outcome)).Inv := by
  simp only [Server.step] at stepped
  split at stepped
  case isFalse => cases stepped
  obtain ⟨⟨call, after⟩, ran, rfl⟩ := Option.map_eq_some_iff.mp stepped
  rcases Server.recv_cases ran with ⟨untaken, none, -, rfl⟩ | ⟨request, rest, found, waiting, rfl, rfl⟩
  · rw [untaken]
    refine inv.of_posted rfl rfl le_rfl (fun _ _ => id) inv.inbox inv.owing ?_ inv.replies
    simpa [receives, Server.continues, none] using inv.taken
  · rw [found]
    have free : s.serving = none := by
      have owing : s.server.owing = false := by
        simp only [Server.takes] at found
        split at found
        · cases found
        · rename_i asked
          simp only [not_or, Bool.not_eq_true] at asked
          exact asked.2.2
      rw [inv.owing] at owing
      simpa using owing
    have texts := inv.inbox
    rw [waiting, List.map_eq_cons_iff] at texts
    obtain ⟨p, others, there, text, same⟩ := texts
    refine inv.of_posted rfl rfl (le_of_eq ?_) (fun _ _ => id) ?_ ?_ ?_ inv.replies
    · simp only [posted, receives, there, free, List.tail_cons, List.head?_cons, Option.toList_some,
        Option.toList_none,
        Multiset.coe_nil, add_zero, ← Multiset.cons_coe]
      rw [← Multiset.singleton_add p (others : Multiset (Posted ι)), add_comm ({p} : Multiset (Posted ι)),
        Multiset.cons_zero,
        add_assoc (s.requests : Multiset (Posted ι))]
    · simp [receives, there, same, Server.continues]
    · simp [receives, there, Server.continues]
    · have told : (s.server.reports request).taken = some request := by
        unfold Server.reports
        split <;> rfl
      have before := inv.taken
      rw [free, Option.toList_none, List.append_nil] at before
      simp [receives, there, Server.continues, told, before, text]

omit [DecidableEq ι] in
theorem inv_reply (inv : s.Inv) {server : Server} {message : Text}
    (stepped : s.server.step (.send message) = some server) :
    (s.answers server message s.serving).Inv := by
  simp only [Server.step] at stepped
  split at stepped
  case isFalse => cases stepped
  rename_i ready
  obtain rfl := Option.some.inj stepped
  obtain ⟨p, serving⟩ : ∃ p, s.serving = some p := by
    rw [← Option.isSome_iff_exists, ← inv.owing]
    exact ready.2
  have before := inv.taken
  rw [serving] at before ⊢
  have kept (i : ι) (r : Reply) (replied : s.Replied i r) :
      (s.answers { s.server with owing := false, point := .receives } message (some p)).Replied i r := by
    obtain ⟨text, member⟩ := replied
    exact ⟨text, List.mem_append_left _ member⟩
  refine inv.of_posted rfl rfl (le_of_eq ?_) kept inv.inbox rfl ?_ ?_
  · simp only [posted, answers, serving, Option.toList_some, Option.toList_none, List.map_append,
      List.map_cons, List.map_nil,
      ← Multiset.coe_add, Multiset.coe_nil, add_zero]
    rw [add_assoc, add_assoc, add_comm (s.served.map (·.1) : Multiset (Posted ι)), ← add_assoc, ← add_assoc]
  · simpa [answers] using before
  · intro x member
    rcases List.mem_append.mp member with old | new
    · exact kept _ _ (inv.replies x old)
    · obtain rfl := List.mem_singleton.mp new
      exact ⟨p.text, List.mem_append_right _ (List.mem_singleton.mpr rfl)⟩

/-- What one client may come to, with the Calls it has begun and the requests it has sent. -/
structure Continues (s : Traffic ι) (i : ι) (c : Client) (begun posts : List (Posted ι)) : Prop where
  counted : c.Counted
  calls : (s.clients i).calls ≤ c.calls
  sent : (s.clients i).sent ⊆ c.sent
  begins : ∀ p ∈ begun, p = ⟨i, c.calls, p.text⟩ ∧ (s.clients i).calls < c.calls
  messages : (begun.map Posted.key).Nodup
  running : ∀ f, c.running = some f → ⟨i, c.calls, f.msg⟩ ∈ s.asked ++ begun
  sends : ∀ p ∈ posts, p = ⟨i, c.calls, p.text⟩ ∧ p ∈ s.asked ∧ c.calls ∉ (s.clients i).sent ∧ c.calls ∈ c.sent
  once : (posts.map Posted.key).Nodup
  held : ∀ r, c.socket.reply = some r → s.Replied i r
  returned : ∀ ret ∈ c.returned, ∀ r, ret.reply = some r → ret.text = r.body ∧ s.Replied i r

theorem Inv.continues (inv : s.Inv) {i : ι} {c : Client} {begun posts : List (Posted ι)}
    {replies : List (ι × Reply)} (goes : s.Continues i c begun posts) (fewer : replies ⊆ s.replies) :
    Inv { s with
      clients := Function.update s.clients i c
      asked := s.asked ++ begun
      requests := s.requests ++ posts
      replies := replies } := by
  have callsOf (j : ι) : (s.clients j).calls ≤ (Function.update s.clients i c j).calls := by
    by_cases same : j = i
    · subst same
      rw [Function.update_self]
      exact goes.calls
    · rw [Function.update_of_ne same]
  have sentOf (j : ι) : (s.clients j).sent ⊆ (Function.update s.clients i c j).sent := by
    by_cases same : j = i
    · subst same
      rw [Function.update_self]
      exact goes.sent
    · rw [Function.update_of_ne same]
      exact List.Subset.refl _
  have each {P : ι → Client → Prop} (here : P i c) (there : ∀ j, P j (s.clients j)) (j : ι) : P j
      (Function.update s.clients i c j) := by
    by_cases same : j = i
    · subst same
      rwa [Function.update_self]
    · rw [Function.update_of_ne same]
      exact there j
  have postedEq : Traffic.posted { s with
      clients := Function.update s.clients i c, asked := s.asked ++ begun,
      requests := s.requests ++ posts, replies := replies } =
      s.posted + (posts : Multiset (Posted ι)) := by
    simp only [posted, ← Multiset.coe_add]
    rw [add_right_comm (s.requests : Multiset (Posted ι)), add_right_comm _ (posts : Multiset (Posted ι)),
      add_right_comm _ (posts : Multiset (Posted ι))]
  refine ⟨each goes.counted inv.counted, ?_, ?_, ?_, ?_, ?_, inv.inbox, inv.owing, inv.taken,
    fun x member => inv.replies x (fewer member),
    each (P := fun j d => ∀ r, d.socket.reply = some r → s.Replied j r) goes.held inv.held,
    each (P := fun j d => ∀ ret ∈ d.returned, ∀ r, ret.reply = some r → ret.text = r.body ∧ s.Replied j r)
      goes.returned inv.returned⟩
  · show ((s.asked ++ begun).map Posted.key).Nodup
    rw [List.map_append, List.nodup_append]
    refine ⟨inv.messages, goes.messages, ?_⟩
    rintro _ old _ new rfl
    obtain ⟨p, before, key⟩ := List.mem_map.mp old
    obtain ⟨q, after, same⟩ := List.mem_map.mp new
    obtain ⟨shape, later⟩ := goes.begins q after
    rw [shape] at same
    obtain ⟨client, call⟩ := Prod.mk.inj (same.trans key.symm)
    have bound := inv.asked p before
    rw [← client, ← call] at bound
    exact absurd later bound.not_gt
  · intro p member
    rcases List.mem_append.mp member with old | new
    · exact (inv.asked p old).trans (callsOf p.client)
    · rw [(goes.begins p new).1]
      show c.calls ≤ (Function.update s.clients i c i).calls
      rw [Function.update_self]
  · exact each (P := fun j d => ∀ f, d.running = some f → ⟨j, d.calls, f.msg⟩ ∈ s.asked ++ begun) goes.running
      fun j f running => List.mem_append_left _ (inv.running j f running)
  · rw [postedEq, Multiset.map_add, Multiset.nodup_add]
    refine ⟨inv.once, by simpa using goes.once, Multiset.disjoint_left.mpr fun old new => ?_⟩
    obtain ⟨p, before, rfl⟩ := Multiset.mem_map.mp old
    obtain ⟨q, after, same⟩ := Multiset.mem_map.mp new
    obtain ⟨shape, -, unsent, -⟩ := goes.sends q (Multiset.mem_coe.mp after)
    rw [shape] at same
    obtain ⟨client, call⟩ := Prod.mk.inj same
    have known := (inv.genuine p before).2
    rw [← client, ← call] at known
    exact unsent known
  · intro p member
    rw [postedEq, Multiset.mem_add] at member
    rcases member with old | new
    · exact ⟨List.mem_append_left _ (inv.genuine p old).1, sentOf p.client (inv.genuine p old).2⟩
    · obtain ⟨shape, known, -, sends⟩ := goes.sends p (Multiset.mem_coe.mp new)
      refine ⟨List.mem_append_left _ known, ?_⟩
      rw [shape]
      show c.calls ∈ (Function.update s.clients i c i).sent
      rwa [Function.update_self]

theorem inv_delivers (inv : s.Inv) {i : ι} {r : Reply} {c : Client} (member : (i, r) ∈ s.replies)
    (stepped : Zmq.step (s.clients i) (.answer r) = some c) :
    Inv { s with clients := Function.update s.clients i c, replies := s.replies.erase (i, r) } := by
  have counted := (inv.counted i).step stepped
  simp only [Zmq.step] at stepped
  split at stepped
  case isFalse => cases stepped
  obtain rfl := Option.some.inj stepped
  have goes : s.Continues i { s.clients i with socket := (s.clients i).socket.deliver r } [] [] := by
    refine ⟨counted, le_rfl, fun _ => id, fun p absent => (List.not_mem_nil absent).elim, List.nodup_nil,
      fun f running => ?_,
      fun p absent => (List.not_mem_nil absent).elim, List.nodup_nil, fun q held => ?_, inv.returned i⟩
    · rw [List.append_nil]
      exact inv.running i f running
    · simp only [Socket.deliver] at held
      split at held
      · cases held
        exact inv.replies (i, r) member
      · exact inv.held i q held
  have fewer : s.replies.erase (i, r) ⊆ s.replies := List.erase_subset
  have reached := inv.continues goes fewer
  simpa only [List.append_nil] using reached

theorem inv_advances (inv : s.Inv) {i : ι} {e : Event} {c : Client} (own : e.own = true)
    (stepped : Zmq.step (s.clients i) e = some c) : (s.advances i e c).Inv := by
  have counted := (inv.counted i).step stepped
  apply inv.continues _ (List.Subset.refl _)
  rcases Client.step_went stepped with ⟨msg, timeout, rfl, idle, rfl⟩ | ⟨f, rfl, running, here, rfl⟩ | ⟨r,
      rfl, rfl⟩ | ⟨asks, posts, f, running, went⟩
  · refine ⟨counted, Nat.le_succ _, List.Subset.refl _, ?_, ?_, ?_, ?_, ?_, inv.held i, inv.returned i⟩
    · simp [Event.asks]
    · simp [Event.asks]
    · intro f goes
      obtain rfl := Option.some.inj goes
      simp [Event.asks]
    · simp [Client.posts]
    · simp [Client.posts]
  · have unsent : (s.clients i).calls ∉ (s.clients i).sent := (inv.counted i).unsent f running (by rw [here]; rfl)
    refine ⟨counted, le_rfl, List.subset_append_left _ _, ?_, ?_, ?_, ?_, ?_, ?_, inv.returned i⟩
    · simp [Event.asks]
    · simp [Event.asks]
    · intro g goes
      obtain rfl := Option.some.inj goes
      exact List.mem_append_left _ (inv.running i f running)
    · simp [Client.posts, running, unsent, inv.running i f running]
    · simp [Client.posts, running]
    · intro r held
      cases held
  · cases own
  · rw [asks, posts]
    refine ⟨counted, went.calls.ge, went.sent ▸ List.Subset.refl _, by simp, by simp, fun g goes => ?_,
      by simp, by simp,
      fun r held => inv.held i r (went.holds r held), ?_⟩
    · rw [(went.later g goes).1, went.calls]
      exact List.mem_append_left _ (inv.running i f running)
    · rcases went.returned with same | same | ⟨r, held, same⟩
      · rw [same]
        exact inv.returned i
      · rw [same]
        intro ret member r taken
        rcases List.mem_append.mp member with old | new
        · exact inv.returned i ret old r taken
        · obtain rfl := List.mem_singleton.mp new
          cases taken
      · rw [same]
        intro ret member q taken
        rcases List.mem_append.mp member with old | new
        · exact inv.returned i ret old q taken
        · obtain rfl := List.mem_singleton.mp new
          obtain rfl := Option.some.inj taken
          exact ⟨rfl, inv.held i r held⟩

theorem inv_step (inv : s.Inv) (event : TrafficEvent ι) (stepped : s.step event = some s') : s'.Inv := by
  cases event with
  | client i e =>
    simp only [step] at stepped
    split at stepped
    · rename_i own
      obtain ⟨c, went, rfl⟩ := Option.map_eq_some_iff.mp stepped
      exact inv_advances inv own went
    · cases stepped
  | arrives p =>
    simp only [step] at stepped
    split at stepped
    · rename_i member
      obtain ⟨server, taken, rfl⟩ := Option.map_eq_some_iff.mp stepped
      exact inv_arrives inv member taken
    · cases stepped
  | loses p =>
    simp only [step] at stepped
    split at stepped
    · obtain rfl := Option.some.inj stepped
      exact inv_loses inv p
    · cases stepped
  | recv timeout polled outcome =>
    obtain ⟨server, taken, rfl⟩ := Option.map_eq_some_iff.mp stepped
    exact inv_recv inv taken
  | reply message =>
    obtain ⟨server, taken, rfl⟩ := Option.map_eq_some_iff.mp stepped
    exact inv_reply inv taken
  | delivers i r =>
    simp only [step] at stepped
    split at stepped
    · rename_i member
      obtain ⟨c, went, rfl⟩ := Option.map_eq_some_iff.mp stepped
      exact inv_delivers inv member went
    · cases stepped
  | losesReply i r =>
    simp only [step] at stepped
    split at stepped
    · obtain rfl := Option.some.inj stepped
      exact inv.of_posted rfl rfl le_rfl (fun _ _ => id) inv.inbox inv.owing inv.taken fun x member =>
        inv.replies x (List.erase_subset member)
    · cases stepped

omit [DecidableEq ι] in
theorem inv_start (preemptfn : ι → Bool) : (start preemptfn).Inv := by
  refine ⟨fun i => Client.counted_start _, ?_, ?_, ?_, ?_, ?_, rfl, rfl, rfl, ?_, ?_, ?_⟩ <;>
    simp [start, posted, Client.start, Socket.fresh]

def Orderly (s : Traffic ι) : TrafficEvent ι → Prop
  | .client i e => Zmq.Orderly (s.clients i) e
  | _ => True

instance (s : Traffic ι) (event : TrafficEvent ι) : Decidable (s.Orderly event) := by
  unfold Orderly
  split <;> infer_instance

theorem sound_step (sound : ∀ i, Zmq.Inv (s.clients i)) (event : TrafficEvent ι) (orderly : s.Orderly event)
    (stepped : s.step event = some s') : ∀ i, Zmq.Inv (s'.clients i) := by
  have moved {i : ι} {c : Client} (inv : Zmq.Inv c) (j : ι) : Zmq.Inv (Function.update s.clients i c j) := by
    by_cases same : j = i
    · subst same
      rwa [Function.update_self]
    · rw [Function.update_of_ne same]
      exact sound j
  cases event with
  | client i e =>
    simp only [step] at stepped
    split at stepped
    · obtain ⟨c, went, rfl⟩ := Option.map_eq_some_iff.mp stepped
      exact moved (Zmq.inv_step (sound i) orderly went)
    · cases stepped
  | delivers i r =>
    simp only [step] at stepped
    split at stepped
    · obtain ⟨c, went, rfl⟩ := Option.map_eq_some_iff.mp stepped
      have free : Zmq.Orderly (s.clients i) (.answer r) := by
        unfold Zmq.Orderly
        cases (s.clients i).running <;> trivial
      exact moved (Zmq.inv_step (sound i) free went)
    · cases stepped
  | recv timeout polled outcome =>
    obtain ⟨server, -, rfl⟩ := Option.map_eq_some_iff.mp stepped
    cases s.server.takes timeout polled outcome <;> exact sound
  | reply message =>
    obtain ⟨server, -, rfl⟩ := Option.map_eq_some_iff.mp stepped
    cases s.serving <;> exact sound
  | arrives p =>
    simp only [step] at stepped
    split at stepped
    · obtain ⟨server, -, rfl⟩ := Option.map_eq_some_iff.mp stepped
      exact sound
    · cases stepped
  | loses p =>
    simp only [step] at stepped
    split at stepped
    · obtain rfl := Option.some.inj stepped
      exact sound
    · cases stepped
  | losesReply i r =>
    simp only [step] at stepped
    split at stepped
    · obtain rfl := Option.some.inj stepped
      exact sound
    · cases stepped

/-- Whatever is delayed, reordered and lost, and whenever clients give up and call again: no request
is served twice, and what a Call receives is what the server has replied to a request of this
client. Where the steps of the clients are orderly, it is the reply to the request of the Call
itself. -/
theorem calls_delivered {preemptfn : ι → Bool} {events : List (TrafficEvent ι)} {final : Traffic ι}
    (ran : run step (start preemptfn) events = some final) : final.Delivers ∧
      (Meets Orderly step (start preemptfn) events →
        ∀ i, ∀ ret ∈ (final.clients i).returned, ∃ text, (⟨i, ret.call, text⟩, ret.text) ∈ final.served) := by
  have any : Meets (fun _ _ => True) step (start preemptfn) events := meets_of_forall fun _ _ _ => trivial
  have reached : final.Inv :=
    run_invariant Inv (fun _ event _ inv _ => inv_step inv event) (inv_start preemptfn) any ran
  refine ⟨reached.delivers, fun orderly i ret member => ?_⟩
  have sound : ∀ i, Zmq.Inv (final.clients i) := run_invariant (fun s => ∀ i, Zmq.Inv (s.clients i))
    (fun _ event _ => fun sound guard => sound_step sound event guard)
      (fun i => Zmq.inv_start (preemptfn i)) orderly ran
  obtain ⟨reply, taken, own, text⟩ := (sound i).sound.answered ret member
  obtain ⟨-, asked, served⟩ := reached.returned i ret member reply taken
  rw [own, ← text] at served
  exact ⟨asked, served⟩

/-- Two clients: the first gives up before the server has taken its request. -/
def givenUp : List (TrafficEvent Bool) :=
  [.client true (.call (lit "first") (Double.ofInt 1)), .client true (.clock 0), .client true (.clock 0),
    .client true (.send .sent),
    .client false (.call (lit "second") (Double.ofInt 1)), .client false (.clock 0),
      .client false (.clock 0), .client false (.send .sent),
    .arrives ⟨false, 1, lit "second"⟩, .arrives ⟨true, 1, lit "first"⟩, .recv 50 .event .received,
    .client true (.clock 1), .client true (.poll .noEvent), .reply (lit "done"), .recv 50 .event .received,
    .client false (.clock 2), .delivers false ⟨1, lit "done"⟩, .client false (.poll .event),
      .client false (.recv .received)]

theorem calls_delivered_givenUp : ∃ final, run step (start fun _ => false) givenUp = some final ∧
    (final.clients false).returned = [⟨1, lit "done", some ⟨1, lit "done"⟩⟩] ∧
      final.serving = some ⟨true, 1, lit "first"⟩ ∧
    final.Delivers ∧ ∀ i, ∀ ret ∈ (final.clients i).returned, ∃ text,
      (⟨i, ret.call, text⟩, ret.text) ∈ final.served := by
  obtain ⟨final, ran, returned, serving⟩ : ∃ final, run step (start fun _ => false) givenUp = some final ∧
      (final.clients false).returned = [⟨1, lit "done", some ⟨1, lit "done"⟩⟩] ∧
        final.serving = some ⟨true, 1, lit "first"⟩ :=
    ⟨(run step (start fun _ => false) givenUp).get (by decide +kernel), by simp, by decide +kernel,
      by decide +kernel⟩
  have delivered := calls_delivered ran
  exact ⟨final, ran, returned, serving, delivered.1, delivered.2 (by decide +kernel)⟩

end Traffic

end MujinClient.Zmq
