import MujinClient.ZmqClient

/-! `ZmqServer::Recv` and `Send` in a loop that receives and, when it is told of a request, replies. The
length of a request is what tells of it. -/
namespace MujinClient.Zmq

open Transition

structure RecvCall where
  /-- The request that the call took from its socket. -/
  taken : Option Text
  /-- None if the call has thrown. -/
  returned : Option uint32.Value
  /-- The string of the caller afterwards. -/
  data : Text
  deriving DecidableEq

/-- A call that took a request returns, and reports it. A call that took none does not report one. -/
def RecvCall.Honest (call : RecvCall) : Prop :=
  match call.taken with
  | some request => (∃ n, call.returned = some n ∧ n.val ≠ 0) ∧ call.data = request
  | none => ∀ n ∈ call.returned, n.val = 0

def RecvCall.reported (call : RecvCall) : Bool := call.returned.any fun n => n.val ≠ 0

theorem RecvCall.Honest.reported_iff {call : RecvCall} (honest : call.Honest) :
    call.reported = true ↔ call.taken.isSome = true := by
  unfold RecvCall.Honest at honest
  unfold RecvCall.reported
  cases found : call.taken with
  | none =>
    rw [found] at honest
    cases returned : call.returned with
    | none => simp
    | some n => simpa using honest n returned
  | some request =>
    rw [found] at honest
    obtain ⟨⟨n, returned, size⟩, -⟩ := honest
    simpa [returned] using size

inductive LoopPoint where
  | receives | replies
  deriving DecidableEq

/-- A REP socket, and the loop over it. -/
structure Server where
  /-- The requests that wait at the socket. -/
  inbox : List Text
  /-- A request was taken, and the reply to it was not sent. -/
  owing : Bool
  point : LoopPoint
  data : Text
  calls : List RecvCall
  deriving DecidableEq

def Server.start : Server := ⟨[], false, .receives, [], []⟩

inductive ServerEvent where
  | request (message : Text)
  | recv (timeout : Int) (polled : PollOutcome) (outcome : RecvOutcome)
  | send (message : Text)
  deriving DecidableEq

namespace Server

/-- The request that a call takes. The socket takes none while it owes a reply. -/
def takes (s : Server) (timeout : Int) (polled : PollOutcome) (outcome : RecvOutcome) : Option Text :=
  if timeout > 0 ∧ polled ≠ .event ∨ outcome ≠ .received ∨ s.owing then none else s.inbox.head?

/-- `Recv` once it has taken a request: an `unsigned int` is made of the size. -/
def reports (s : Server) (request : Text) : RecvCall :=
  if request.length > 0 then ⟨some request, some (uint32.convert request.length), request⟩
  else ⟨some request, some (uint32.convert 0), s.data⟩

def recv (s : Server) (timeout : Int) (polled : PollOutcome) (outcome : RecvOutcome) :
    Option (RecvCall × Server) :=
  if timeout > 0 ∧ polled = .noEvent then some (⟨none, some (uint32.convert 0), s.data⟩, s)
  else if timeout > 0 ∧ polled ≠ .event then some (⟨none, none, s.data⟩, s)
  else match outcome with
    | .received =>
      if s.owing then none
      else s.inbox.head?.map fun request => (s.reports request, { s with inbox := s.inbox.tail, owing := true })
    | .again => if s.owing then none else some (⟨none, some (uint32.convert 0), s.data⟩, s)
    | .failed => some (⟨none, none, s.data⟩, s)

def continues (s : Server) (call : RecvCall) : Server :=
  { s with
    point := if call.reported then .replies else .receives
    data := call.data
    calls := s.calls ++ [call] }

def step (s : Server) : ServerEvent → Option Server
  | .request message => some { s with inbox := s.inbox ++ [message] }
  | .recv timeout polled outcome =>
    if s.point = .receives then (s.recv timeout polled outcome).map fun result =>
      result.2.continues result.1 else none
  | .send _ => if s.point = .replies ∧ s.owing then some { s with owing := false, point := .receives } else none

/-- No request is kept from the caller, and the socket owes a reply exactly while the loop is about
to send it. -/
structure Answers (s : Server) : Prop where
  honest : ∀ call ∈ s.calls, call.Honest
  replied : s.owing = true ↔ s.point = .replies

/-- The request that a step takes has a size that is not zero as an `unsigned int`. -/
def Sized (s : Server) : ServerEvent → Prop
  | .recv timeout polled outcome => ∀ request ∈ s.takes timeout polled outcome, request.length % 2 ^ 32 ≠ 0
  | _ => True

variable {s s' : Server} {timeout : Int} {polled : PollOutcome} {outcome : RecvOutcome}

theorem recv_cases {call : RecvCall} (ran : s.recv timeout polled outcome = some (call, s')) :
    (s.takes timeout polled outcome = none ∧ call.taken = none ∧ (∀ n ∈ call.returned, n.val = 0) ∧ s' = s) ∨
      ∃ request rest, s.takes timeout polled outcome = some request ∧ s.inbox = request :: rest ∧
        call = s.reports request ∧ s' = { s with inbox := rest, owing := true } := by
  have nothing : (uint32.convert 0).val = 0 := rfl
  unfold recv at ran
  by_cases silent : timeout > 0 ∧ polled ≠ .event
  · have untaken : s.takes timeout polled outcome = none := if_pos (.inl silent)
    left
    by_cases noEvent : timeout > 0 ∧ polled = .noEvent
    · rw [if_pos noEvent] at ran
      obtain ⟨rfl, rfl⟩ := Prod.mk.inj (Option.some.inj ran)
      exact ⟨untaken, rfl, by simp [nothing], rfl⟩
    · rw [if_neg noEvent, if_pos silent] at ran
      obtain ⟨rfl, rfl⟩ := Prod.mk.inj (Option.some.inj ran)
      exact ⟨untaken, rfl, by simp, rfl⟩
  · have answered : ¬(timeout > 0 ∧ polled = .noEvent) := by
      rintro ⟨positive, noEvent⟩
      exact silent ⟨positive, by simp [noEvent]⟩
    rw [if_neg answered, if_neg silent] at ran
    cases outcome with
    | received =>
      cases owing : s.owing with
      | true => simp [owing] at ran
      | false =>
        right
        cases waiting : s.inbox with
        | nil => simp [owing, waiting] at ran
        | cons request rest =>
          simp only [owing, waiting, Bool.false_eq_true, if_false, List.head?_cons, Option.map_some,
            Option.some.injEq] at ran
          obtain ⟨rfl, rfl⟩ := Prod.mk.inj ran
          have taken : s.takes timeout polled .received = some request := by
            rw [takes, if_neg (by simp [owing, silent]), waiting, List.head?_cons]
          exact ⟨request, rest, taken, rfl, rfl, rfl⟩
    | again =>
      cases owing : s.owing with
      | true => simp [owing] at ran
      | false =>
        simp only [owing, Bool.false_eq_true, if_false, Option.some.injEq] at ran
        obtain ⟨rfl, rfl⟩ := Prod.mk.inj ran
        exact .inl ⟨if_pos (.inr (.inl (by simp))), rfl, by simp [nothing], rfl⟩
    | failed =>
      obtain ⟨rfl, rfl⟩ := Prod.mk.inj (Option.some.inj ran)
      exact .inl ⟨if_pos (.inr (.inl (by simp))), rfl, by simp, rfl⟩

theorem recv_of_takes {request : Text} (taken : s.takes timeout polled outcome = some request) :
    ∃ rest, s.recv timeout polled outcome = some (s.reports request, { s with inbox := rest, owing := true }) := by
  unfold takes at taken
  split at taken
  · cases taken
  · rename_i asked
    simp only [not_or, not_not, Bool.not_eq_true] at asked
    obtain ⟨heard, rfl, free⟩ := asked
    have answered : ¬(timeout > 0 ∧ polled = .noEvent) := by
      rintro ⟨positive, noEvent⟩
      exact heard ⟨positive, by simp [noEvent]⟩
    refine ⟨s.inbox.tail, ?_⟩
    rw [recv, if_neg answered, if_neg heard]
    simp [free, taken]

theorem convert_length (request : Text) :
    (uint32.convert request.length).val = (request.length % 2 ^ 32 : Nat) := by
  show (request.length : Int) % 2 ^ 32 = _
  omega

theorem honest_reports (s : Server) (request : Text) :
    (s.reports request).Honest ↔ request.length % 2 ^ 32 ≠ 0 := by
  unfold reports
  split
  · have size := convert_length request
    simp only [RecvCall.Honest, Option.some.injEq, exists_eq_left', and_true, size]
    omega
  · rename_i empty
    have none : (uint32.convert 0).val = 0 := rfl
    have length : request.length = 0 := by omega
    simp [RecvCall.Honest, none, length]

/-- A step from a server that answers leads to one exactly if it takes no request of size zero. -/
theorem sized_iff (answers : s.Answers) (event : ServerEvent) :
    s.Sized event ↔ ∀ next, s.step event = some next → next.Answers := by
  cases event with
  | request message =>
    refine iff_of_true trivial fun next taken => ?_
    obtain rfl := Option.some.inj taken
    exact ⟨answers.honest, answers.replied⟩
  | send message =>
    refine iff_of_true trivial fun next taken => ?_
    simp only [step] at taken
    split at taken
    · obtain rfl := Option.some.inj taken
      exact ⟨answers.honest, by simp⟩
    · cases taken
  | recv timeout polled outcome =>
    by_cases receives : s.point = .receives
    · have free : s.owing = false := by
        by_contra owing
        simp [answers.replied.mp (Bool.eq_true_of_not_eq_false owing)] at receives
      constructor
      · intro sized next taken
        rw [step, if_pos receives] at taken
        obtain ⟨⟨call, after⟩, ran, rfl⟩ := Option.map_eq_some_iff.mp taken
        have kept (honest : call.Honest) (same : after.calls = s.calls) :
            ∀ other ∈ (after.continues call).calls, other.Honest := by
          intro other member
          rcases List.mem_append.mp member with earlier | last
          · exact answers.honest other (same ▸ earlier)
          · obtain rfl := List.mem_singleton.mp last
            exact honest
        rcases recv_cases ran with ⟨-, untaken, zero, rfl⟩ | ⟨request, rest, found, -, rfl, rfl⟩
        · have honest : call.Honest := by simpa only [RecvCall.Honest, untaken] using zero
          have silent : call.reported = false := by
            simpa [untaken] using honest.reported_iff
          exact ⟨kept honest rfl, by simp [continues, silent, free]⟩
        · have honest := (honest_reports s request).mpr (sized request found)
          have told : (s.reports request).reported = true := by
            have taken : (s.reports request).taken = some request := by
              unfold reports
              split <;> rfl
            simpa [taken] using honest.reported_iff
          exact ⟨kept honest rfl, by simp [continues, told]⟩
      · intro each request found
        obtain ⟨rest, ran⟩ := recv_of_takes found
        have reached := each _ (by rw [step, if_pos receives, ran]; rfl)
        exact (honest_reports s request).mp (reached.honest _ (by simp [continues]))
    · have replies : s.point = .replies := by
        cases point : s.point with
        | receives => exact absurd point receives
        | replies => rfl
      have owing := answers.replied.mpr replies
      refine iff_of_true (fun request found => ?_) fun next taken => ?_
      · simp [takes, owing] at found
      · simp [step, replies] at taken

/-- Every server loop keeps to its requests exactly if no request that it takes has a size that is
zero as an `unsigned int`. -/
theorem answers_iff (events : List ServerEvent) : Meets Sized step start events ↔
    ∀ before, before <+: events → ∀ reached, run step start before = some reached → reached.Answers :=
  meets_iff Answers (fun _ event answers => sized_iff answers event) ⟨by simp [start], by simp [start]⟩

/-- A client that sends an empty request is not noticed, and the socket waits for a reply. -/
theorem empty_request_kept : ¬∀ (events : List ServerEvent) (reached : Server),
    run step start events = some reached → reached.Answers := by
  intro answers
  have reached := answers [.request [], .recv 1 .event .received] _ rfl
  have owing := reached.replied.mp rfl
  cases owing

end Server

end MujinClient.Zmq
