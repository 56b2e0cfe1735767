import MujinClient.ClientRuns

/-! What the requests of a program look like when they are sent, and what a program that returns
has sent and read. The rules follow the programs of the client from setter to setter. -/
namespace MujinClient

open Request

/-- Follows the handle, and asks something of every request that is sent. -/
def sender (ok : SentRequest → Prop) : Watcher ClientAction.Answer CurlHandle where
  allows h a := a = .perform → ok h.sends
  next h a r := h.step ⟨a, r⟩

/-- Every request that the program sends, from this handle on, is as asked. -/
def Sends (ok : SentRequest → Prop) (h : CurlHandle) (p : Request α) : Prop :=
  p.Obeys (sender ok) (fun _ _ => True) h

section

variable {α β : Type} {ok : SentRequest → Prop} {h : CurlHandle} {p : Request α} {f : β → Request α}

theorem sends_acts {a : ClientAction} {next : a.Answer → Request α} :
    Sends ok h (.acts a next) ↔ (a = .perform → ok h.sends) ∧ ∀ r, Sends ok (h.step ⟨a, r⟩) (next r) := Iff.rfl

@[simp] theorem sends_returns {x : α} : Sends ok h (.returns x) := trivial

@[simp] theorem sends_pure {x : α} : Sends ok h (pure x) := trivial

@[simp] theorem sends_throws {e : Thrown} : Sends ok h (.throws e : Request α) := trivial

@[simp] theorem sends_lift {r : Except Thrown α} : Sends ok h (Program.lift r) := by
  cases r <;> trivial

theorem sends_iff : Sends ok h p ↔ ∀ trace q, p.Reaches trace q → ∀ request ∈ h.requests trace, ok request := by
  induction p generalizing h with
  | returns x | throws e =>
    refine iff_of_true trivial fun trace q ran => ?_
    cases trace with
    | nil => simp [CurlHandle.requests]
    | cons event rest => simp [Program.Reaches, Program.step] at ran
  | acts a next ih =>
    rw [sends_acts]
    constructor
    · rintro ⟨first, later⟩ trace q ran request sent
      cases trace with
      | nil => simp [CurlHandle.requests] at sent
      | cons event rest =>
        obtain ⟨_, taken, ran⟩ := Option.bind_eq_some_iff.mp ran
        obtain ⟨b, rest', r, shape, rfl, rfl⟩ := Program.step_cases taken
        obtain ⟨rfl, same⟩ := Program.acts.inj shape
        obtain rfl := eq_of_heq same
        rcases List.mem_append.mp sent with here | there
        · by_cases transfer : a = .perform
          · rw [if_pos transfer] at here
            exact List.mem_singleton.mp here ▸ first transfer
          · simp [transfer] at here
        · exact (ih r).mp (later r) rest q ran request there
    · intro each
      refine ⟨fun transfer => ?_, fun r => (ih r).mpr fun trace q ran request sent => ?_⟩
      · subst transfer
        exact each [⟨.perform, true⟩] (next true) (by simp [Program.Reaches]) h.sends
          (by simp [CurlHandle.requests])
      · refine each (⟨a, r⟩ :: trace) q ?_ request (List.mem_append_right _ sent)
        rw [Program.Reaches, Transition.run_cons, Program.step_acts]
        exact ran

theorem sends_act {a : ClientAction} {f : a.Answer → Request α} (quiet : a ≠ .perform)
    (frame : ∀ r, h.step ⟨a, r⟩ = h) :
    Sends ok h (act a >>= f) ↔ ∀ r, Sends ok h (f r) := by
  show Sends ok h (.acts a fun r => f r) ↔ _
  simp [sends_acts, quiet, frame]

@[simp] theorem sends_access {s : Scratch} : Sends ok h (do act (.access s); p) ↔ Sends ok h p :=
  (sends_act (a := .access s) (by simp) fun _ => rfl).trans ⟨fun each => each (), fun rest _ => rest⟩

@[simp] theorem sends_clearBuffer : Sends ok h (do act .clearBuffer; p) ↔ Sends ok h p :=
  (sends_act (a := .clearBuffer) (by simp) fun _ => rfl).trans ⟨fun each => each (), fun rest _ => rest⟩

theorem sends_demand {b : Bool} {e : Thrown} {f : Unit → Request α} :
    Sends ok h (demand b e >>= f) ↔ (b = true → Sends ok h (f ())) := by
  cases b with
  | false => exact iff_of_true trivial (by simp)
  | true => exact ⟨fun rest _ => rest, fun rest => rest rfl⟩

theorem sends_setter {o : CurlOption} {v : OptionValue} {f : Unit → Request α} :
    Sends ok h (setter o v >>= f) ↔ Sends ok (h.setopt o v) (f ()) := by
  show Sends ok h (.acts (.setopt o v) fun r => demand r (curlError s!"curl_easy_setopt {o.name}") >>= f) ↔ _
  simp [sends_acts, sends_demand, CurlHandle.step]

theorem sends_guarded {a : ClientAction} (quiet : a ≠ .perform) : Sends ok h (p.guarded a) ↔ Sends ok h p := by
  induction p generalizing h with
  | returns x | throws e => exact iff_of_true ⟨fun transfer => absurd transfer quiet, fun _ => trivial⟩ trivial
  | acts b next ih => exact and_congr_right fun _ => forall_congr' fun r => ih r

@[simp] theorem sends_saveSetter {o : CurlOption} {curvalue newvalue : OptionValue} {scope : Request α} :
    Sends ok h (saveSetter o curvalue newvalue scope) ↔ Sends ok (h.setopt o newvalue) scope :=
  (sends_guarded (by simp)).trans sends_setter

@[simp] theorem sends_locked {scope : Request α} : Sends ok h (locked scope) ↔ Sends ok h scope := by
  show Sends ok h (.acts .lock fun _ => scope.guarded .unlock) ↔ _
  simp [sends_acts, sends_guarded, CurlHandle.step]

theorem Sends.bind {p : Request β} (first : Sends ok h p) (rest : ∀ x g, Sends ok g (f x)) :
    Sends ok h (p >>= f) :=
  Program.Obeys.bind first (fun _ _ _ => trivial) fun x g _ => rest x g

theorem sends_bind {p : Request β} (rest : ∀ x g, Sends ok g (f x)) : Sends ok h (p >>= f) ↔ Sends ok h p := by
  refine ⟨fun whole => ?_, fun first => first.bind rest⟩
  induction p generalizing h with
  | returns x | throws e => trivial
  | acts a next ih => exact ⟨whole.1, fun r => ih r (whole.2 r)⟩

theorem sends_infoGetter {info : CurlInfo} : Sends ok h (infoGetter info) := by
  refine (sends_act (a := .getinfo info) (by simp) fun _ => rfl).mpr fun value => ?_
  cases value <;> trivial

/-- A transfer, and what reads its response. -/
theorem sends_perform {f : Unit → Request α} (rest : ∀ g, Sends ok g (f ())) :
    Sends ok h (perform >>= f) ↔ ok h.sends := by
  show Sends ok h (.acts .perform fun r => demand r (curlError "curl_easy_perform") >>= f) ↔ _
  simp [sends_acts, sends_demand, CurlHandle.step, rest]

theorem sends_reply {info : CurlInfo} {f : Int → Request α} (rest : ∀ x g, Sends ok g (f x)) :
    Sends ok h (perform >>= fun _ => infoGetter info >>= f) ↔ ok h.sends :=
  sends_perform fun _ => sends_infoGetter.bind rest

theorem sends_read {a : ClientAction} {f : a.Answer → Request α} (quiet : a ≠ .perform)
    (rest : ∀ r g, Sends ok g (f r)) : Sends ok h (act a >>= f) :=
  Sends.bind ⟨fun transfer => absurd transfer quiet, fun _ => trivial⟩ rest

end

namespace ControllerClient

variable (client : ControllerClient) {ok : SentRequest → Prop} {h : CurlHandle} {desturi : Text}
    {expectedhttpcode : Int} {timeout : Double}

def postOf (h : CurlHandle) (desturi data : Text) : SentRequest :=
  ⟨.post, h.options .customRequest, .text (cString desturi),
    [.long data.length, if data ≠ [] then .data data else .null]⟩

@[simp] theorem sends_callPostData {data : Text} :
    Sends ok h (client.callPostData desturi data expectedhttpcode timeout) ↔ ok (postOf h desturi data) := by
  simp only [callPostData, sends_saveSetter, sends_clearBuffer]
  rw [sends_reply fun _ _ => sends_read (by simp) fun _ _ => sends_lift]
  simp [CurlHandle.sends, CurlHandle.setopt, RequestKind.after, postOf]

def formOf (h : CurlHandle) (desturi : Text) (data : List FormPart) : SentRequest :=
  ⟨.multipart, h.options .customRequest, .text (cString desturi), [.form data]⟩

@[simp] theorem sends_callPostForm {data : List FormPart} :
    Sends ok h (client.callPostForm desturi data expectedhttpcode timeout) ↔ ok (formOf h desturi data) := by
  simp only [callPostForm, sends_saveSetter, sends_clearBuffer]
  rw [sends_reply fun _ _ => sends_read (by simp) fun _ _ => sends_lift]
  simp [CurlHandle.sends, CurlHandle.setopt, RequestKind.after, formOf]

/-- What a PUT sends. The kind is that of the handle after its body was set. -/
@[simp] theorem sends_callPut {relativeuri pdata : Text} {headers : HeaderList} :
    Sends ok h (client.callPut relativeuri pdata headers expectedhttpcode timeout) ↔
      ok ⟨.post, .text (lit "PUT"), .text (cString (client.baseapiuri ++ relativeuri)),
        [.long pdata.length, .data pdata]⟩ := by
  simp only [callPut, sends_locked, sends_saveSetter, sends_access, sends_clearBuffer]
  rw [sends_reply fun _ _ => sends_read (by simp) fun _ _ => sends_lift]
  simp [CurlHandle.sends, CurlHandle.setopt, RequestKind.after]

@[simp] theorem sends_callPost {relativeuri data : Text} :
    Sends ok h (client.callPost relativeuri data expectedhttpcode timeout) ↔
      ok (postOf h (client.baseapiuri ++ relativeuri) data) := by
  simp only [callPost, sends_locked, sends_access, sends_callPostData]

/-- A GET of a URL, with or without a body left over from before. -/
theorem sends_callGetVector : Sends ok h (client.callGetVector desturi expectedhttpcode timeout) ↔
    ok ⟨.get, h.options .customRequest, .text (cString desturi), []⟩ := by
  simp only [callGetVector, sends_saveSetter]
  rw [sends_reply fun _ _ => sends_read (by simp) fun _ _ => Sends.bind sends_lift fun _ _ => sends_pure]
  simp [CurlHandle.sends, CurlHandle.setopt, RequestKind.after]

/-- A GET of a value. -/
theorem sends_callGet {relativeuri : Text} {pt : Json} :
    Sends ok h (client.callGet relativeuri pt expectedhttpcode timeout) ↔
    ok ⟨.get, h.options .customRequest, .text (cString (client.baseapiuri ++ relativeuri)), []⟩ := by
  simp only [callGet, sends_locked, sends_access, callGetValue, sends_saveSetter, sends_clearBuffer]
  rw [sends_reply fun _ _ => sends_read (by simp) fun _ _ => sends_lift]
  simp [CurlHandle.sends, CurlHandle.setopt, RequestKind.after]

theorem sends_contentLength {f : Int → Request α} : Sends ok h (contentLength >>= f) ↔ ∀ n, Sends ok h (f n) := by
  constructor
  · intro whole n
    exact ((whole.2 true).2 (some n)).2 true
  · intro rest
    refine ⟨fun transfer => ClientAction.noConfusion transfer, fun ready => ?_⟩
    cases ready with
    | false => trivial
    | true =>
      refine ⟨fun transfer => ClientAction.noConfusion transfer, fun length => ?_⟩
      cases length with
      | none => trivial
      | some n =>
        refine ⟨fun transfer => ClientAction.noConfusion transfer, fun again => ?_⟩
        cases again with
        | false => trivial
        | true => exact rest n

end ControllerClient

/-- With some answers the program returns the value. -/
def CanReturn (x : α) : Request α → Prop
  | .returns y => y = x
  | .throws _ => False
  | .acts a next => ∃ r : a.Answer, CanReturn x (next r)

section

variable {α β : Type} {ok : SentRequest → Prop} {h : CurlHandle} {x : α} {p : Request α}

theorem CanReturn.acts {a : ClientAction} {next : a.Answer → Request α} (r : a.Answer)
    (can : CanReturn x (next r)) :
    CanReturn x (.acts a next) := ⟨r, can⟩

theorem CanReturn.guarded {a : ClientAction} (r : a.Answer) (can : CanReturn x p) : CanReturn x (p.guarded a) := by
  induction p with
  | returns y => exact ⟨r, can⟩
  | throws e => exact can.elim
  | acts b next ih =>
    obtain ⟨answer, can⟩ := can
    exact ⟨answer, ih answer can⟩

theorem CanReturn.saveSetter {o : CurlOption} {curvalue newvalue : OptionValue} (can : CanReturn x p) :
    CanReturn x (saveSetter o curvalue newvalue p) := by
  have set : CanReturn x (do setter o newvalue; p) := .acts true can
  exact set.guarded (a := .restore o curvalue) true

theorem CanReturn.locked (can : CanReturn x p) : CanReturn x (locked p) :=
  ⟨(), can.guarded (a := .unlock) ()⟩

theorem canReturn_lift {r : Except Thrown α} (returns : r = .ok x) : CanReturn x (Program.lift r) := by
  subst returns
  rfl

/-- What comes after a value that the program can return. -/
theorem Sends.rest {p : Request β} {f : β → Request α} {x : β} (whole : Sends ok h (p >>= f))
    (can : CanReturn x p) : ∃ g, Sends ok g (f x) := by
  induction p generalizing h with
  | returns y =>
    obtain rfl : y = x := can
    exact ⟨h, whole⟩
  | throws e => exact can.elim
  | acts a next ih =>
    obtain ⟨r, can⟩ := can
    exact ih r (whole.2 r) can

/-- A server that answers a GET with nothing leaves the value as it was. -/
theorem canReturn_callGet (client : ControllerClient) (relativeuri : Text) (pt : Json) (timeout : Double) :
    CanReturn (200, pt) (client.callGet relativeuri pt 200 timeout) := by
  have reply : replyToGetValue client.platform (client.baseapiuri ++ relativeuri) pt 200 200 [] =
      .ok (200, pt) := rfl
  exact .locked <| .acts () <| .saveSetter <| .saveSetter <| .saveSetter <| .acts () <| .saveSetter <|
    .saveSetter <| .saveSetter <|
    .acts true <| .acts (some (200 : Int)) <| .acts ([] : Text) <| canReturn_lift reply

end

/-- What a program has sent and read so far. -/
structure Exchange where
  requested : Bool
  outputs : List Text

namespace Exchange

def next (s : Exchange) : (a : ClientAction) → a.Answer → Exchange
  | .perform, _ => { s with requested := true }
  | .readOutput, output => { s with outputs := s.outputs ++ [output] }
  | _, _ => s

end Exchange

def exchanger : Watcher ClientAction.Answer Exchange := ⟨fun _ _ => True, Exchange.next⟩

/-- However the program returns, the value and what it has sent and read are related. -/
def Finishes (post : α → Exchange → Prop) (s : Exchange) (p : Request α) : Prop :=
  p.Obeys exchanger (fun result t => ∀ x, result = .ok x → post x t) s

section

variable {α β : Type} {post : α → Exchange → Prop} {s : Exchange} {p : Request α}

theorem finishes_throws {e : Thrown} : Finishes post s (.throws e) := by
  intro x impossible
  cases impossible

theorem finishes_returns {x : α} (holds : post x s) : Finishes post s (.returns x) :=
  fun _ same => Except.ok.inj same ▸ holds

theorem Finishes.acts {a : ClientAction} {next : a.Answer → Request α}
    (rest : ∀ r, Finishes post (s.next a r) (next r)) :
    Finishes post s (.acts a next) := ⟨trivial, rest⟩

theorem Finishes.demand {b : Bool} {e : Thrown} {f : Unit → Request α} (rest : Finishes post s (f ())) :
    Finishes post s (demand b e >>= f) := by
  cases b with
  | false => exact finishes_throws
  | true => exact rest

theorem Finishes.setter {o : CurlOption} {v : OptionValue} {f : Unit → Request α} (rest : Finishes post s (f ())) :
    Finishes post s (setter o v >>= f) := Finishes.acts fun _ => rest.demand

theorem Finishes.guarded {a : ClientAction} (quiet : ∀ t r, Exchange.next t a r = t) (body : Finishes post s p) :
    Finishes post s (p.guarded a) := by
  refine Program.Obeys.guarded a body fun r t ended => ⟨trivial, fun answer => ?_⟩
  rw [show exchanger.next t a answer = t from quiet t answer]
  exact ended

theorem Finishes.saveSetter {o : CurlOption} {curvalue newvalue : OptionValue} (scope : Finishes post s p) :
    Finishes post s (saveSetter o curvalue newvalue p) :=
  Finishes.guarded (fun _ _ => rfl) scope.setter

theorem Finishes.locked (scope : Finishes post s p) : Finishes post s (locked p) :=
  Finishes.acts fun _ => scope.guarded fun _ _ => rfl

theorem Finishes.bind {mid : β → Exchange → Prop} {p : Request β} {f : β → Request α} (first : Finishes mid s p)
    (rest : ∀ x t, mid x t → Finishes post t (f x)) : Finishes post s (p >>= f) :=
  Program.Obeys.bind first (fun _ _ _ => finishes_throws) fun x t held => rest x t (held x rfl)

theorem finishes_lift {r : Except Thrown α} (holds : ∀ x, r = .ok x → post x s) :
    Finishes post s (Program.lift r) := by
  cases r with
  | error e => exact finishes_throws
  | ok x => exact finishes_returns (holds x rfl)

theorem Finishes.infoGetter {info : CurlInfo} {f : Int → Request α} (rest : ∀ x, Finishes post s (f x)) :
    Finishes post s (infoGetter info >>= f) := by
  refine Finishes.acts fun value => ?_
  cases value with
  | none => exact finishes_throws
  | some x => exact rest x

theorem Finishes.perform {f : Unit → Request α} (rest : Finishes post { s with requested := true } (f ())) :
    Finishes post s (perform >>= f) :=
  Finishes.acts fun _ => rest.demand

theorem Finishes.contentLength {f : Int → Request α} (rest : ∀ n, Finishes post s (f n)) :
    Finishes post s (ControllerClient.contentLength >>= f) := by
  refine Finishes.acts fun ready => ?_
  cases ready with
  | false => exact finishes_throws
  | true =>
    refine Finishes.acts fun length => ?_
    cases length with
    | none => exact finishes_throws
    | some n =>
      refine Finishes.acts fun again => ?_
      cases again with
      | false => exact finishes_throws
      | true => exact rest n

/-- What a returning run has come to. -/
theorem Finishes.returned {trace : List ClientEvent} {x : α} (finishes : Finishes post s p)
    (ran : p.Reaches trace (.returns x)) : post x (exchanger.after s trace) :=
  (Program.Obeys.run finishes ran) x rfl

end

/-- A transfer among the events is a request. -/
theorem requests_of_requested {trace : List ClientEvent} {s : Exchange} (h : CurlHandle)
    (requested : (exchanger.after s trace).requested = true) : s.requested = true ∨ h.requests trace ≠ [] := by
  induction trace generalizing s h with
  | nil => exact .inl requested
  | cons event rest ih =>
    obtain ⟨a, r⟩ := event
    by_cases transfer : a = .perform
    · subst transfer
      exact .inr (by simp [CurlHandle.requests])
    · rcases ih (h.step ⟨a, r⟩) requested with before | later
      · refine .inl ?_
        cases a <;> first | exact before | exact absurd rfl transfer
      · exact .inr (by simp [CurlHandle.requests, transfer, later])

theorem outputs_of_read {trace : List ClientEvent} {s : Exchange} {output : Text}
    (read : output ∈ (exchanger.after s trace).outputs) :
    output ∈ s.outputs ∨ (⟨.readOutput, output⟩ : ClientEvent) ∈ trace := by
  induction trace generalizing s with
  | nil => exact .inl read
  | cons event rest ih =>
    rcases ih read with before | later
    · obtain ⟨a, r⟩ := event
      cases a with
      | readOutput =>
        rcases List.mem_append.mp before with old | new
        · exact .inl old
        · exact .inr (List.mem_singleton.mp new ▸ List.mem_cons_self)
      | _ => exact .inl before
    · exact .inr (List.mem_cons_of_mem _ later)

namespace ControllerClient

variable (client : ControllerClient) {s : Exchange} {desturi : Text} {expectedhttpcode : Int} {timeout : Double}

theorem finishes_callPostData {data : Text} :
    Finishes (fun _ t => t.requested = true) s (client.callPostData desturi data expectedhttpcode timeout) :=
  .saveSetter <| .saveSetter <| .saveSetter <| .acts fun _ => .saveSetter <| .saveSetter <| .saveSetter <|
    .saveSetter <| .saveSetter <|
    .perform <| .infoGetter fun _ => .acts fun _ => finishes_lift fun _ _ => rfl

theorem finishes_callPostForm {data : List FormPart} :
    Finishes (fun _ t => t.requested = true) s (client.callPostForm desturi data expectedhttpcode timeout) :=
  .saveSetter <| .saveSetter <| .acts fun _ => .saveSetter <| .saveSetter <| .saveSetter <| .saveSetter <|
    .perform <| .infoGetter fun _ => .acts fun _ => finishes_lift fun _ _ => rfl

theorem finishes_callGetVector : Finishes (fun x t => t.requested = true ∧ x.2 ∈ t.outputs) s
    (client.callGetVector desturi expectedhttpcode timeout) := by
  refine .saveSetter <| .saveSetter <| .saveSetter <| .saveSetter <| .saveSetter <| .saveSetter <|
    .perform <| .infoGetter fun code =>
    .acts fun (output : Text) => ?_
  show Finishes _ _ (Program.lift (replyToGetText client.platform desturi expectedhttpcode code output) >>=
      fun code => pure (code, output))
  cases replyToGetText client.platform desturi expectedhttpcode code output with
  | error e => exact finishes_throws
  | ok code => exact finishes_returns ⟨rfl, List.mem_append_right _ (List.mem_singleton.mpr rfl)⟩

end ControllerClient

/-- Nothing fails and the status is one that the caller expects. What restores an option may fail. -/
def Obliging (expected : Int → Bool) : ClientEvent → Prop
  | ⟨.setopt _ _, ok⟩ | ⟨.perform, ok⟩ => ok = true
  | ⟨.getinfo _, value⟩ => ∃ code, value = some code ∧ expected code = true
  | _ => True

/-- The verb and the URL of a request. -/
def SentRequest.asked (request : SentRequest) : OptionValue × OptionValue := (request.verb, request.url)

/-- Follows the handle and what is still to be asked for, as long as the server does what it is asked. -/
structure Following where
  handle : CurlHandle
  asked : List (OptionValue × OptionValue)

open Classical in
noncomputable def follower (expected : Int → Bool) : Watcher ClientAction.Answer (Option Following) where
  allows s a := a = .perform → ∀ f, s = some f → ∃ rest, f.asked = f.handle.sends.asked :: rest
  next s a r := s.bind fun f => if Obliging expected ⟨a, r⟩ then
    some ⟨f.handle.step ⟨a, r⟩, if a = .perform then f.asked.tail else f.asked⟩ else none

/-- A program that returns when the server does what it is asked, and asks for exactly this until then. -/
def Follows {α : Type} (expected : Int → Bool) (post : α → Following → Prop) (f : Following)
    (p : Request α) : Prop :=
  p.Obeys (follower expected) (fun result s => ∀ g, s = some g → ∃ x, result = .ok x ∧ post x g) (some f)

section

variable {α β : Type} {expected : Int → Bool} {post : α → Following → Prop} {h : CurlHandle} {f : Following}
    {p : Request α}

/-- Where the server does something else, nothing is followed. -/
theorem obeys_unfollowed (p : Request α) :
    p.Obeys (follower expected) (fun result s => ∀ g, s = some g → ∃ x, result = .ok x ∧ post x g) none := by
  induction p with
  | returns x | throws e =>
    intro g impossible
    cases impossible
  | acts a next ih =>
    refine ⟨fun _ g impossible => ?_, ih⟩
    cases impossible

theorem follower_next {a : ClientAction} {r : a.Answer} (obliging : Obliging expected ⟨a, r⟩) :
    (follower expected).next (some f) a r =
      some ⟨f.handle.step ⟨a, r⟩, if a = .perform then f.asked.tail else f.asked⟩ := by
  simp [follower, obliging]

theorem follower_next_none {a : ClientAction} {r : a.Answer} (other : ¬Obliging expected ⟨a, r⟩) :
    (follower expected).next (some f) a r = none := by
  simp [follower, other]

theorem Follows.acts {a : ClientAction} {next : a.Answer → Request α} (quiet : a ≠ .perform)
    (rest : ∀ r, Obliging expected ⟨a, r⟩ → Follows expected post ⟨f.handle.step ⟨a, r⟩, f.asked⟩ (next r)) :
    Follows expected post f (.acts a next) := by
  refine ⟨fun transfer => absurd transfer quiet, fun r => ?_⟩
  by_cases obliging : Obliging expected ⟨a, r⟩
  · rw [follower_next obliging, if_neg quiet]
    exact rest r obliging
  · rw [follower_next_none obliging]
    exact obeys_unfollowed _

theorem Follows.act {a : ClientAction} {next : a.Answer → Request α} (quiet : a ≠ .perform)
    (rest : ∀ r, Obliging expected ⟨a, r⟩ → Follows expected post ⟨f.handle.step ⟨a, r⟩, f.asked⟩ (next r)) :
    Follows expected post f (act a >>= next) := Follows.acts quiet rest

theorem Follows.setter {o : CurlOption} {v : OptionValue} {next : Unit → Request α}
    (rest : Follows expected post ⟨f.handle.setopt o v, f.asked⟩ (next ())) :
    Follows expected post f (setter o v >>= next) := by
  refine Follows.acts (by simp) fun ok obliging => ?_
  obtain rfl : ok = true := obliging
  exact rest

/-- Whether the option is restored or not. -/
theorem Follows.saveSetter {o : CurlOption} {curvalue newvalue : OptionValue} {mid : α → Following → Prop}
    (scope : Follows expected mid ⟨f.handle.setopt o newvalue, f.asked⟩ p)
    (leaves : ∀ x g ok, mid x g → post x ⟨g.handle.step ⟨.restore o curvalue, ok⟩, g.asked⟩) :
    Follows expected post f (saveSetter o curvalue newvalue p) := by
  refine Program.Obeys.guarded _ (Follows.setter scope) fun result s ended =>
    ⟨fun transfer => absurd transfer (by simp), fun ok g same => ?_⟩
  cases s with
  | none => cases same
  | some f =>
    obtain ⟨x, returned, held⟩ := ended f rfl
    rw [follower_next (by trivial), Option.some.injEq] at same
    subst same
    exact ⟨x, returned, leaves x f ok held⟩

theorem Follows.bind {mid : β → Following → Prop} {p : Request β} {next : β → Request α}
    (first : Follows expected mid f p)
    (rest : ∀ x g, mid x g → Follows expected post g (next x)) : Follows expected post f (p >>= next) := by
  refine Program.Obeys.bind first (fun e s ended g same => ?_) fun x s ended => ?_
  · obtain ⟨_, impossible, -⟩ := ended g same
    cases impossible
  · cases s with
    | none => exact obeys_unfollowed _
    | some g =>
      obtain ⟨_, same, held⟩ := ended g rfl
      obtain rfl := Except.ok.inj same
      exact rest x g held

theorem follows_returns {x : α} (holds : post x f) : Follows expected post f (.returns x) := by
  rintro g same
  obtain rfl := Option.some.inj same
  exact ⟨x, rfl, holds⟩

theorem Follows.reply {info : CurlInfo} {next : Int → Request α} {rest : List (OptionValue × OptionValue)}
    (asks : f.asked = f.handle.sends.asked :: rest)
    (later : ∀ code, expected code = true → Follows expected post ⟨f.handle, rest⟩ (next code)) :
    Follows expected post f (perform >>= fun _ => infoGetter info >>= next) := by
  refine ⟨fun _ g same => ⟨rest, Option.some.inj same ▸ asks⟩, fun ok => ?_⟩
  cases ok with
  | false =>
    rw [follower_next_none (by simp [Obliging])]
    exact obeys_unfollowed _
  | true =>
    have answered : Obliging expected ⟨.perform, true⟩ := rfl
    rw [follower_next answered, if_pos rfl, asks, List.tail_cons]
    refine Follows.acts (by simp) fun value obliging => ?_
    obtain ⟨code, rfl, wanted⟩ := obliging
    exact later code wanted

/-- What such a program has asked for on the way and at its end. -/
theorem Follows.run {q : Request α} {trace : List ClientEvent} (follows : Follows expected post f p)
    (ran : p.Reaches trace q) (obliging : ∀ event ∈ trace, Obliging expected event) :
    ∃ rest, f.asked = (f.handle.requests trace).map SentRequest.asked ++ rest ∧
      Follows expected post ⟨f.handle.after trace, rest⟩ q := by
  induction trace generalizing p f with
  | nil => exact ⟨f.asked, rfl, Option.some.inj ran ▸ follows⟩
  | cons event trace ih =>
    obtain ⟨a, r⟩ := event
    obtain ⟨next, taken, ran⟩ := Option.bind_eq_some_iff.mp ran
    obtain ⟨allowed, later⟩ := Program.Obeys.step follows taken
    obtain ⟨here, there⟩ := List.forall_mem_cons.mp obliging
    rw [follower_next here] at later
    obtain ⟨rest, asked, follows⟩ := ih later ran there
    refine ⟨rest, ?_, follows⟩
    by_cases transfer : a = .perform
    · obtain ⟨more, first⟩ := allowed transfer f rfl
      rw [if_pos transfer, first, List.tail_cons] at asked
      rw [CurlHandle.requests, if_pos transfer, first]
      exact congrArg (f.handle.sends.asked :: ·) asked
    · rw [if_neg transfer] at asked
      rw [CurlHandle.requests, if_neg transfer]
      exact asked

theorem Follows.ended {q : Request α} (follows : Follows expected post f q) (ended : q.Ended) :
    ∃ x, q = .returns x ∧ post x f := by
  cases q with
  | returns x =>
    obtain ⟨y, same, held⟩ := follows f rfl
    exact ⟨x, rfl, Except.ok.inj same ▸ held⟩
  | throws e =>
    obtain ⟨_, impossible, -⟩ := follows f rfl
    cases impossible
  | acts a next => exact ended.elim

end

end MujinClient
