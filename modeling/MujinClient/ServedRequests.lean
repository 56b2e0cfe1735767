import MujinClient.Attempts
import MujinClient.ClientRuns
import MujinClient.Interpreters
import MujinClient.JsonFaithful

/-! The client against a server. Libcurl accepts every option; what a transfer brings is up to the
server, which may also let it fail. -/
namespace MujinClient

open Request

section

variable {platform : Platform} {uri body : Text} {pt : Json} {expectedhttpcode code : Int} {x : Int × Json}

/-- What is made of a document when the status is not as expected. -/
theorem bind_throw_ne_ok {α : Type} {parsed : Except Thrown Json} {message : Json → Except Thrown Text}
    {error : Text → Thrown} {y : α} :
    (parsed >>= fun d => message d >>= fun m => (throw (error m) : Except Thrown α)) ≠ .ok y := by
  intro same
  cases parsed with
  | error e => cases same
  | ok d => cases known : message d <;> simp [bind, Except.bind, known] at same

theorem map_code_eq_ok (code : Int) (parsed : Except Thrown Json) :
    Prod.mk code <$> parsed = .ok x ↔ x.1 = code ∧ parsed = .ok x.2 := by
  obtain ⟨status, doc⟩ := x
  cases parsed with
  | error e => simp [Functor.map, Except.map]
  | ok d => simp [Functor.map, Except.map, eq_comm]

theorem replyToGetValue_eq_ok (expected : expectedhttpcode ≠ 0) :
    replyToGetValue platform uri pt expectedhttpcode code body = .ok x ↔
      code = expectedhttpcode ∧ x.1 = code ∧ (if body ≠ [] then parseJsonStream body else .ok pt) = .ok x.2 := by
  by_cases same : code = expectedhttpcode
  · by_cases empty : body = []
    · simp only [replyToGetValue, same, empty, ne_eq, not_true_eq_false, and_false, if_false, true_and]
      exact map_code_eq_ok _ (.ok pt)
    · simpa [replyToGetValue, same, empty] using map_code_eq_ok expectedhttpcode _
  · simp only [replyToGetValue, expected, same, ne_eq, not_false_eq_true, and_self, if_true, false_and, iff_false]
    split <;> exact bind_throw_ne_ok

theorem replyToPost_eq_ok (expected : expectedhttpcode ≠ 0) :
    replyToPost platform uri expectedhttpcode code body = .ok x ↔
      code = expectedhttpcode ∧ x.1 = code ∧
        (if body ≠ [] then parseJsonStream body else .ok (.object [])) = .ok x.2 := by
  by_cases same : code = expectedhttpcode
  · by_cases empty : body = []
    · simp only [replyToPost, same, empty, ne_eq, not_true_eq_false, and_false, if_false, true_and]
      exact map_code_eq_ok _ (.ok (.object []))
    · simpa [replyToPost, same, empty] using map_code_eq_ok expectedhttpcode _
  · simp only [replyToPost, expected, same, ne_eq, not_false_eq_true, and_self, if_true, false_and, iff_false]
    split <;> exact bind_throw_ne_ok

theorem replyToPut_eq_ok (expected : expectedhttpcode ≠ 0) :
    replyToPut platform uri expectedhttpcode code body = .ok x ↔
      code = expectedhttpcode ∧ x.1 = code ∧ (if body ≠ [] then parseJsonText body else .ok (.object [])) =
        .ok x.2 := by
  by_cases same : code = expectedhttpcode
  · by_cases empty : body = []
    · simp only [replyToPut, same, empty, ne_eq, not_true_eq_false, and_false, if_false, true_and]
      exact map_code_eq_ok _ (.ok (.object []))
    · simpa [replyToPut, same, empty] using map_code_eq_ok expectedhttpcode _
  · simp only [replyToPut, expected, same, ne_eq, not_false_eq_true, and_self, if_true, false_and, iff_false]
    split <;> exact bind_throw_ne_ok

/-- A document that is printed is read back. -/
theorem parseJsonStream_dumpJson (platform : Platform) {doc : Json} (printable : Printable platform doc) :
    parseJsonStream (dumpJson platform doc) = .ok doc := by
  have read := readJson_dumpJson clientToken_reader platform doc printable
  rw [parseJsonStream, cString_of_nulFree _ (nulFree_of_readJson read), read]

end

structure WebCall where
  method : Text
  url : Text
  data : Text
  deriving DecidableEq

structure WebReply where
  status : Int
  body : Text

def ControllerClient.webCall (client : ControllerClient) (method : String) (relativeuri data : Text) : WebCall :=
  ⟨lit method, cString (client.baseapiuri ++ relativeuri), data⟩

/-- How a server answers in a state, and its state afterwards. Without a reply the transfer has failed;
the server may have done what it was asked or not. -/
abbrev WebServer (σ : Type) := σ → WebCall → Option WebReply × σ

abbrev Answered := WebCall × Option WebReply

/-- The server, with a record of all that it is asked. -/
def WebServer.recorded {σ : Type} (server : WebServer σ) : WebServer (σ × List Answered) := fun s call =>
  let done := server s.1 call
  (done.1, done.2, s.2 ++ [(call, done.1)])

namespace SentRequest

/-- The custom verb if there is one, and otherwise the one of the kind of the request. -/
def method (request : SentRequest) : Text :=
  match request.verb with
  | .text verb => verb
  | _ =>
    match request.kind with
    | .get => lit "GET"
    | .head => lit "HEAD"
    | .post | .multipart => lit "POST"

def call (request : SentRequest) : WebCall where
  method := request.method
  url := match request.url with
    | .text url => url
    | _ => []
  data := match request.body with
    | [_, .data data] => data
    | _ => []

end SentRequest

/-- The handle of a client, its server and the reply to its last transfer. -/
structure Session (σ : Type) where
  handle : CurlHandle
  server : σ
  reply : WebReply

namespace Session

variable {σ α β : Type} (server : WebServer σ)

def transfer (w : Session σ) : Bool × Session σ :=
  match server w.server w.handle.sends.call with
  | (some reply, s) => (true, { w with server := s, reply })
  | (none, s) => (false, { w with server := s })

/-- Only transfers can fail. -/
def environment : Environment ClientAction.Answer (Session σ) := fun w a =>
  match a with
  | .setopt o v | .restore o v => (true, { w with handle := w.handle.setopt o v })
  | .perform => w.transfer server
  | .getinfo .responseCode => (some w.reply.status, w)
  | .getinfo .fileTime => (some (-1 : Int), w)
  | .readBuffer | .readOutput => (w.reply.body, w)
  | .tell => (some (0 : Int), w)
  | .seek | .openFile _ | .calls => (true, w)
  | .profile => (Json.null, w)
  | .lock | .unlock | .access _ | .clearBuffer => ((), w)

/-- The outcome of an operation, and the session after it. -/
def run (p : Request α) : Loading Thrown (Session σ) α := p.play (environment server)

/-- One call and what is made of its reply. -/
def exchange (call : WebCall) (read : WebReply → Except Thrown α) : Loading Thrown σ α := fun s =>
  match server s call with
  | (some reply, s) => (read reply, s)
  | (none, s) => (.error (curlError "curl_easy_perform"), s)

/-- On a handle as the constructor leaves it, the operation does to the server what the computation does. -/
def Serves (p : Request α) (q : Loading Thrown σ α) : Prop :=
  Program.Implements (environment server) (fun w => w.handle.Unset) Session.server p q

variable {server} {w : Session σ}

theorem handle_environment (a : ClientAction) :
    (environment server w a).2.handle = w.handle.step ⟨a, (environment server w a).1⟩ := by
  cases a with
  | perform =>
    show (w.transfer server).2.handle = w.handle
    unfold transfer
    split <;> rfl
  | getinfo info => cases info <;> rfl
  | _ => rfl

theorem handle_run (p : Request α) (w : Session σ) :
    (run server p w).2.handle = w.handle.after (p.played (environment server) w) := by
  induction p generalizing w with
  | returns x | throws e => rfl
  | acts a next ih =>
    have rest := ih (environment server w a).1 (environment server w a).2
    rw [handle_environment] at rest
    exact rest

theorem restores_played (p : Request α) (w : Session σ) : RestoresSucceed (p.played (environment server) w) := by
  intro o v member
  have succeeds :=
    Program.played_answers (fun event => ∀ o v, event ≠ ⟨.restore o v, false⟩) (fun w a o v same => ?_) p w
      _ member o v
  · exact succeeds rfl
  · cases a <;> cases same

/-- Every operation leaves the handle as the constructor does. -/
theorem unset_script (server : WebServer σ) (client : ControllerClient) (op : Operation) (unset : w.handle.Unset) :
    (run server (client.script op) w).2.handle.Unset := by
  rw [handle_run]
  have completed : client.Completed [(op, (client.script op).played (environment server) w)] := by
    intro call member
    obtain rfl := List.mem_singleton.mp member
    refine ⟨_, Program.run_played _ _ _, ?_⟩
    cases ((client.script op).play (environment server) w).1 <;> trivial
  have restored : RestoresSucceed
      (ControllerClient.events [(op, (client.script op).played (environment server) w)]) := by
    rw [ControllerClient.events, List.flatMap_singleton]
    exact restores_played _ w
  have left := client.unset_after_history unset completed restored
  rwa [ControllerClient.events, List.flatMap_singleton] at left

theorem run_bind (p : Request α) (f : α → Request β) :
    run server (p >>= f) = run server p >>= fun x => run server (f x) :=
  Program.play_bind f

theorem run_lift (r : Except Thrown α) : run server (Program.lift r) = Loading.lift r := Program.play_lift

theorem run_pure (x : α) : run server (pure x) = pure x := rfl

theorem run_forM (xs : List α) (f : α → Request Unit) :
    run server (xs.forM f) = xs.forM fun x => run server (f x) := by
  induction xs with
  | nil => rfl
  | cons x xs ih =>
    have turn : run server ((x :: xs).forM f) = run server (f x) >>= fun _ => run server (xs.forM f) :=
      run_bind (f x) fun _ => xs.forM f
    rw [turn, ih]
    rfl

theorem run_saveSetter (o : CurlOption) (curvalue newvalue : OptionValue) (scope : Request α) :
    run server (saveSetter o curvalue newvalue scope) w =
      let done := run server scope { w with handle := w.handle.setopt o newvalue }
      (done.1, { done.2 with handle := done.2.handle.setopt o curvalue }) := Program.play_guarded

theorem run_locked (scope : Request α) : run server (locked scope) w = run server scope w :=
  (Program.play_guarded (E := environment server) (a := .unlock)).trans rfl

theorem run_access (s : Scratch) (p : Request α) : run server (do act (.access s); p) w = run server p w := rfl

theorem run_clearBuffer (p : Request α) : run server (do act .clearBuffer; p) w = run server p w := rfl

theorem run_reply (read : Int → Text → Except Thrown α) :
    run server (do
        perform
        let code ← infoGetter .responseCode
        let body ← act .readBuffer
        Program.lift (read code body)) w =
      let done := exchange server w.handle.sends.call (fun reply => read reply.status reply.body) w.server
      (done.1, { w with server := done.2, reply := (server w.server w.handle.sends.call).1.getD w.reply }) := by
  show run server (.acts .perform fun ok => demand ok (curlError "curl_easy_perform") >>= fun _ =>
      infoGetter .responseCode >>= fun code =>
    act .readBuffer >>= fun body => Program.lift (read code body)) w = _
  unfold run
  rw [Program.play_acts]
  unfold exchange
  have answered : environment server w .perform = w.transfer server := rfl
  rw [answered, transfer]
  rcases server w.server w.handle.sends.call with ⟨_ | reply, s⟩
  · rfl
  · show (Program.lift (read reply.status reply.body)).play _ _ = _
    rw [Program.play_lift]
    rfl

variable (client : ControllerClient) (relativeuri : Text) (expectedhttpcode : Int) (timeout : Double)

theorem serves_callGet (pt : Json) : Serves server (client.callGet relativeuri pt expectedhttpcode timeout)
    (exchange server ⟨lit "GET", cString (client.baseapiuri ++ relativeuri), []⟩ fun reply =>
      replyToGetValue client.platform (client.baseapiuri ++ relativeuri) pt expectedhttpcode reply.status
        reply.body) := by
  intro w unset
  show (run server _ w).1 = _ ∧ (run server _ w).2.server = _ ∧ (run server _ w).2.handle.Unset
  unfold ControllerClient.callGet ControllerClient.callGetValue
  rw [run_locked, run_access]
  simp only [run_saveSetter, run_clearBuffer, run_reply]
  have call : (((((((w.handle.setopt .timeoutMs (client.timeoutValue timeout)).setopt .httpHeader
      (.headers .json)).setopt .url
      (.text (cString (client.baseapiuri ++ relativeuri)))).setopt .writeFunction
        (.function .writeStringStream)).setopt .writeData
      (.sink .buffer)).setopt .httpGet (.long 1)).sends).call =
        ⟨lit "GET", cString (client.baseapiuri ++ relativeuri), []⟩ := by
    have verb : w.handle.options .customRequest = .null := unset .customRequest rfl
    simp [CurlHandle.sends, CurlHandle.setopt, RequestKind.after, SentRequest.call, SentRequest.method, verb]
  rw [call]
  refine ⟨rfl, rfl, ?_⟩
  intro o ofRequest
  have known := unset o ofRequest
  cases o <;> simp_all [CurlHandle.setopt, CurlOption.unset, CurlOption.ofClient]

theorem serves_callPost (data : Text) : Serves server (client.callPost relativeuri data expectedhttpcode timeout)
    (exchange server ⟨lit "POST", cString (client.baseapiuri ++ relativeuri), data⟩ fun reply =>
      replyToPost client.platform (client.baseapiuri ++ relativeuri) expectedhttpcode reply.status
        reply.body) := by
  intro w unset
  show (run server _ w).1 = _ ∧ (run server _ w).2.server = _ ∧ (run server _ w).2.handle.Unset
  unfold ControllerClient.callPost ControllerClient.callPostData
  rw [run_locked, run_access]
  simp only [run_saveSetter, run_clearBuffer, run_reply]
  have verb : w.handle.options .customRequest = .null := unset .customRequest rfl
  have sent : (if data ≠ [] then OptionValue.data data else .null) = .null ∧ data = [] ∨
      (if data ≠ [] then OptionValue.data data else .null) = .data data := by
    by_cases empty : data = [] <;> simp [empty]
  generalize (if data ≠ [] then OptionValue.data data else OptionValue.null) = fields at sent ⊢
  have call : (((((((((w.handle.setopt .timeoutMs (client.timeoutValue timeout)).setopt .httpHeader
      (.headers .json)).setopt .url
      (.text (cString (client.baseapiuri ++ relativeuri)))).setopt .writeFunction
        (.function .writeStringStream)).setopt .writeData
      (.sink .buffer)).setopt .post (.long 1)).setopt .postFieldSize (.long data.length)).setopt .postFields
        fields).sends).call =
        ⟨lit "POST", cString (client.baseapiuri ++ relativeuri), data⟩ := by
    rcases sent with ⟨rfl, rfl⟩ | rfl <;>
      simp [CurlHandle.sends, CurlHandle.setopt, RequestKind.after, SentRequest.call, SentRequest.method, verb]
  rw [call]
  refine ⟨rfl, rfl, ?_⟩
  intro o ofRequest
  have known := unset o ofRequest
  cases o <;> simp_all [CurlHandle.setopt, CurlOption.unset, CurlOption.ofClient]

theorem serves_callPut (pdata : Text) (headers : HeaderList) : Serves server
    (client.callPut relativeuri pdata headers expectedhttpcode timeout)
    (exchange server ⟨lit "PUT", cString (client.baseapiuri ++ relativeuri), pdata⟩ fun reply =>
      replyToPut client.platform relativeuri expectedhttpcode reply.status reply.body) := by
  intro w unset
  show (run server _ w).1 = _ ∧ (run server _ w).2.server = _ ∧ (run server _ w).2.handle.Unset
  unfold ControllerClient.callPut
  rw [run_locked]
  simp only [run_saveSetter, run_access, run_clearBuffer, run_reply]
  have call : (((((((((w.handle.setopt .httpHeader (.headers headers)).setopt .timeoutMs
      (client.timeoutValue timeout)).setopt .url
      (.text (cString (client.baseapiuri ++ relativeuri)))).setopt .writeFunction
        (.function .writeStringStream)).setopt .writeData
      (.sink .buffer)).setopt .customRequest (.text (lit "PUT"))).setopt .postFieldSize
        (.long pdata.length)).setopt .postFields
      (.data pdata)).sends).call = ⟨lit "PUT", cString (client.baseapiuri ++ relativeuri), pdata⟩ := by
    simp [CurlHandle.sends, CurlHandle.setopt, RequestKind.after, SentRequest.call, SentRequest.method]
  rw [call]
  refine ⟨rfl, rfl, ?_⟩
  intro o ofRequest
  have known := unset o ofRequest
  cases o <;> simp_all [CurlHandle.setopt, CurlOption.unset, CurlOption.ofClient]

/-- Whatever kind of request the handle was left with, a DELETE brings no data. -/
theorem serves_callDelete : Serves server (client.callDelete relativeuri expectedhttpcode timeout)
    (exchange server ⟨lit "DELETE", cString (client.baseapiuri ++ relativeuri), []⟩ fun reply =>
      replyToDelete client.platform relativeuri expectedhttpcode reply.status reply.body) := by
  intro w unset
  show (run server _ w).1 = _ ∧ (run server _ w).2.server = _ ∧ (run server _ w).2.handle.Unset
  unfold ControllerClient.callDelete
  rw [run_locked]
  simp only [run_saveSetter, run_access, run_clearBuffer, run_reply]
  have call : (((((((w.handle.setopt .timeoutMs (client.timeoutValue timeout)).setopt .httpHeader
      (.headers .json)).setopt .url
      (.text (cString (client.baseapiuri ++ relativeuri)))).setopt .customRequest
        (.text (lit "DELETE"))).setopt .writeFunction
      (.function .writeStringStream)).setopt .writeData (.sink .buffer)).sends).call =
        ⟨lit "DELETE", cString (client.baseapiuri ++ relativeuri), []⟩ := by
    have fields : w.handle.options .postFields = .null := unset .postFields rfl
    cases kind : w.handle.kind <;>
      simp [CurlHandle.sends, CurlHandle.setopt, RequestKind.after, SentRequest.call, SentRequest.method,
        kind, fields]
  rw [call]
  refine ⟨rfl, rfl, ?_⟩
  intro o ofRequest
  have known := unset o ofRequest
  cases o <;> simp_all [CurlHandle.setopt, CurlOption.unset, CurlOption.ofClient]

/-- The handle is as the constructor leaves it. -/
def Ready (w : Session σ) : Prop := w.handle.Unset

variable {p : Request α} {call : WebCall} {read : WebReply → Except Thrown α}

theorem exchange_some {s t : σ} {reply : WebReply} (answered : server s call = (some reply, t)) :
    exchange server call read s = (read reply, t) := by
  unfold exchange
  rw [answered]

theorem exchange_none {s t : σ} (failed : server s call = (none, t)) :
    exchange server call read s = (.error (curlError "curl_easy_perform"), t) := by
  unfold exchange
  rw [failed]

theorem observes_exchange {τ : Type} {values : σ → τ} {post : τ → α → Prop}
    (serves : Serves server p (exchange server call read))
    (quiet : ∀ s, values (server s call).2 = values s)
    (reads : ∀ s reply a, (server s call).1 = some reply → read reply = .ok a → post (values s) a) :
    Loading.Observes Ready (fun w => values w.server) post (run server p) := by
  intro w unset
  obtain ⟨outcome, left, ready⟩ := serves w unset
  have same := quiet w.server
  rcases answered : server w.server call with ⟨_ | reply, t⟩
  · rw [exchange_none answered] at outcome left
    rw [answered] at same
    refine ⟨ready, (congrArg values left).trans same, fun a returned => ?_⟩
    cases outcome.symm.trans returned
  · rw [exchange_some answered] at outcome left
    rw [answered] at same
    refine ⟨ready, (congrArg values left).trans same, fun a returned => ?_⟩
    exact reads w.server reply a (by rw [answered]) (outcome.symm.trans returned)

theorem parsed_eq {body : Text} {pt doc found : Json} (known : parseJsonStream body = .ok doc)
    (parsed : (if body ≠ [] then parseJsonStream body else .ok pt) = .ok found) : found = doc := by
  by_cases empty : body = []
  · subst empty
    cases known
  · rw [if_pos empty, known] at parsed
    exact (Except.ok.inj parsed).symm

/-- A GET from a server that answers it, if at all, with a document about what it has. -/
theorem observes_callGet {τ : Type} {values : σ → τ} {good : τ → Json → Prop} (pt : Json)
    (answers : ∀ s, let done := server s ⟨lit "GET", cString (client.baseapiuri ++ relativeuri), []⟩
      values done.2 = values s ∧ ∀ reply, done.1 = some reply → reply.status = 200 →
        ∃ doc, parseJsonStream reply.body = .ok doc ∧ good (values s) doc) :
    Loading.Observes Ready (fun w => values w.server) (fun t x => good t x.2)
    (run server (client.callGet relativeuri pt 200 timeout)) := by
  refine observes_exchange (serves_callGet client relativeuri 200 timeout pt) (fun s => (answers s).1)
    fun s reply x answered accepted => ?_
  obtain ⟨status, -, parsed⟩ := (replyToGetValue_eq_ok (by decide)).mp accepted
  obtain ⟨doc, known, holds⟩ := (answers s).2 reply answered status
  rw [parsed_eq known parsed]
  exact holds

theorem stages_exchange {K V : Type} [DecidableEq K] {values : σ → K → V} {key : K} {v : V}
    (serves : Serves server p (exchange server call read))
    (either : ∀ s, values (server s call).2 = Function.update (values s) key v ∨
      values (server s call).2 = values s ∧ ∀ reply, (server s call).1 = some reply → ∃ e, read reply = .error e) :
    Loading.Stages Ready (fun w => values w.server) v [key] (fun _ => True) (run server p) := by
  refine Loading.stages_single (fun w unset => (serves w unset).2.2) (fun w unset => ?_) fun _ _ _ => trivial
  obtain ⟨outcome, left, -⟩ := serves w unset
  have here := either w.server
  rcases answered : server w.server call with ⟨_ | reply, t⟩
  · rw [exchange_none answered] at outcome left
    rw [answered] at here
    rcases here with set | ⟨kept, -⟩
    · exact .inl ((congrArg values left).trans set)
    · exact .inr ⟨(congrArg values left).trans kept, _, outcome⟩
  · rw [exchange_some answered] at outcome left
    rw [answered] at here
    rcases here with set | ⟨kept, refused⟩
    · exact .inl ((congrArg values left).trans set)
    · obtain ⟨e, failed⟩ := refused reply rfl
      exact .inr ⟨(congrArg values left).trans kept, e, outcome.trans failed⟩

theorem relates_exchange {τ : Type} {values : σ → τ} {R : τ → τ → Prop} {post : τ → τ → α → Prop}
    (serves : Serves server p (exchange server call read))
    (related : ∀ s, R (values s) (values (server s call).2))
    (reads : ∀ s reply a, (server s call).1 = some reply → read reply = .ok a →
      post (values s) (values (server s call).2) a) :
    Loading.Relates Ready (fun w => values w.server) R post (run server p) := by
  intro w unset
  obtain ⟨outcome, left, ready⟩ := serves w unset
  have state : ∀ t, (exchange server call read w.server).2 = t → values (run server p w).2.server = values t :=
    fun t same => congrArg values (left.trans same)
  have here := related w.server
  have later := reads w.server
  refine ⟨ready, ?_⟩
  dsimp only
  rcases answered : server w.server call with ⟨_ | reply, t⟩ <;> rw [answered] at here later
  · rw [exchange_none answered] at outcome state
    rw [state t rfl]
    refine ⟨here, fun a returned => ?_⟩
    cases outcome.symm.trans returned
  · rw [exchange_some answered] at outcome state
    rw [state t rfl]
    exact ⟨here, fun a returned => later reply a rfl (outcome.symm.trans returned)⟩

def record (w : Session (σ × List Answered)) : List Answered := w.server.2

def outcomeOf (read : WebReply → Except Thrown α) : Option WebReply → Except Thrown α
  | some reply => read reply
  | none => .error (curlError "curl_easy_perform")

/-- A single call, whose reply decides the outcome. -/
def SpeaksOnce (call : WebCall) (read : WebReply → Except Thrown α) (said : List Answered)
    (outcome : Except Thrown α) : Prop :=
  ∃ reply, said = [(call, reply)] ∧ outcome = outcomeOf read reply

theorem speaks_exchange {p : Request α} {call : WebCall} {read : WebReply → Except Thrown α}
    (serves : Serves server.recorded p (exchange server.recorded call read)) :
    Loading.Speaks Ready record (SpeaksOnce call read) (run server.recorded p) := by
  intro w unset
  obtain ⟨outcome, left, ready⟩ := serves w unset
  have recorded : ∀ t, (exchange server.recorded call read w.server).2 = t →
      record (run server.recorded p w).2 = t.2 :=
    fun t same => congrArg Prod.snd (left.trans same)
  refine ⟨ready, [(call, (server w.server.1 call).1)], ?_, _, rfl, ?_⟩
  · rcases answered : server w.server.1 call with ⟨_ | reply, t⟩
    · have known : server.recorded w.server call = (none, t, w.server.2 ++ [(call, none)]) := by
        rw [WebServer.recorded, answered]
      rw [exchange_none known] at recorded
      exact recorded _ rfl
    · have known : server.recorded w.server call = (some reply, t, w.server.2 ++ [(call, some reply)]) := by
        rw [WebServer.recorded, answered]
      rw [exchange_some known] at recorded
      exact recorded _ rfl
  · rcases answered : server w.server.1 call with ⟨_ | reply, t⟩
    · have known : server.recorded w.server call = (none, t, w.server.2 ++ [(call, none)]) := by
        rw [WebServer.recorded, answered]
      rw [exchange_none known] at outcome
      exact outcome
    · have known : server.recorded w.server call = (some reply, t, w.server.2 ++ [(call, some reply)]) := by
        rw [WebServer.recorded, answered]
      rw [exchange_some known] at outcome
      exact outcome

end Session

end MujinClient
