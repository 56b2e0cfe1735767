import MujinClient.ExecuteCommand
import MujinClient.JsonTypes
import MujinClient.ReplyParsers
import MujinClient.ResourceRequests
import MujinClient.Rounding
import MujinClient.ServedRequests

/-! `ExecuteCommand` of a `BinPickingTaskResource`: over HTTP, where the result is polled for. -/
namespace MujinClient

open Request

def TaskResource.execute (client : ControllerClient) (primaryKey : Text) : Request Text := do
  let (_, pt) ← client.callPost (lit "job/")
      (lit "\x7b\"resource_type\":\"task\", \"target_pk\":" ++ primaryKey ++ lit "\x7d") 200
    ControllerClient.defaultTimeout
  client.stringOf pt "jobpk"

def BinPickingResultResource.getResultJson (client : ControllerClient) (primaryKey : Text) (pt : Json) :
    Request Json := do
  let (_, pt) ← client.callGet (lit "binpickingresult/" ++ primaryKey ++ lit "/?format=json&limit=1") pt 200
      ControllerClient.defaultTimeout
  Program.lift ((memberOf pt "output").mapError .load)

namespace BinPickingTaskResource

variable (client : ControllerClient) (primaryKey : Text)

/-- What `ExecuteCommand` sends for a text. `stamp` is the clock's value in seconds. -/
def commandText (r : TaskResource) (stamp : Double) (taskparameters : Text) : Text :=
  lit "\x7b\"tasktype\": \"" ++ r.tasktype ++ lit "\", \"taskparameters\": " ++ taskparameters ++ lit ", " ++
  lit "\"sceneparams\": " ++ r.sceneparams_json client.platform ++ lit ", " ++
  lit "\"userinfo\": " ++ r.userinfo_json ++ lit ", " ++
  streamIf (r.slaverequestid ≠ []) (getJsonStringValue "slaverequestid" r.slaverequestid ++ lit ", ") ++
  lit "\"stamp\": " ++ printDouble 16 stamp ++ lit ", " ++
  lit "\"callerid\": \"" ++ r.callerid ++ lit "\"" ++ lit "\x7d"

/-- A result that is there, unless it tells of an error. Without a key the constructor gets what an
unconstructed string reads as. -/
def foundResult (unconstructed : Text) (object : Json) : Request Text := do
  let pk ← Program.lift ((getJsonValueByKey client.platform .string object "pk" unconstructed).mapError .load)
  demand (!pk.isEmpty) (.load .assertion)
  let erroptional ← client.stringOf object "errormessage"
  demand (erroptional = [] ∨ erroptional = lit "succeed") (.mujin ⟨erroptional, .binPickingError⟩)
  return pk

def getResult (unconstructed : Text) : Request (Option Text) := do
  let (_, pt) ← client.callGet (lit "task/" ++ primaryKey ++
      lit "/result/?format=json&limit=1&optimization=None&fields=pk,errormessage")
    (.object []) 200 ControllerClient.defaultTimeout
  match firstObject? pt with
  | some object => some <$> foundResult client unconstructed object
  | none => return none

/-- The seconds that the loop has counted after some rounds. -/
def secondspassed : Nat → Double
  | 0 => Double.zero
  | rounds + 1 => (secondspassed rounds).add (Double.ofDecimal false 1 (-1))

/-- `timeout != 0 && secondspassed > timeout` -/
def expired (timeout secondspassed : Double) : Bool := !timeout.equal Double.zero && timeout.lt secondspassed

def timedOut (secondspassed : Double) : Thrown :=
  .mujin ⟨lit "operation timed out after " ++ printDouble 16 secondspassed ++
    lit " seconds, cancelling all jobs and quitting", .timeout⟩

/-- The loop, for so many rounds: without a result if it has not ended by then. -/
def poll (unconstructed : Text) (rResult : Json) (timeout : Double) (getresult : Bool) :
    Nat → Double → Request (Option Json)
  | 0, _ => return none
  | rounds + 1, secondspassed => do
    match ← getResult client primaryKey unconstructed with
    | some resultresource =>
      if getresult then return some (← BinPickingResultResource.getResultJson client resultresource rResult)
      else return some rResult
    | none =>
      let secondspassed := secondspassed.add (Double.ofDecimal false 1 (-1))
      if expired timeout secondspassed then
        client.callDelete (lit "job/?format=json") 204 ControllerClient.defaultTimeout
        .throws (timedOut secondspassed)
      else poll unconstructed rResult timeout getresult rounds secondspassed

/-- What the caller's document holds afterwards, if the loop ends within so many rounds. -/
def executeCommand (unconstructed : Text) (r : TaskResource) (initialized : Bool) (stamp : Double)
    (taskparameters : Text) (rResult : Json)
    (timeout : Double) (getresult : Bool) (rounds : Nat) : Request (Option Json) := do
  demand initialized (.mujin ⟨lit "BinPicking task is not initialized, please call Initialzie() first.", .failed⟩)
  let _ ← client.callPut (lit "task/" ++ primaryKey ++ lit "/?format=json")
      (commandText client r stamp taskparameters) .json 202
    ControllerClient.defaultTimeout
  let _ ← TaskResource.execute client primaryKey
  poll client primaryKey unconstructed rResult timeout getresult rounds Double.zero

end BinPickingTaskResource

/-- Not the failure that a timeout is reported with. -/
def Untimed {α : Type} (outcome : Except Thrown α) : Prop := ∀ text, outcome ≠ .error (.mujin ⟨text, .timeout⟩)

section

variable {α β : Type}

@[simp] theorem untimed_ok (a : α) : Untimed (.ok a : Except Thrown α) := fun _ same => by cases same

@[simp] theorem untimed_load (outcome : Except LoadError α) : Untimed (outcome.mapError .load) := by
  intro text same
  cases outcome <;> cases same

theorem untimed_invalidJson : Untimed (.error .invalidJson : Except Thrown α) := fun _ same => by cases same

theorem untimed_error {e : MujinException} (other : e.code ≠ .timeout) :
    Untimed (.error (.mujin e) : Except Thrown α) := by
  rintro text same
  cases same
  exact other rfl

theorem untimed_parseJsonStream (t : Text) : Untimed (parseJsonStream t) := by
  unfold parseJsonStream
  cases readJson clientToken (cString t) with
  | some v => exact untimed_ok v
  | none => exact untimed_invalidJson

theorem untimed_parseJsonText (t : Text) : Untimed (parseJsonText t) := by
  unfold parseJsonText
  cases parseJson t with
  | some v => exact untimed_ok v
  | none => exact untimed_invalidJson

theorem untimed_httpError (verb : String) (uri : Text) (code : Int) (detail : Text) :
    Untimed (.error (httpError verb uri code detail) : Except Thrown α) := untimed_error (by simp)

theorem Untimed.bind {outcome : Except Thrown α} {f : α → Except Thrown β} (first : Untimed outcome)
    (rest : ∀ a, Untimed (f a)) : Untimed (outcome >>= f) := by
  cases outcome with
  | ok a => exact rest a
  | error e => exact fun text same => first text (congrArg Except.error (Except.error.inj same))

theorem Untimed.ite {P : Prop} [Decidable P] {first second : Except Thrown α} (yes : Untimed first)
    (no : Untimed second) :
    Untimed (if P then first else second) := by
  split
  · exact yes
  · exact no

variable {platform : Platform} {uri body : Text} {pt : Json} {expectedhttpcode code : Int}

theorem untimed_report {verb : String} {d : Json} {f : Unit → Except Thrown α} :
    Untimed (getErrorMessage platform d >>= fun message =>
      (throw (httpError verb uri code (lit ": " ++ message)) : Except Thrown Unit) >>= f) :=
  .bind (untimed_load _) fun _ => untimed_httpError _ _ _ _

theorem untimed_replyToGetValue : Untimed (replyToGetValue platform uri pt expectedhttpcode code body) := by
  unfold replyToGetValue
  refine .ite (.bind (untimed_parseJsonStream body) fun d => ?_) (.bind (untimed_ok pt) fun d => ?_)
  · exact .ite untimed_report (untimed_ok _)
  · exact .ite untimed_report (untimed_ok _)

theorem untimed_replyToPost : Untimed (replyToPost platform uri expectedhttpcode code body) := by
  unfold replyToPost
  refine .ite (.bind (untimed_parseJsonStream body) fun d => ?_) (.bind (untimed_ok _) fun d => ?_)
  · exact .ite untimed_report (untimed_ok _)
  · exact .ite untimed_report (untimed_ok _)

theorem untimed_replyToPut : Untimed (replyToPut platform uri expectedhttpcode code body) := by
  unfold replyToPut
  refine .ite (.bind (untimed_parseJsonText body) fun d => ?_) (.bind (untimed_ok _) fun d => ?_)
  · exact .ite untimed_report (untimed_ok _)
  · exact .ite untimed_report (untimed_ok _)

theorem untimed_replyToDelete : Untimed (replyToDelete platform uri expectedhttpcode code body) := by
  unfold replyToDelete
  exact .ite (.bind (untimed_parseJsonText body) fun d => .bind (untimed_load _) fun _ =>
    untimed_httpError _ _ _ _) (untimed_ok _)

theorem replyToDelete_eq_ok :
    replyToDelete platform uri expectedhttpcode code body = .ok () → code = expectedhttpcode := by
  intro accepted
  by_contra other
  unfold replyToDelete at accepted
  rw [if_pos other] at accepted
  cases parsed : parseJsonText body with
  | error e =>
    rw [parsed] at accepted
    cases accepted
  | ok d =>
    rw [parsed] at accepted
    cases known : getErrorMessage platform d <;> simp [bind, Except.bind, known] at accepted

end

/-- The reply has the status that a call of its kind is to have. -/
def Accepted (x : Answered) : Prop :=
  ∃ reply, x.2 = some reply ∧ (x.1.method, reply.status) ∈ [(lit "PUT", (202 : Int)), (lit "POST", 200),
    (lit "GET", 200), (lit "DELETE", 204)]

/-- One call, accepted if the step succeeds. -/
def OneCall {α : Type} (call : WebCall) (said : List Answered) (outcome : Except Thrown α) : Prop :=
  said.map Prod.fst = [call] ∧ Untimed outcome ∧ ∀ a, outcome = .ok a → ∀ x ∈ said, Accepted x

def Silent {α : Type} (said : List Answered) (outcome : Except Thrown α) : Prop := said = [] ∧ Untimed outcome

section

variable {σ α β : Type} {server : WebServer σ} {p : Request α} {f : α → Request β} {call : WebCall}

abbrev Says (server : WebServer σ) (L : List Answered → Except Thrown α → Prop) (p : Request α) : Prop :=
  Loading.Speaks Session.Ready Session.record L (Session.run server.recorded p)

theorem says_lift {outcome : Except Thrown α} (untimed : Untimed outcome) :
    Says server Silent (Program.lift outcome) := by
  unfold Says
  rw [Session.run_lift]
  refine (Loading.speaks_lift outcome).mono fun said ended holds => ?_
  rw [holds.2]
  exact ⟨holds.1, untimed⟩

theorem says_demand {ok : Bool} {e : Thrown} (untimed : Untimed (.error e : Except Thrown Unit)) :
    Says server Silent (demand ok e) := by
  cases ok with
  | true => exact says_lift (untimed_ok ())
  | false => exact says_lift untimed

theorem Says.silent_bind (first : Says server Silent p) (rest : ∀ a, Says server Silent (f a)) :
    Says server Silent (p >>= f) := by
  unfold Says
  rw [Session.run_bind]
  refine first.bind rest (fun said e silent =>
    ⟨silent.1, fun text same => silent.2 text (congrArg Except.error (Except.error.inj same))⟩)
    fun said a more outcome silent later => ?_
  rw [silent.1, later.1]
  exact ⟨rfl, later.2⟩

theorem Says.then_silent (first : Says server (OneCall call) p) (rest : ∀ a, Says server Silent (f a)) :
    Says server (OneCall call) (p >>= f) := by
  unfold Says
  rw [Session.run_bind]
  refine first.bind rest (fun said e one => ?_) fun said a more outcome one later => ?_
  · refine ⟨one.1, fun text same => one.2.1 text (congrArg Except.error (Except.error.inj same)),
      fun a impossible => by cases impossible⟩
  · rw [later.1, List.append_nil]
    exact ⟨one.1, later.2, fun _ _ => one.2.2 a rfl⟩

theorem says_exchange {read : WebReply → Except Thrown α} {status : Int}
    (serves : Session.Serves server.recorded p (Session.exchange server.recorded call read))
    (known : (call.method, status) ∈ [(lit "PUT", (202 : Int)), (lit "POST", 200), (lit "GET", 200),
      (lit "DELETE", 204)])
    (untimed : ∀ reply, Untimed (read reply)) (accepts : ∀ reply a, read reply = .ok a → reply.status = status) :
    Says server (OneCall call) p := by
  refine (Session.speaks_exchange serves).mono fun said outcome once => ?_
  obtain ⟨answer, rfl, rfl⟩ := once
  refine ⟨rfl, ?_, fun a returned x inside => ?_⟩
  · cases answer with
    | some reply => exact untimed reply
    | none => exact untimed_error (by simp)
  · obtain rfl := List.mem_singleton.mp inside
    cases answer with
    | some reply => exact ⟨reply, rfl, accepts reply a returned ▸ known⟩
    | none => cases returned

variable (client : ControllerClient) (uri : Text) (timeout : Double)

theorem says_callGet (pt : Json) :
    Says server (OneCall (client.webCall "GET" uri [])) (client.callGet uri pt 200 timeout) :=
  says_exchange (Session.serves_callGet client uri 200 timeout pt) (by simp [ControllerClient.webCall])
    (fun _ => untimed_replyToGetValue)
    fun _ _ accepted => ((replyToGetValue_eq_ok (by decide)).mp accepted).1

theorem says_callPut (data : Text) (headers : HeaderList) : Says server (OneCall (client.webCall "PUT" uri data))
    (client.callPut uri data headers 202 timeout) :=
  says_exchange (Session.serves_callPut client uri 202 timeout data headers) (by simp [ControllerClient.webCall])
    (fun _ => untimed_replyToPut) fun _ _ accepted => ((replyToPut_eq_ok (by decide)).mp accepted).1

theorem says_callPost (data : Text) :
    Says server (OneCall (client.webCall "POST" uri data)) (client.callPost uri data 200 timeout) :=
  says_exchange (Session.serves_callPost client uri 200 timeout data) (by simp [ControllerClient.webCall])
    (fun _ => untimed_replyToPost)
    fun _ _ accepted => ((replyToPost_eq_ok (by decide)).mp accepted).1

theorem says_callDelete :
    Says server (OneCall (client.webCall "DELETE" uri [])) (client.callDelete uri 204 timeout) :=
  says_exchange (Session.serves_callDelete client uri 204 timeout) (by simp [ControllerClient.webCall])
    (fun _ => untimed_replyToDelete)
    fun _ _ accepted => replyToDelete_eq_ok accepted

end

namespace BinPickingTaskResource

section

variable (client : ControllerClient) (primaryKey : Text)

def putCall (data : Text) : WebCall := client.webCall "PUT" (lit "task/" ++ primaryKey ++ lit "/?format=json") data

def jobCall : WebCall :=
  client.webCall "POST" (lit "job/") (lit "\x7b\"resource_type\":\"task\", \"target_pk\":" ++ primaryKey ++
    lit "\x7d")

def pollCall : WebCall :=
  client.webCall "GET" (lit "task/" ++ primaryKey ++
    lit "/result/?format=json&limit=1&optimization=None&fields=pk,errormessage") []

def outputCall (resultpk : Text) : WebCall :=
  client.webCall "GET" (lit "binpickingresult/" ++ resultpk ++ lit "/?format=json&limit=1") []

def cancelCall : WebCall := client.webCall "DELETE" (lit "job/?format=json") []

variable {σ : Type} {server : WebServer σ}

theorem says_stringOf (pt : Json) (key : String) : Says server Silent (client.stringOf pt key) :=
  says_lift (untimed_load _)

theorem says_foundResult (unconstructed : Text) (object : Json) :
    Says server Silent (foundResult client unconstructed object) := by
  unfold foundResult
  refine .silent_bind (says_lift (untimed_load _)) fun pk => ?_
  refine .silent_bind (says_demand fun text same => by cases same) fun _ => ?_
  refine .silent_bind (says_stringOf client object "errormessage") fun erroptional => ?_
  exact .silent_bind (says_demand (untimed_error (by simp))) fun _ => says_lift (untimed_ok pk)

theorem says_getResult (unconstructed : Text) :
    Says server (OneCall (pollCall client primaryKey)) (getResult client primaryKey unconstructed) := by
  unfold getResult
  refine (says_callGet client _ ControllerClient.defaultTimeout (.object [])).then_silent fun x => ?_
  dsimp only
  cases firstObject? x.2 with
  | none => exact says_lift (untimed_ok none)
  | some object =>
    exact .silent_bind (says_foundResult client unconstructed object) fun pk =>
      says_lift (untimed_ok (some pk))

theorem says_getResultJson (resultpk : Text) (rResult : Json) :
    Says server (OneCall (outputCall client resultpk))
    (BinPickingResultResource.getResultJson client resultpk rResult) := by
  unfold BinPickingResultResource.getResultJson
  exact (says_callGet client _ ControllerClient.defaultTimeout rResult).then_silent fun x =>
    says_lift (untimed_load _)

theorem says_execute :
    Says server (OneCall (jobCall client primaryKey)) (TaskResource.execute client primaryKey) := by
  unfold TaskResource.execute
  exact (says_callPost client _ ControllerClient.defaultTimeout _).then_silent fun x =>
    says_stringOf client x.2 "jobpk"

end

/-- How the loop ends, with what it has said, when it starts after `i` rounds. -/
inductive PollRun (client : ControllerClient) (primaryKey : Text) (timeout : Double) (getresult : Bool)
    (i rounds : Nat) :
    List Answered → Except Thrown (Option Json) → Prop
  | unfinished {said : List Answered}
      (calls : said.map Prod.fst = List.replicate rounds (pollCall client primaryKey))
      (accepted : ∀ x ∈ said, Accepted x)
      (waited : ∀ j, i < j → j ≤ i + rounds → expired timeout (secondspassed j) = false) :
      PollRun client primaryKey timeout getresult i rounds said (.ok none)
  | found {said : List Answered} {last : List WebCall} {result : Json} (k : Nat) (within : k < rounds)
      (calls : said.map Prod.fst = List.replicate (k + 1) (pollCall client primaryKey) ++ last)
      (output : if getresult then ∃ resultpk, last = [outputCall client resultpk] else last = [])
      (accepted : ∀ x ∈ said, Accepted x)
      (waited : ∀ j, i < j → j ≤ i + k → expired timeout (secondspassed j) = false) :
      PollRun client primaryKey timeout getresult i rounds said (.ok (some result))
  | failed {said : List Answered} {last : List WebCall} {e : Thrown} (k : Nat) (within : k < rounds)
      (calls : said.map Prod.fst = List.replicate (k + 1) (pollCall client primaryKey) ++ last)
      (output : last = [] ∨ ∃ resultpk, last = [outputCall client resultpk])
      (untimed : Untimed (.error e : Except Thrown Unit))
      (waited : ∀ j, i < j → j ≤ i + k → expired timeout (secondspassed j) = false) :
      PollRun client primaryKey timeout getresult i rounds said (.error e)
  | cancelled {said : List Answered} {e : Thrown} (k : Nat) (within : k < rounds)
      (calls : said.map Prod.fst = List.replicate (k + 1) (pollCall client primaryKey) ++ [cancelCall client])
      (reason : expired timeout (secondspassed (i + k + 1)) = true)
      (reported : Untimed (.error e : Except Thrown Unit) ∨ e = timedOut (secondspassed (i + k + 1)) ∧
        ∀ x ∈ said, Accepted x)
      (waited : ∀ j, i < j → j ≤ i + k → expired timeout (secondspassed j) = false) :
      PollRun client primaryKey timeout getresult i rounds said (.error e)

section

variable {client : ControllerClient} {primaryKey : Text} {timeout : Double} {getresult : Bool} {i rounds : Nat}

theorem Untimed.error_map {α β : Type} {e : Thrown} (untimed : Untimed (.error e : Except Thrown α)) :
    Untimed (.error e : Except Thrown β) :=
  fun text same => untimed text (congrArg Except.error (Except.error.inj same))

/-- One round more in front, after which the time has not run out. -/
theorem PollRun.later {first : Answered} {said : List Answered} {outcome : Except Thrown (Option Json)}
    (call : first.1 = pollCall client primaryKey) (accepted : Accepted first)
    (waits : expired timeout (secondspassed (i + 1)) = false)
    (rest : PollRun client primaryKey timeout getresult (i + 1) rounds said outcome) :
    PollRun client primaryKey timeout getresult i (rounds + 1) (first :: said) outcome := by
  have all : (∀ x ∈ said, Accepted x) → ∀ x ∈ first :: said, Accepted x :=
    fun each => List.forall_mem_cons.mpr ⟨accepted, each⟩
  have before : ∀ n, (∀ j, i + 1 < j → j ≤ i + 1 + n → expired timeout (secondspassed j) = false) →
      ∀ j, i < j → j ≤ i + (n + 1) → expired timeout (secondspassed j) = false := by
    intro n waited j after within
    by_cases next : j = i + 1
    · exact next ▸ waits
    · exact waited j (by omega) (by omega)
  have calls : ∀ {n : Nat} {last : List WebCall}, said.map Prod.fst = List.replicate n
      (pollCall client primaryKey) ++ last →
      (first :: said).map Prod.fst = List.replicate (n + 1) (pollCall client primaryKey) ++ last := by
    intro n last same
    rw [List.map_cons, call, same, List.replicate_succ, List.cons_append]
  cases rest with
  | unfinished said accepted waited =>
    refine .unfinished ?_ (all accepted) (before _ waited)
    rw [List.map_cons, call, said, List.replicate_succ]
  | found k within said output accepted waited =>
    exact .found (k + 1) (by omega) (calls said) output (all accepted) (before k waited)
  | failed k within said output untimed waited =>
    exact .failed (k + 1) (by omega) (calls said) output untimed (before k waited)
  | cancelled k within said reason reported waited =>
    have place : i + 1 + k + 1 = i + (k + 1) + 1 := by omega
    rw [place] at reason reported
    exact .cancelled (k + 1) (by omega) (calls said) reason
      (reported.imp_right fun holds => ⟨holds.1, all holds.2⟩) (before k waited)

variable {σ : Type} {server : WebServer σ} (unconstructed : Text) (rResult : Json)

/-- The output of a result is fetched if it is asked for. -/
def Fetches (client : ControllerClient) (getresult : Bool) (said : List Answered)
    (outcome : Except Thrown (Option Json)) : Prop :=
  Untimed outcome ∧ outcome ≠ .ok none ∧ (∀ returned, outcome = .ok returned → ∀ x ∈ said, Accepted x) ∧
    if getresult then ∃ resultpk, said.map Prod.fst = [outputCall client resultpk] else said = []

theorem says_found (resultpk : Text) : Says server (Fetches client getresult)
    (if getresult then do return some (← BinPickingResultResource.getResultJson client resultpk
      rResult) else return some rResult) := by
  cases getresult with
  | true =>
    rw [if_pos rfl]
    unfold Says
    rw [Session.run_bind]
    refine (says_getResultJson client resultpk rResult).bind
      (fun result => Loading.speaks_lift (.ok (some result))) (fun said e one => ?_)
      fun said result more outcome one later => ?_
    · exact ⟨Untimed.error_map one.2.1, by simp, fun _ impossible => (by simp at impossible), resultpk, one.1⟩
    · obtain ⟨rfl, rfl⟩ := later
      rw [List.append_nil]
      exact ⟨untimed_ok _, by simp, fun _ _ => one.2.2 result rfl, resultpk, one.1⟩
  | false =>
    refine (Loading.speaks_lift (.ok (some rResult))).mono fun said outcome holds => ?_
    obtain ⟨rfl, rfl⟩ := holds
    exact ⟨untimed_ok _, by simp, fun _ _ x inside => absurd inside List.not_mem_nil, rfl⟩

def Cancels (client : ControllerClient) (seconds : Double) (said : List Answered)
    (outcome : Except Thrown (Option Json)) : Prop :=
  said.map Prod.fst = [cancelCall client] ∧ ∃ e, outcome = .error e ∧
    (Untimed (.error e : Except Thrown Unit) ∨ e = timedOut seconds ∧ ∀ x ∈ said, Accepted x)

theorem says_cancel (seconds : Double) : Says server (Cancels client seconds) (do
    client.callDelete (lit "job/?format=json") 204 ControllerClient.defaultTimeout
    .throws (timedOut seconds)) := by
  unfold Says
  rw [Session.run_bind]
  refine (says_callDelete client (lit "job/?format=json") ControllerClient.defaultTimeout).bind
    (fun _ => Loading.speaks_lift (.error (timedOut seconds))) (fun said e one => ?_)
      fun said _ more outcome one later => ?_
  · exact ⟨one.1, e, rfl, .inl (Untimed.error_map one.2.1)⟩
  · obtain ⟨rfl, rfl⟩ := later
    rw [List.append_nil]
    exact ⟨one.1, _, rfl, .inr ⟨rfl, one.2.2 () rfl⟩⟩

theorem says_poll (rounds i : Nat) : Says server (PollRun client primaryKey timeout getresult i rounds)
    (poll client primaryKey unconstructed rResult timeout getresult rounds (secondspassed i)) := by
  induction rounds generalizing i with
  | zero =>
    refine (Loading.speaks_lift (.ok none)).mono fun said outcome holds => ?_
    obtain ⟨rfl, rfl⟩ := holds
    exact .unfinished rfl (fun x inside => absurd inside List.not_mem_nil) fun j after within => by omega
  | succ rounds ih =>
    have nobody : ∀ j, i < j → j ≤ i + 0 → expired timeout (secondspassed j) = false :=
      fun j after within => by omega
    rw [poll]
    unfold Says
    rw [Session.run_bind]
    refine Loading.Speaks.bind (says_getResult client primaryKey unconstructed)
      (M := fun found said outcome => match found with
      | some _ => Fetches client getresult said outcome
      | none => if expired timeout (secondspassed (i + 1)) then Cancels client (secondspassed (i + 1)) said outcome
        else PollRun client primaryKey timeout getresult (i + 1) rounds said outcome) (fun found => ?_)
          (fun said e one => ?_)
      fun said found more outcome one later => ?_
    · cases found with
      | some resultpk => exact says_found rResult resultpk
      | none =>
        have next : (secondspassed i).add (Double.ofDecimal false 1 (-1)) = secondspassed (i + 1) := rfl
        dsimp only
        rw [next]
        split
        · exact says_cancel (secondspassed (i + 1))
        · exact ih (i + 1)
    · exact .failed 0 (by omega) (one.1.trans rfl) (.inl rfl) (Untimed.error_map one.2.1) nobody
    · have call : said.map Prod.fst = [pollCall client primaryKey] := one.1
      have accepted := one.2.2 found rfl
      have listed : ∀ {last : List WebCall}, more.map Prod.fst = last →
          (said ++ more).map Prod.fst = List.replicate (0 + 1) (pollCall client primaryKey) ++ last := by
        intro last same
        rw [List.map_append, call, same]
        rfl
      have both : (∀ x ∈ more, Accepted x) → ∀ x ∈ said ++ more, Accepted x :=
        fun each => List.forall_mem_append.mpr ⟨accepted, each⟩
      cases found with
      | some resultpk =>
        obtain ⟨untimed, finished, each, fetched⟩ := later
        cases outcome with
        | error e =>
          refine .failed 0 (by omega) (listed rfl) ?_ (Untimed.error_map untimed) nobody
          split at fetched
          · exact .inr fetched
          · rw [fetched]
            exact .inl rfl
        | ok returned =>
          cases returned with
          | none => exact absurd rfl finished
          | some result =>
            refine .found 0 (by omega) (listed rfl) ?_ (both (each _ rfl)) nobody
            by_cases asked : getresult = true
            · rwa [if_pos asked] at fetched ⊢
            · rw [if_neg asked] at fetched ⊢
              rw [fetched, List.map_nil]
      | none =>
        dsimp only at later
        split at later
        · rename_i late
          obtain ⟨cancel, e, rfl, reported⟩ := later
          exact .cancelled 0 (by omega) (listed cancel) late
            (reported.imp_right fun holds => ⟨holds.1, both holds.2⟩) nobody
        · rename_i early
          obtain ⟨first, rfl⟩ : ∃ first, said = [first] := by
            obtain ⟨first, rest, rfl, -, none⟩ := List.map_eq_cons_iff.mp call
            rw [List.map_eq_nil_iff.mp none]
            exact ⟨first, rfl⟩
          exact later.later (List.cons.inj call).1 (accepted first List.mem_cons_self) (by simpa using early)

/-- How a command ends, with what it has said. -/
inductive CommandRun (client : ControllerClient) (primaryKey data : Text) (timeout : Double)
    (getresult : Bool) (rounds : Nat) :
    List Answered → Except Thrown (Option Json) → Prop
  | refused {e : Thrown} (untimed : Untimed (.error e : Except Thrown Unit)) :
      CommandRun client primaryKey data timeout getresult rounds [] (.error e)
  | notPut {said : List Answered} {e : Thrown} (calls : said.map Prod.fst = [putCall client primaryKey data])
      (untimed : Untimed (.error e : Except Thrown Unit)) :
      CommandRun client primaryKey data timeout getresult rounds said (.error e)
  | notStarted {said : List Answered} {e : Thrown}
      (calls : said.map Prod.fst = [putCall client primaryKey data, jobCall client primaryKey])
      (untimed : Untimed (.error e : Except Thrown Unit)) :
      CommandRun client primaryKey data timeout getresult rounds said (.error e)
  | started {first said : List Answered} {outcome : Except Thrown (Option Json)}
      (calls : first.map Prod.fst = [putCall client primaryKey data, jobCall client primaryKey])
      (accepted : ∀ x ∈ first, Accepted x)
      (rest : PollRun client primaryKey timeout getresult 0 rounds said outcome) :
      CommandRun client primaryKey data timeout getresult rounds (first ++ said) outcome

theorem says_executeCommand (r : TaskResource) (initialized : Bool) (stamp : Double) (taskparameters : Text)
    (rounds : Nat) :
    Says server (CommandRun client primaryKey (commandText client r stamp taskparameters) timeout getresult rounds)
      (executeCommand client primaryKey unconstructed r initialized stamp taskparameters rResult timeout
        getresult rounds) := by
  cases initialized with
  | false =>
    refine (Loading.speaks_lift _).mono fun said outcome holds => ?_
    obtain ⟨rfl, rfl⟩ := holds
    exact .refused (untimed_error (by simp))
  | true =>
    show Loading.Speaks _ _ _
        (Session.run server.recorded
          (client.callPut _ _ _ _ _ >>= fun _ => TaskResource.execute client primaryKey >>= fun _ => _))
    simp only [Session.run_bind]
    refine Loading.Speaks.bind (says_callPut client _ _ _ _) (fun _ => (says_execute client primaryKey).bind
      (fun _ => says_poll unconstructed rResult rounds 0) (N := fun said outcome =>
        (said.map Prod.fst = [jobCall client primaryKey] ∧ ∃ e, outcome = .error e ∧
          Untimed (.error e : Except Thrown Unit)) ∨
        ∃ first rest, said = first ++ rest ∧ first.map Prod.fst = [jobCall client primaryKey] ∧
          (∀ x ∈ first, Accepted x) ∧
          PollRun client primaryKey timeout getresult 0 rounds rest outcome)
      (fun said e one => .inl ⟨one.1, e, rfl, Untimed.error_map one.2.1⟩)
      fun said _ rest outcome one later => .inr ⟨said, rest, rfl, one.1, one.2.2 _ rfl, later⟩)
        (fun said e one => ?_)
      fun said _ more outcome one later => ?_
    · exact .notPut one.1 (Untimed.error_map one.2.1)
    · have put : said.map Prod.fst =
          [putCall client primaryKey (commandText client r stamp taskparameters)] := one.1
      rcases later with ⟨job, e, rfl, untimed⟩ | ⟨first, rest, rfl, job, accepted, run⟩
      · exact .notStarted (by rw [List.map_append, put, job]; rfl) untimed
      · rw [← List.append_assoc]
        refine .started (by rw [List.map_append, put, job]; rfl) ?_ run
        exact List.forall_mem_append.mpr ⟨one.2.2 _ rfl, accepted⟩

theorem cancelCall_ne {method : String} {uri data : Text} (other : lit "DELETE" ≠ lit method) :
    cancelCall client ≠ client.webCall method uri data := fun same => other (congrArg WebCall.method same)

theorem cancelCall_output (resultpk : Text) : cancelCall client ∉ [outputCall client resultpk] := by
  have output : cancelCall client ≠ outputCall client resultpk := cancelCall_ne (by decide)
  simpa using output

def inOrder (client : ControllerClient) (primaryKey data : Text) (polls : Nat) (last : List WebCall) :
    List WebCall :=
  putCall client primaryKey data :: jobCall client
    primaryKey :: (List.replicate polls (pollCall client primaryKey) ++ last)

/-- Only what comes after the polls can be a cancellation. -/
theorem cancelCall_mem {data : Text} {n : Nat} {last : List WebCall} :
    cancelCall client ∈ inOrder client primaryKey data n last ↔ cancelCall client ∈ last := by
  have put : cancelCall client ≠ putCall client primaryKey data := cancelCall_ne (by decide)
  have job : cancelCall client ≠ jobCall client primaryKey := cancelCall_ne (by decide)
  have poll : cancelCall client ≠ pollCall client primaryKey := cancelCall_ne (by decide)
  simp [inOrder, put, job, poll, List.mem_replicate]

theorem map_started {data : Text} {first rest : List Answered} {n : Nat} {last : List WebCall}
    (calls : first.map Prod.fst = [putCall client primaryKey data, jobCall client primaryKey])
    (called : rest.map Prod.fst = List.replicate n (pollCall client primaryKey) ++ last) :
    (first ++ rest).map Prod.fst = inOrder client primaryKey data n last := by
  rw [List.map_append, calls, called]
  rfl

/-- The time has run out after so many rounds, and not before. -/
def RunsOut (timeout : Double) (rounds : Nat) : Prop :=
  0 < rounds ∧ expired timeout (secondspassed rounds) = true ∧ ∀ j, 0 < j → j < rounds →
    expired timeout (secondspassed j) = false

section

variable {data : Text} {said : List Answered} {outcome : Except Thrown (Option Json)}
  (run : CommandRun client primaryKey data timeout getresult rounds said outcome)
include run

theorem CommandRun.ordered : ∃ polls last, said.map Prod.fst <+: inOrder client primaryKey data polls last ∧
    (last = [] ∨ last = [cancelCall client] ∨ ∃ resultpk, last = [outputCall client resultpk]) := by
  cases run with
  | refused untimed => exact ⟨0, [], List.nil_prefix, .inl rfl⟩
  | notPut calls untimed => exact ⟨0, [], by rw [calls]; exact ⟨_, rfl⟩, .inl rfl⟩
  | notStarted calls untimed => exact ⟨0, [], by rw [calls]; exact ⟨_, rfl⟩, .inl rfl⟩
  | started calls accepted polled =>
    cases polled with
    | unfinished called =>
      refine ⟨rounds, [], ?_, .inl rfl⟩
      rw [map_started calls (called.trans (List.append_nil _).symm)]
    | found k within called output =>
      refine ⟨k + 1, _, by rw [map_started calls called], ?_⟩
      split at output
      · exact .inr (.inr output)
      · exact .inl output
    | failed k within called output => exact ⟨k + 1, _, by rw [map_started calls called], output.imp_right .inr⟩
    | cancelled k within called => exact ⟨k + 1, _, by rw [map_started calls called], .inr (.inl rfl)⟩

/-- A cancellation comes last, when the time has run out. -/
theorem CommandRun.cancels (asked : cancelCall client ∈ said.map Prod.fst) : ∃ polls, RunsOut timeout polls ∧
    said.map Prod.fst = inOrder client primaryKey data polls [cancelCall client] ∧ ∃ e, outcome = .error e ∧
      (Untimed (.error e : Except Thrown Unit) ∨ e = timedOut (secondspassed polls) ∧ ∀ x ∈ said, Accepted x) := by
  have early : cancelCall client ∉ [putCall client primaryKey data, jobCall client primaryKey] := by
    intro inside
    exact absurd
      (cancelCall_mem.mp (show cancelCall client ∈ inOrder client primaryKey data 0 [] from inside))
        List.not_mem_nil
  cases run with
  | refused untimed => cases asked
  | notPut calls untimed =>
    rw [calls] at asked
    exact absurd (List.mem_append_left [jobCall client primaryKey] asked) early
  | notStarted calls untimed => exact absurd (calls ▸ asked) early
  | started calls accepted polled =>
    cases polled with
    | unfinished called =>
      rw [map_started calls (called.trans (List.append_nil _).symm), cancelCall_mem] at asked
      cases asked
    | found k within called output =>
      rw [map_started calls called, cancelCall_mem] at asked
      split at output
      · obtain ⟨resultpk, rfl⟩ := output
        exact absurd asked (cancelCall_output resultpk)
      · subst output
        cases asked
    | failed k within called output =>
      rw [map_started calls called, cancelCall_mem] at asked
      rcases output with rfl | ⟨resultpk, rfl⟩
      · cases asked
      · exact absurd asked (cancelCall_output resultpk)
    | cancelled k within called reason reported waited =>
      rw [Nat.zero_add] at reason reported
      refine ⟨k + 1, ⟨by omega, reason, fun j after before => waited j after (by omega)⟩,
        map_started calls called, _, rfl, ?_⟩
      exact reported.imp_right fun holds => ⟨holds.1, List.forall_mem_append.mpr ⟨accepted, holds.2⟩⟩

theorem CommandRun.timed {text : Text} (timed : outcome = .error (.mujin ⟨text, .timeout⟩)) :
    cancelCall client ∈ said.map Prod.fst := by
  have impossible : ∀ {e : Thrown}, Untimed (.error e : Except Thrown Unit) →
      (Except.error e : Except Thrown (Option Json)) ≠
      .error (.mujin ⟨text, .timeout⟩) :=
        fun untimed same => untimed text (congrArg Except.error (Except.error.inj same))
  cases run with
  | refused untimed => exact absurd timed (impossible untimed)
  | notPut calls untimed => exact absurd timed (impossible untimed)
  | notStarted calls untimed => exact absurd timed (impossible untimed)
  | started calls accepted polled =>
    cases polled with
    | unfinished called => cases timed
    | found k within called output => cases timed
    | failed k within called output untimed => exact absurd timed (impossible untimed)
    | cancelled k within called =>
      rw [map_started calls called, cancelCall_mem]
      exact List.mem_cons_self

theorem CommandRun.finishes {result : Json} (finished : outcome = .ok (some result)) : (∀ x ∈ said, Accepted x) ∧
    ∃ polls last, 0 < polls ∧ said.map Prod.fst = inOrder client primaryKey data polls last ∧
      if getresult then ∃ resultpk, last = [outputCall client resultpk] else last = [] := by
  cases run with
  | refused untimed => cases finished
  | notPut calls untimed => cases finished
  | notStarted calls untimed => cases finished
  | started calls accepted polled =>
    cases polled with
    | unfinished called => cases finished
    | found k within called output each =>
      exact ⟨List.forall_mem_append.mpr ⟨accepted, each⟩, k + 1, _, by omega, map_started calls called, output⟩
    | failed k within called output untimed => cases finished
    | cancelled k within called => cases finished

theorem CommandRun.unfinished (left : outcome = .ok none) :
    ∀ j, 0 < j → j ≤ rounds → expired timeout (secondspassed j) = false := by
  cases run with
  | refused untimed => cases left
  | notPut calls untimed => cases left
  | notStarted calls untimed => cases left
  | started calls accepted polled =>
    cases polled with
    | unfinished called each waited => exact fun j after within => waited j after (by omega)
    | found k within called output => cases left
    | failed k within called output untimed => cases left
    | cancelled k within called => cases left

end

/-- What a run of a command has said, and how it has ended. -/
structure Settled (client : ControllerClient) (primaryKey data : Text) (timeout : Double) (getresult : Bool)
    (said : List Answered) (outcome : Except Thrown (Option Json)) : Prop where
  /-- The parameters, the job, GETs for a result and at most one more call, as far as it comes. -/
  ordered : ∃ polls last, said.map Prod.fst <+: inOrder client primaryKey data polls last ∧
    (last = [] ∨ last = [cancelCall client] ∨ ∃ resultpk, last = [outputCall client resultpk])
  /-- All jobs are cancelled only when the time has run out after the last GET, and not before. -/
  cancelled : cancelCall client ∈ said.map Prod.fst → ∃ polls, RunsOut timeout polls ∧
    said.map Prod.fst = inOrder client primaryKey data polls [cancelCall client]
  /-- A timeout is reported only after all jobs have been cancelled. -/
  reported : ∀ text, outcome = .error (.mujin ⟨text, .timeout⟩) → ∃ polls, RunsOut timeout polls ∧
    outcome = .error (timedOut (secondspassed polls)) ∧
    said.map Prod.fst = inOrder client primaryKey data polls [cancelCall client] ∧ ∀ x ∈ said, Accepted x
  /-- A result is returned only when every call has been accepted, and nothing has been cancelled then. -/
  returned : ∀ result, outcome = .ok (some result) → (∀ x ∈ said, Accepted x) ∧ ∃ polls last, 0 < polls ∧
    said.map Prod.fst = inOrder client primaryKey data polls last ∧ if getresult then ∃ resultpk,
      last = [outputCall client resultpk] else last = []

theorem executeCommand_settles (server : WebServer σ) (r : TaskResource) (initialized : Bool)
    (stamp : Double) (taskparameters : Text)
    (rounds : Nat) {w : Session (σ × List Answered)} (ready : w.Ready) :
    let done := Session.run server.recorded
      (executeCommand client primaryKey unconstructed r initialized stamp taskparameters rResult timeout
        getresult rounds) w
    ∃ said, done.2.record = w.record ++ said ∧
      Settled client primaryKey (commandText client r stamp taskparameters) timeout getresult said done.1 := by
  obtain ⟨-, said, recorded, run⟩ :=
    says_executeCommand unconstructed rResult r initialized stamp taskparameters rounds w ready
  refine ⟨said, recorded, run.ordered, fun asked => ?_, fun text timed => ?_, fun result => run.finishes⟩
  · obtain ⟨polls, runsOut, calls, -⟩ := run.cancels asked
    exact ⟨polls, runsOut, calls⟩
  · obtain ⟨polls, runsOut, calls, e, failed, untimed | ⟨rfl, accepted⟩⟩ := run.cancels (run.timed timed)
    · exact absurd (congrArg Except.error (Except.error.inj (failed.symm.trans timed))) (untimed text)
    · exact ⟨polls, runsOut, failed, calls, accepted⟩

/-- A server that accepts everything and never has a result. -/
def idle : WebServer Unit := fun s call =>
  (some ⟨if call.method = lit "PUT" then 202 else if call.method = lit "DELETE" then 204 else 200, []⟩, s)

theorem executeCommand_settles_idle :
    let start : Session (Unit × List Answered) := ⟨CurlHandle.constructed fun _ => .null, ((), []), ⟨0, []⟩⟩
    let done := Session.run idle.recorded
      (executeCommand default (lit "1") [] (TaskResource.ofNames (lit "binpicking") []) true .zero
        (lit "\x7b\x7d") .null (.ofInt 1) true 20) start
    ∃ said, done.2.record = start.record ++ said ∧
      Settled default (lit "1") (commandText default (TaskResource.ofNames (lit "binpicking") []) .zero
        (lit "\x7b\x7d")) (.ofInt 1) true said done.1 :=
  executeCommand_settles [] .null idle _ true .zero _ 20 (CurlHandle.constructed_unset _)

end

end BinPickingTaskResource

end MujinClient
