import MujinClient.ClientOperations
import MujinClient.Loading

/-! What a GraphQL call makes of a response. The accesses of the code to members and to values of one
kind assert what they need, and every response is shown to pass them. -/
namespace MujinClient

open Loading

inductive Transfer where
  | failed (e : Thrown)
  | replied (http_code : Int) (body : Text)

namespace Transfer

/-- `_CallPost` with the expected status 200. -/
def callPost (platform : Platform) (desturi : Text) : Transfer → Except Thrown Json
  | failed e => .error e
  | replied http_code body => (replyToPost platform desturi 200 http_code body).map Prod.snd

/-- What the parser reads. An empty body is read as an object. -/
def document (body : Text) : Option Json :=
  if body ≠ [] then readJson clientToken (cString body) else some (.object [])

def Receives (asked : Transfer) (rResultDoc : Json) : Prop :=
  ∃ body, asked = replied 200 body ∧ document body = some rResultDoc

end Transfer

def memberFound (v : Json) (name : String) : Except Thrown (Option Json) :=
  match v with
  | .object members => .ok (Json.findMember members (lit name))
  | _ => .error (.load .assertion)

def memberAt (v : Json) (name : String) : Except Thrown Json :=
  memberFound v name >>= fun member =>
  match member with
  | some value => .ok value
  | none => .error (.load .assertion)

/-- `GetString` as a C string. -/
def stringAt : Json → Except Thrown Text
  | .string t => .ok (cString t)
  | _ => .error (.load .assertion)

def getElements : Json → Except Thrown (List Json)
  | .array elements => .ok elements
  | _ => .error (.load .assertion)

def hasStringMember (v : Json) (name : String) : Except Thrown Bool :=
  if v.isObject then
    memberFound v name >>= fun member =>
    if member.isSome then (memberAt v name).map (·.isString) else .ok false
  else .ok false

def errorCodeOf (rError : Json) : Except Thrown Text :=
  memberFound rError "extensions" >>= fun itExtensions =>
  match itExtensions with
  | some extensions =>
    hasStringMember extensions "errorCode" >>= fun given =>
    if given then memberAt extensions "errorCode" >>= stringAt else .ok (lit "unknown")
  | none => .ok (lit "unknown")

/-- The loop over the errors ends with the first one that has a message. -/
def throwFirst (operationName : Text) : List Json → Except Thrown Unit
  | [] => .ok ()
  | rError :: rest =>
    hasStringMember rError "message" >>= fun described =>
    if described then
      errorCodeOf rError >>= fun errorCode =>
      memberAt rError "message" >>= stringAt >>= fun message =>
      .error (.graphQuery (lit "graph query has errors \"" ++ cString operationName ++ lit "\": " ++
        message) errorCode)
    else throwFirst operationName rest

/-- The exceptions that show the whole response. -/
def invalidResponse (platform : Platform) (operationName : Text) (before between : String)
    (rResultDoc : Json) : Thrown :=
  .mujin ⟨lit before ++ (lit "\"" ++ cString operationName ++ lit "\"") ++ lit between ++
    dumpJson platform rResultDoc, .httpServer⟩

def lookForErrors (platform : Platform) (operationName : Text) (rResultDoc : Json) : Except Thrown Unit :=
  memberFound rResultDoc "errors" >>= fun itErrors =>
  match itErrors with
  | some errors =>
    if errors.isArray then
      getElements errors >>= fun elements =>
      if 0 < elements.length then
        throwFirst operationName elements >>= fun _ =>
        .error (invalidResponse platform operationName "graph query has undefined errors " ": " rResultDoc)
      else .ok ()
    else .ok ()
  | none => .ok ()

/-- `_ExecuteGraphQuery` with `rResult` as its target. -/
def executeGraphQueryInto (platform : Platform) (desturi operationName : Text)
    (checkForErrors returnRawResponse : Bool) (asked : Transfer) : Loading Thrown Json Unit :=
  update (fun _ => .null) >>= fun _ =>
  lift (asked.callPost platform desturi) >>= fun rResultDoc =>
  if rResultDoc.isObject then
    lift (if checkForErrors then lookForErrors platform operationName rResultDoc else .ok ()) >>= fun _ =>
    lift (memberFound rResultDoc "data") >>= fun itData =>
    if itData.isSome then
      if returnRawResponse then update fun _ => rResultDoc
      else assign (fun data _ => data) (memberAt rResultDoc "data")
    else throw (invalidResponse platform operationName "Execute graph query does not have 'data' field in "
      ", invalid response: "
      rResultDoc)
  else throw (invalidResponse platform operationName "Execute graph query does not return valid response "
    ", invalid response: "
    rResultDoc)

theorem memberFound_object (members : Json.Members) (name : String) :
    memberFound (.object members) name = .ok (Json.findMember members (lit name)) := rfl

theorem memberAt_object {members : Json.Members} {name : String}
    (found : Json.findMember members (lit name) = some value) :
    memberAt (.object members) name = .ok value := by
  rw [memberAt, memberFound_object, found]
  rfl

theorem hasStringMember_object (members : Json.Members) (name : String) :
    hasStringMember (.object members) name = .ok ((Json.findMember members (lit name)).any (·.isString)) := by
  have object : (Json.object members).isObject = true := rfl
  rw [hasStringMember, if_pos object, memberFound_object]
  cases found : Json.findMember members (lit name) with
  | none => rfl
  | some value =>
    rw [memberAt_object found]
    rfl

/-- A string member is read where there is one. -/
theorem readString_object {members : Json.Members} {name : String}
    (found : Json.findMember members (lit name) = some (.string t)) :
    (memberAt (.object members) name >>= stringAt) = .ok (cString t) := by
  rw [memberAt_object found]
  rfl

theorem errorCodeOf_object (members : Json.Members) : errorCodeOf (.object members) = .ok
    (match Json.findMember members (lit "extensions") with
      | some (.object extensions) =>
        match Json.findMember extensions (lit "errorCode") with
        | some (.string code) => cString code
        | _ => lit "unknown"
      | _ => lit "unknown") := by
  rw [errorCodeOf, memberFound_object]
  cases Json.findMember members (lit "extensions") with
  | none => rfl
  | some value =>
    cases value with
    | object extensions =>
      change (hasStringMember (.object extensions) "errorCode" >>= _) = _
      rw [hasStringMember_object]
      dsimp only
      cases found : Json.findMember extensions (lit "errorCode") with
      | none => rfl
      | some code =>
        cases code with
        | string t => exact readString_object found
        | _ => rfl
    | _ => rfl

theorem throwFirst_eq (operationName : Text) (elements : List Json) : throwFirst operationName elements =
    match elements.findSome? (ControllerClient.graphError? operationName) with
    | some e => .error e
    | none => .ok () := by
  induction elements with
  | nil => rfl
  | cons rError rest ih =>
    cases rError with
    | object members =>
      rw [throwFirst, hasStringMember_object, List.findSome?_cons, ControllerClient.graphError?]
      cases found : Json.findMember members (lit "message") with
      | none => exact ih
      | some message =>
        cases message with
        | string t =>
          change (errorCodeOf (.object members) >>= fun errorCode =>
            memberAt (.object members) "message" >>= stringAt >>= _) = _
          rw [errorCodeOf_object]
          change (memberAt (.object members) "message" >>= stringAt >>= _) = _
          rw [readString_object found]
          rfl
        | _ => exact ih
    | _ => exact ih

theorem lookForErrors_object (platform : Platform) (operationName : Text) (members : Json.Members) :
    lookForErrors platform operationName (.object members) =
      match Json.findMember members (lit "errors") with
      | some (.array (error :: errors)) =>
        .error (((error :: errors).findSome? (ControllerClient.graphError? operationName)).getD
          (invalidResponse platform operationName "graph query has undefined errors " ": " (.object members)))
      | _ => .ok () := by
  rw [lookForErrors, memberFound_object]
  cases Json.findMember members (lit "errors") with
  | none => rfl
  | some value =>
    cases value with
    | array elements =>
      cases elements with
      | nil => rfl
      | cons error errors =>
        change (throwFirst operationName (error :: errors) >>= _) = _
        rw [throwFirst_eq]
        dsimp only
        cases (error :: errors).findSome? (ControllerClient.graphError? operationName) <;> rfl
    | _ => rfl

theorem graphResult_object (client : ControllerClient) (operationName : Text)
    (checkForErrors returnRawResponse : Bool) (members : Json.Members) :
    client.graphResult operationName checkForErrors returnRawResponse (.object members) =
      ((if checkForErrors then lookForErrors client.platform operationName (.object members) else
        .ok ()) >>= fun _ =>
        match Json.findMember members (lit "data") with
        | none =>
          .error (invalidResponse client.platform operationName
            "Execute graph query does not have 'data' field in " ", invalid response: " (.object members))
        | some data => .ok (if returnRawResponse then .object members else data)) := by
  rw [ControllerClient.graphResult]
  cases checkForErrors with
  | false => cases Json.findMember members (lit "data") <;> rfl
  | true =>
    rw [if_pos rfl, if_pos rfl, lookForErrors_object]
    cases Json.findMember members (lit "errors") with
    | none => cases Json.findMember members (lit "data") <;> rfl
    | some value =>
      cases value with
      | array elements =>
        cases elements with
        | nil => cases Json.findMember members (lit "data") <;> rfl
        | cons error errors => rfl
      | _ => cases Json.findMember members (lit "data") <;> rfl

/-- What a call with this outcome leaves: the result, or null. -/
def settled : Except Thrown Json → Except Thrown Unit × Json
  | .ok value => (.ok (), value)
  | .error e => (.error e, .null)

theorem executeGraphQueryInto_eq (client : ControllerClient) (desturi operationName : Text)
    (checkForErrors returnRawResponse : Bool) (asked : Transfer) (rResult : Json) :
    executeGraphQueryInto client.platform desturi operationName checkForErrors returnRawResponse asked rResult =
      settled (asked.callPost client.platform desturi >>= client.graphResult operationName checkForErrors
        returnRawResponse) := by
  rw [executeGraphQueryInto, bind_ok (update_apply ..)]
  cases asked.callPost client.platform desturi with
  | error e => rfl
  | ok rResultDoc =>
    rw [lift_ok_bind]
    change _ = settled (client.graphResult operationName checkForErrors returnRawResponse rResultDoc)
    cases rResultDoc with
    | object members =>
      have object : (Json.object members).isObject = true := rfl
      rw [if_pos object, memberFound_object, graphResult_object]
      cases if checkForErrors then lookForErrors client.platform operationName (.object members) else .ok () with
      | error e => rfl
      | ok _ =>
        cases found : Json.findMember members (lit "data") with
        | none => rfl
        | some data =>
          change (if true = true then _ else _ : Loading Thrown Json Unit) .null = _
          rw [if_pos rfl, memberAt_object found]
          cases returnRawResponse <;> rfl
    | _ => rfl

def documentedErrorCode (members : Json.Members) : Text :=
  match Json.findMember members (lit "extensions") with
  | some (.object extensions) =>
    match Json.findMember extensions (lit "errorCode") with
    | some (.string errorCode) => errorCode
    | _ => lit "unknown"
  | _ => lit "unknown"

def documentedError? : Json → Option (Text × Text)
  | .object members =>
    match Json.findMember members (lit "message") with
    | some (.string message) => some (message, documentedErrorCode members)
    | _ => none
  | _ => none

inductive GraphAnswer where
  | data (value : Json)
  | error (message errorCode : Text)
  | undefinedErrors
  | noData

/-- Errors first: they are there as an array that is not empty. -/
def graphAnswer (members : Json.Members) : GraphAnswer :=
  match Json.findMember members (lit "errors") with
  | some (.array (error :: errors)) =>
    match (error :: errors).findSome? documentedError? with
    | some (message, errorCode) => .error message errorCode
    | none => .undefinedErrors
  | _ =>
    match Json.findMember members (lit "data") with
    | some value => .data value
    | none => .noData

def GraphAnswer.Settles (operationName : Text) (ended : Except Thrown Unit × Json) : GraphAnswer → Prop
  | .data value => ended = (.ok (), value)
  | .error message errorCode => ended =
    (.error (.graphQuery (lit "graph query has errors \"" ++ cString operationName ++ lit "\": " ++ message)
      errorCode), .null)
  | .undefinedErrors | .noData => ∃ text, ended = (.error (.mujin ⟨text, .httpServer⟩), .null)

/-- No zero byte ends the message or the code of a documented error early. -/
def GraphAnswer.Whole : GraphAnswer → Prop
  | .error message errorCode => NulFree message ∧ NulFree errorCode
  | _ => True

/-- `errors` is absent, no array or an empty one. -/
def ErrorFree (members : Json.Members) : Prop :=
  ∀ error errors, Json.findMember members (lit "errors") ≠ some (.array (error :: errors))

theorem graphAnswer_free (free : ErrorFree members) : graphAnswer members =
    match Json.findMember members (lit "data") with
    | some value => .data value
    | none => .noData := by
  rw [graphAnswer]
  split
  · rename_i error errors found
    exact absurd found (free error errors)
  · rfl

theorem graphAnswer_reported (found : Json.findMember members (lit "errors") =
    some (.array (error :: errors))) : graphAnswer members =
    match (error :: errors).findSome? documentedError? with
    | some (message, errorCode) => .error message errorCode
    | none => .undefinedErrors := by
  rw [graphAnswer, found]

theorem errorFree_or_reported (members : Json.Members) :
    ErrorFree members ∨ ∃ error errors, Json.findMember members (lit "errors") =
      some (.array (error :: errors)) := by
  by_cases free : ErrorFree members
  · exact .inl free
  · exact .inr (by simpa [ErrorFree] using free)

theorem replyToPost_eq (platform : Platform) (desturi : Text) (http_code : Int) (body : Text) :
    replyToPost platform desturi 200 http_code body =
      match Transfer.document body with
      | none => .error .invalidJson
      | some v =>
        if http_code = 200 then .ok (http_code, v)
        else getErrorMessage platform v >>= fun message =>
          .error (httpError "POST" desturi http_code (lit ": " ++ message)) := by
  have status (v : Json) : (do
      if (200 : Int) ≠ 0 ∧ http_code ≠ 200 then
        let error_message ← getErrorMessage platform v
        throw (httpError "POST" desturi http_code (lit ": " ++ error_message))
      return (http_code, v) : Except Thrown (Int × Json)) =
        if http_code = 200 then .ok (http_code, v)
        else getErrorMessage platform v >>= fun message =>
          .error (httpError "POST" desturi http_code (lit ": " ++ message)) := by
    by_cases expected : http_code = 200
    · simp [expected]
      rfl
    · simp [expected]
      cases getErrorMessage platform v <;> rfl
  unfold replyToPost Transfer.document parseJsonStream
  by_cases empty : body = []
  · simp only [empty, ne_eq, not_true_eq_false, if_false]
    exact status (.object [])
  · simp only [empty, ne_eq, not_false_eq_true, if_true]
    cases readJson clientToken (cString body) with
    | none => rfl
    | some v => exact status v

/-- The text of an error is looked up without an assertion that fails. -/
theorem getErrorMessage_asserts (platform : Platform) (v : Json) :
    getErrorMessage platform v ≠ .error (.load .assertion) := by
  cases v with
  | object members =>
    cases found : Json.findMember members (lit "error_message") with
    | none => simp [getErrorMessage, getStringByKey, found, Except.mapError]
    | some message =>
      cases null : message.isNull with
      | true =>
        cases message with
        | null => simp [getErrorMessage, getStringByKey, found, Except.mapError]
        | _ => simp [Json.isNull] at null
      | false =>
        rw [getErrorMessage, getStringByKey_member platform found null]
        cases known : loadString message with
        | ok t => simp [Except.mapError]
        | error e =>
          have rejected : e = cannotConvertJson "String" message := by
            unfold loadString at known
            split at known
            · cases known
            · split at known
              · cases known
              · exact (Except.error.inj known).symm
          simp [Except.mapError, rejected, cannotConvertJson, LoadError.atKey]
  | _ => simp [getErrorMessage, getStringByKey, Except.mapError]

/-- A transfer gives its document, or fails the call, and then not for an assertion of the code. -/
theorem callPost_spec (platform : Platform) (desturi : Text) (asked : Transfer) :
    (∃ rResultDoc, asked.callPost platform desturi = .ok rResultDoc ∧ ∀ v, asked.Receives v ↔ v = rResultDoc) ∨
      ∃ e, asked.callPost platform desturi = .error e ∧ (∀ v, ¬asked.Receives v) ∧
        (e = .load .assertion → asked = .failed (.load .assertion)) := by
  cases asked with
  | failed e =>
    refine .inr ⟨e, rfl, ?_, fun same => congrArg Transfer.failed same⟩
    rintro v ⟨body, other, -⟩
    cases other
  | replied http_code body =>
    have receives (v : Json) : (Transfer.replied http_code body).Receives v ↔ http_code = 200 ∧
        Transfer.document body = some v := by
      simp [Transfer.Receives, and_assoc]
    rw [Transfer.callPost, replyToPost_eq]
    cases read : Transfer.document body with
    | none => exact .inr ⟨.invalidJson, rfl, fun v => by simp [receives, read], by simp⟩
    | some rResultDoc =>
      dsimp only
      by_cases expected : http_code = 200
      · rw [if_pos expected]
        refine .inl ⟨rResultDoc, rfl, fun v => ?_⟩
        rw [receives, read, and_iff_right expected, Option.some.injEq, eq_comm]
      · rw [if_neg expected]
        refine .inr ?_
        cases message : getErrorMessage platform rResultDoc with
        | ok text => exact ⟨_, rfl, fun v => by simp [receives, expected], by simp [httpError]⟩
        | error e =>
          refine ⟨e, rfl, fun v => by simp [receives, expected], ?_⟩
          rintro rfl
          exact absurd message (getErrorMessage_asserts platform rResultDoc)

theorem graphError?_eq (operationName : Text) (rError : Json) : ControllerClient.graphError? operationName rError =
    (documentedError? rError).map fun documented => .graphQuery
      (lit "graph query has errors \"" ++ cString operationName ++ lit "\": " ++ cString documented.1)
    (cString documented.2) := by
  have unknown : cString (lit "unknown") = lit "unknown" := by decide
  cases rError with
  | object members =>
    rw [ControllerClient.graphError?, documentedError?, documentedErrorCode]
    cases Json.findMember members (lit "message") with
    | none => rfl
    | some message =>
      cases message with
      | string t =>
        cases Json.findMember members (lit "extensions") with
        | none => simp [unknown]
        | some extensions =>
          cases extensions with
          | object extensions =>
            dsimp only
            cases Json.findMember extensions (lit "errorCode") with
            | none => simp [unknown]
            | some code => cases code <;> simp [unknown]
          | _ => simp [unknown]
      | _ => rfl
  | _ => rfl

theorem findSome?_graphError? (operationName : Text) (elements : List Json) :
    elements.findSome? (ControllerClient.graphError? operationName) =
      (elements.findSome? documentedError?).map fun documented => .graphQuery
        (lit "graph query has errors \"" ++ cString operationName ++ lit "\": " ++ cString documented.1)
    (cString documented.2) := by
  induction elements with
  | nil => rfl
  | cons rError rest ih =>
    rw [List.findSome?_cons, List.findSome?_cons, graphError?_eq, ih]
    cases documentedError? rError <;> rfl

/-- The checked call on an object, with the strings cut as C strings are. -/
theorem graphResult_answer (client : ControllerClient) (operationName : Text) (members : Json.Members) :
    client.graphResult operationName true false (.object members) =
      match graphAnswer members with
      | .data value => .ok value
      | .error message errorCode => .error (.graphQuery
          (lit "graph query has errors \"" ++ cString operationName ++ lit "\": " ++ cString message)
    (cString errorCode))
      | .undefinedErrors =>
        .error (invalidResponse client.platform operationName "graph query has undefined errors " ": "
          (.object members))
      | .noData =>
        .error (invalidResponse client.platform operationName
          "Execute graph query does not have 'data' field in " ", invalid response: " (.object members)) := by
  rw [graphResult_object, if_pos rfl, lookForErrors_object]
  rcases errorFree_or_reported members with free | ⟨error, errors, found⟩
  · rw [graphAnswer_free free]
    split
    · rename_i error errors found
      exact absurd found (free error errors)
    · cases Json.findMember members (lit "data") <;> rfl
  · rw [graphAnswer_reported found, found]
    dsimp only
    rw [findSome?_graphError?]
    cases (error :: errors).findSome? documentedError? <;> rfl

/-- The checked call ends as documented exactly if no zero byte cuts what it reports. -/
theorem settles_iff (client : ControllerClient) (operationName : Text) (members : Json.Members) :
    (graphAnswer members).Settles operationName
      (settled (client.graphResult operationName true false (.object members))) ↔
      (graphAnswer members).Whole := by
  rw [graphResult_answer]
  cases graphAnswer members with
  | data value => exact iff_of_true rfl trivial
  | undefinedErrors | noData => exact iff_of_true ⟨_, rfl⟩ trivial
  | error message errorCode =>
    simp only [GraphAnswer.Settles, GraphAnswer.Whole, settled, Prod.mk.injEq, Except.error.injEq,
      Thrown.graphQuery.injEq,
      List.append_cancel_left_eq, and_true, cString_eq_self_iff]

theorem posted_of_receives (platform : Platform) (desturi : Text) {asked : Transfer}
    (received : asked.Receives rResultDoc) :
    asked.callPost platform desturi = .ok rResultDoc := by
  rcases callPost_spec platform desturi asked with ⟨v, posted, receives⟩ | ⟨e, posted, receives, -⟩
  · rw [posted, (receives _).mp received]
  · exact absurd received (receives _)

theorem settled_ok_iff {outcome : Except Thrown Json} :
    (settled outcome).1 = .ok () ↔ ∃ value, outcome = .ok value := by
  cases outcome <;> simp [settled]

theorem settled_null {outcome : Except Thrown Json} (thrown : (settled outcome).1 ≠ .ok ()) :
    (settled outcome).2 = .null := by
  cases outcome with
  | ok value => exact absurd rfl thrown
  | error e => rfl

/-- The call returns exactly for an object with data and without errors and gives the data, and
otherwise throws and leaves null. It reports the first described error, and never reads what is
not there. -/
structure Classified (operationName : Text) (asked : Transfer) (ended : Except Thrown Unit × Json) : Prop where
  returns : ended.1 = .ok () ↔ ∃ members data, asked.Receives (.object members) ∧ ErrorFree members ∧
    Json.findMember members (lit "data") = some data
  result : ended.1 = .ok () → ∀ members data, asked.Receives (.object members) →
    Json.findMember members (lit "data") = some data → ended.2 = data
  null : ended.1 ≠ .ok () → ended.2 = .null
  reported : ∀ members, asked.Receives (.object members) → ¬ErrorFree members →
    (graphAnswer members).Settles operationName ended
  accesses : ended.1 = .error (.load .assertion) → asked = .failed (.load .assertion)

/-- On an object the answer decides whether the call returns. -/
theorem graphResult_ok_iff (client : ControllerClient) (operationName : Text) (members : Json.Members) :
    client.graphResult operationName true false (.object members) = .ok value ↔
      ErrorFree members ∧ Json.findMember members (lit "data") = some value := by
  rw [graphResult_answer]
  rcases errorFree_or_reported members with free | ⟨error, errors, found⟩
  · rw [graphAnswer_free free]
    cases Json.findMember members (lit "data") <;> simp [free]
  · have reported : ¬ErrorFree members := fun free => free error errors found
    rw [graphAnswer_reported found]
    cases (error :: errors).findSome? documentedError? <;> simp [reported]

theorem graphResult_asserts (client : ControllerClient) (operationName : Text) (rResultDoc : Json) :
    client.graphResult operationName true false rResultDoc ≠ .error (.load .assertion) := by
  cases rResultDoc with
  | object members =>
    rw [graphResult_answer]
    cases graphAnswer members <;> simp [invalidResponse]
  | _ => intro thrown; cases thrown

theorem settled_asserts (client : ControllerClient) (operationName : Text) (rResultDoc : Json) :
    (settled (client.graphResult operationName true false rResultDoc)).1 ≠ .error (.load .assertion) := by
  intro thrown
  cases outcome : client.graphResult operationName true false rResultDoc with
  | ok value => simp [outcome, settled] at thrown
  | error e =>
    rw [outcome] at thrown
    obtain rfl := Except.error.inj thrown
    exact absurd outcome (graphResult_asserts client operationName rResultDoc)

theorem classified_object_iff (client : ControllerClient) (operationName : Text) {asked : Transfer}
    (receives : ∀ v, asked.Receives v ↔ v = .object members) :
    Classified operationName asked (settled (client.graphResult operationName true false (.object members))) ↔
      (graphAnswer members).Whole := by
  have only {other : Json.Members} (received : asked.Receives (.object other)) : other = members :=
    Json.object.inj ((receives _).mp received)
  have settles := settles_iff client operationName members
  constructor
  · intro classified
    by_cases free : ErrorFree members
    · rw [graphAnswer_free free]
      cases Json.findMember members (lit "data") <;> trivial
    · exact settles.mp (classified.reported members ((receives _).mpr rfl) free)
  · intro whole
    refine ⟨?_, ?_, settled_null, ?_, fun thrown => absurd thrown (settled_asserts _ _ _)⟩
    · rw [settled_ok_iff]
      constructor
      · rintro ⟨value, returned⟩
        obtain ⟨free, found⟩ := (graphResult_ok_iff ..).mp returned
        exact ⟨members, value, (receives _).mpr rfl, free, found⟩
      · rintro ⟨other, data, received, free, found⟩
        obtain rfl := only received
        exact ⟨data, (graphResult_ok_iff ..).mpr ⟨free, found⟩⟩
    · intro returned other data received found
      obtain rfl := only received
      obtain ⟨value, returned⟩ := settled_ok_iff.mp returned
      have known := ((graphResult_ok_iff ..).mp returned).2
      rw [returned]
      exact Option.some.inj (known.symm.trans found)
    · intro other received reported
      obtain rfl := only received
      exact settles.mpr whole

/-- Where no object is received, nothing may be returned. -/
theorem classified_nothing {asked : Transfer} {ended : Except Thrown Unit × Json}
    (none : ∀ members, ¬asked.Receives (.object members))
    (throws : ended.1 ≠ .ok ()) (null : ended.2 = .null)
    (asserts : ended.1 = .error (.load .assertion) → asked = .failed (.load .assertion)) :
    Classified operationName asked ended where
  returns := iff_of_false throws fun ⟨members, _, received, _⟩ => none members received
  result returned := absurd returned throws
  null _ := null
  reported members received := absurd received (none members)
  accesses := asserts

/-- `ExecuteGraphQuery` classifies every response as documented, but for the C strings it takes the
message and the code of an error from. -/
theorem executeGraphQuery_classified_iff (client : ControllerClient) (desturi operationName : Text)
    (asked : Transfer) (rResult : Json) :
    Classified operationName asked
      (executeGraphQueryInto client.platform desturi operationName true false asked rResult) ↔
      ∀ members, asked.Receives (.object members) → (graphAnswer members).Whole := by
  rw [executeGraphQueryInto_eq]
  rcases callPost_spec client.platform desturi asked with ⟨rResultDoc, posted, receives⟩ | ⟨e, posted,
      receives, asserts⟩
  · rw [posted]
    change Classified operationName asked (settled (client.graphResult operationName true false rResultDoc)) ↔ _
    cases rResultDoc with
    | object members =>
      refine (classified_object_iff client operationName receives).trans
        ⟨fun whole other received => ?_, fun all => ?_⟩
      · obtain rfl := Json.object.inj ((receives _).mp received)
        exact whole
      · exact all members ((receives _).mpr rfl)
    | _ =>
      have none (members : Json.Members) : ¬asked.Receives (.object members) :=
        fun received => by cases (receives _).mp received
      refine iff_of_true (classified_nothing none ?_ rfl fun thrown =>
        absurd thrown (settled_asserts _ _ _)) fun members received =>
        absurd received (none members)
      exact fun returned => by cases returned
  · rw [posted]
    change Classified operationName asked (.error e, .null) ↔ _
    refine iff_of_true (classified_nothing (fun members => receives _) (by simp) rfl ?_)
      fun members received => absurd received (receives _)
    exact fun thrown => asserts (Except.error.inj thrown)

/-- A response with one error, whose message has a zero byte. -/
def cutMessage : Transfer := .replied 200 (lit "\x7b\"errors\":[\x7b\"message\":\"a\\u0000b\"\x7d]\x7d")

def cutMembers : Json.Members :=
  [(lit "errors", .array [.object [(lit "message", .string [byte 'a', 0, byte 'b'])]])]

theorem receives_cutMessage : cutMessage.Receives (.object cutMembers) := ⟨_, rfl, by decide +kernel⟩

/-- The reported message ends at the zero byte. -/
theorem message_cut :
    ¬∀ (client : ControllerClient) (desturi operationName : Text) (asked : Transfer) (rResult : Json),
    Classified operationName asked
      (executeGraphQueryInto client.platform desturi operationName true false asked rResult) := by
  intro each
  have found : Json.findMember cutMembers (lit "errors") =
      some (.array [.object [(lit "message", .string [byte 'a', 0, byte 'b'])]]) :=
    Json.findMember_cons_same
  have reported :=
    (each default [] [] cutMessage .null).reported cutMembers receives_cutMessage fun free => free _ _ found
  rw [executeGraphQueryInto_eq, posted_of_receives (default : ControllerClient).platform []
    receives_cutMessage] at reported
  have whole : (graphAnswer cutMembers).Whole := (settles_iff default [] cutMembers).mp reported
  have answer : graphAnswer cutMembers = .error [byte 'a', 0, byte 'b'] (lit "unknown") :=
    graphAnswer_reported found
  rw [answer] at whole
  exact whole.1 (by simp)

theorem graphResult_raw (client : ControllerClient) (operationName : Text) (members : Json.Members) :
    settled (client.graphResult operationName false true (.object members)) = (.ok (), .object members) ↔
      ∃ data, Json.findMember members (lit "data") = some data := by
  rw [graphResult_object]
  cases Json.findMember members (lit "data") with
  | none => simp [settled, bind, Except.bind]
  | some data => exact iff_of_true rfl ⟨data, rfl⟩

/-- The raw call gives every object as it is, and the checked call what the documentation makes of it,
exactly where there is a data member: the raw call asks for one as well. -/
theorem executeGraphQueryRaw_agrees_iff (client : ControllerClient) (desturi operationName : Text)
    {asked : Transfer}
    {members : Json.Members} (received : asked.Receives (.object members)) (rResult rResultRaw : Json) :
    (executeGraphQueryInto client.platform desturi operationName false true asked rResultRaw =
      (.ok (), .object members) ∧
        (graphAnswer members).Settles operationName
          (executeGraphQueryInto client.platform desturi operationName true false asked rResult)) ↔
      (∃ data, Json.findMember members (lit "data") = some data) ∧ (graphAnswer members).Whole := by
  rw [executeGraphQueryInto_eq, executeGraphQueryInto_eq, posted_of_receives client.platform desturi received]
  exact and_congr (graphResult_raw ..) (settles_iff ..)

def errorsOnly : Transfer := .replied 200 (lit "\x7b\"errors\":[\x7b\"message\":\"denied\"\x7d]\x7d")

def errorMembers : Json.Members := [(lit "errors", .array [.object [(lit "message", .string (lit "denied"))]])]

theorem receives_errorsOnly : errorsOnly.Receives (.object errorMembers) := ⟨_, rfl, by decide +kernel⟩

theorem executeGraphQueryRaw_agrees_iff_errorsOnly :
    (executeGraphQueryInto (default : ControllerClient).platform [] [] false true errorsOnly .null =
      (.ok (), .object errorMembers) ∧
        (graphAnswer errorMembers).Settles []
          (executeGraphQueryInto (default : ControllerClient).platform [] [] true false errorsOnly .null)) ↔
      (∃ data, Json.findMember errorMembers (lit "data") = some data) ∧ (graphAnswer errorMembers).Whole :=
  executeGraphQueryRaw_agrees_iff default [] [] receives_errorsOnly .null .null

/-- The raw call throws, for want of data. -/
theorem errors_not_seen :
    ¬∀ (client : ControllerClient) (desturi operationName : Text) (asked : Transfer)
      (members : Json.Members), asked.Receives (.object members) → ∀ rResult rResultRaw : Json,
      executeGraphQueryInto client.platform desturi operationName false true asked rResultRaw =
        (.ok (), .object members) ∧
        (graphAnswer members).Settles operationName
          (executeGraphQueryInto client.platform desturi operationName true false asked rResult) := by
  intro each
  have raw := (each default [] [] errorsOnly errorMembers receives_errorsOnly .null .null).1
  rw [executeGraphQueryInto_eq, posted_of_receives (default : ControllerClient).platform []
    receives_errorsOnly] at raw
  obtain ⟨data, found⟩ := (graphResult_raw default [] errorMembers).mp raw
  have absent : Json.findMember errorMembers (lit "data") = none := by decide
  rw [absent] at found
  nomatch found

end MujinClient
