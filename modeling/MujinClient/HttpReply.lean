import MujinClient.JsonReader
import MujinClient.JsonTypes

/-! What the request functions of the client make of an HTTP status and a response body. -/
namespace MujinClient

inductive Thrown where
  | mujin (e : MujinException)
  /-- The `MujinJSONException` of a `ParseJson`. -/
  | invalidJson
  | load (e : LoadError)
  /-- `MujinGraphQueryError`, with its error code. -/
  | graphQuery (text errorCode : Text)
  /-- Another `std::exception`, of the standard library or of boost. -/
  | standard
  deriving DecidableEq

/-- `ParseJson(r, alloc, stream)`. Other than the overload for a string it takes no byte
order mark. -/
def parseJsonStream (t : Text) : Except Thrown Json :=
  match readJson clientToken (cString t) with
  | some v => .ok v
  | none => .error .invalidJson

/-- `ParseJson(d, str)`. -/
def parseJsonText (t : Text) : Except Thrown Json :=
  match parseJson t with
  | some v => .ok v
  | none => .error .invalidJson

variable (platform : Platform)

/-- `GetJsonValueByKey<std::string>(v, key)`. -/
def getStringByKey (v : Json) (key : String) : Except LoadError Text :=
  match v with
  | .object members =>
    match Json.findMember members (lit key) with
    | none | some .null => .ok []
    | some member => (fresh [] (loadJsonValue platform .string) member).mapError (LoadError.atKey (lit key))
  | _ => .error (.message (lit "Cannot load value of non-object."))

def getErrorMessage (v : Json) : Except Thrown Text := (getStringByKey platform v "error_message").mapError .load

/-- The exception for an unexpected status. Its text starts with the place in the source, left out here. -/
def httpError (verb : String) (uri : Text) (http_code : Int) (detail : Text) : Thrown := .mujin
  ⟨lit "HTTP " ++ lit verb ++ lit " to '" ++ uri ++ lit "' returned HTTP status " ++ intText http_code ++
    detail, .httpServer⟩

/-- `_CallGet` into a value. -/
def replyToGetValue (desturi : Text) (rResponse : Json) (expectedhttpcode http_code : Int) (body : Text) :
    Except Thrown (Int × Json) := do
  let rResponse ← if body ≠ [] then parseJsonStream body else pure rResponse
  if expectedhttpcode ≠ 0 ∧ http_code ≠ expectedhttpcode then
    let error_message ← getErrorMessage platform rResponse
    throw (httpError "GET" desturi http_code (lit ": " ++ error_message))
  return (http_code, rResponse)

/-- `_CallGet` into a string and into a vector. -/
def replyToGetText (desturi : Text) (expectedhttpcode http_code : Int) (outputdata : Text) :
    Except Thrown Int := do
  if expectedhttpcode ≠ 0 ∧ http_code ≠ expectedhttpcode then
    if outputdata ≠ [] then
      let d ← parseJsonText outputdata
      let error_message ← getErrorMessage platform d
      throw (httpError "GET" desturi http_code (lit ": " ++ error_message))
    throw (httpError "GET" desturi http_code [])
  return http_code

/-- `_CallGet` into a stream. -/
def replyToGetStream (desturi : Text) (expectedhttpcode http_code : Int) : Except Thrown Int := do
  if expectedhttpcode ≠ 0 ∧ http_code ≠ expectedhttpcode then
    throw (httpError "GET" desturi http_code (lit " (outputStream might have information)"))
  return http_code

/-- `_CallPost`, of data and of a form. -/
def replyToPost (desturi : Text) (expectedhttpcode http_code : Int) (body : Text) :
    Except Thrown (Int × Json) := do
  let rResult ← if body ≠ [] then parseJsonStream body else pure (.object [])
  if expectedhttpcode ≠ 0 ∧ http_code ≠ expectedhttpcode then
    let error_message ← getErrorMessage platform rResult
    throw (httpError "POST" desturi http_code (lit ": " ++ error_message))
  return (http_code, rResult)

def replyToPut (relativeuri : Text) (expectedhttpcode http_code : Int) (body : Text) :
    Except Thrown (Int × Json) := do
  let pt ← if body ≠ [] then parseJsonText body else pure (.object [])
  if expectedhttpcode ≠ 0 ∧ http_code ≠ expectedhttpcode then
    let error_message ← getErrorMessage platform pt
    throw (httpError "PUT" relativeuri http_code (lit ": " ++ error_message))
  return (http_code, pt)

def replyToDelete (relativeuri : Text) (expectedhttpcode http_code : Int) (body : Text) : Except Thrown Unit := do
  if http_code ≠ expectedhttpcode then
    let d ← parseJsonText body
    let error_message ← getErrorMessage platform d
    throw (httpError "DELETE" relativeuri http_code (lit ": " ++ error_message))

inductive WebRequest where
  /-- `rResponse` is what the caller's value holds before. -/
  | getValue (desturi : Text) (rResponse : Json)
  | getString (desturi : Text)
  | getStream (desturi : Text)
  | getVector (desturi : Text)
  | postData (desturi : Text)
  | postForm (desturi : Text)
  | put (relativeuri : Text)
  | delete (relativeuri : Text)

namespace WebRequest

def outcome (expectedhttpcode http_code : Int) (body : Text) : WebRequest → Except Thrown Unit
  | .getValue uri rResponse =>
    (replyToGetValue platform uri rResponse expectedhttpcode http_code body).map fun _ => ()
  | .getString uri | .getVector uri =>
    (replyToGetText platform uri expectedhttpcode http_code body).map fun _ => ()
  | .getStream uri => (replyToGetStream uri expectedhttpcode http_code).map fun _ => ()
  | .postData uri | .postForm uri => (replyToPost platform uri expectedhttpcode http_code body).map fun _ => ()
  | .put uri => (replyToPut platform uri expectedhttpcode http_code body).map fun _ => ()
  | .delete uri => replyToDelete platform uri expectedhttpcode http_code body

/-- The document the error message is looked up in. -/
def errorDocument (body : Text) : WebRequest → Option Json
  | .getValue _ rResponse => if body ≠ [] then readJson clientToken (cString body) else some rResponse
  | .getStream _ => some (.object [])
  | .postData _ | .postForm _ => if body ≠ [] then readJson clientToken (cString body) else some (.object [])
  | .getString _ | .getVector _ | .put _ => if body ≠ [] then parseJson body else some (.object [])
  | .delete _ => parseJson body

end WebRequest

/-- An object whose error message, if there is one, is a string, an integer or null. -/
def HasErrorMessage : Json → Prop
  | .object members => ∀ message, Json.findMember members (lit "error_message") = some message →
    message.isNull = true ∨ message.isString = true ∨ message.isInt64 = true
  | _ => False

/-- The failure every unexpected status is to be reported with. -/
def ReportsStatus (outcome : Except Thrown α) : Prop := ∃ text, outcome = .error (.mujin ⟨text, .httpServer⟩)

variable {platform : Platform}

theorem fresh_string (v : Json) : fresh [] (loadJsonValue platform .string) v = loadString v := by
  cases known : loadString v <;> simp [fresh, loadJsonValue, Loading.assign, Loading.bind_apply, known]

theorem getStringByKey_member (platform : Platform) {message : Json}
    (found : Json.findMember members (lit key) = some message) (null : message.isNull = false) :
    getStringByKey platform (.object members) key = (loadString message).mapError (LoadError.atKey (lit key)) := by
  unfold getStringByKey
  dsimp only
  rw [found]
  cases message with
  | null => simp [Json.isNull] at null
  | _ => dsimp only; rw [fresh_string]

theorem getErrorMessage_spec (platform : Platform) (v : Json) :
    (HasErrorMessage v ∧ ∃ t, getErrorMessage platform v = .ok t) ∨
      (¬HasErrorMessage v ∧ ∃ e, getErrorMessage platform v = .error (.load e)) := by
  cases v with
  | object members =>
    cases found : Json.findMember members (lit "error_message") with
    | none =>
      have absent : getStringByKey platform (.object members) "error_message" = .ok [] := by
        simp [getStringByKey, found]
      exact .inl ⟨fun message same => by simp [found] at same, [], by rw [getErrorMessage, absent]; rfl⟩
    | some message =>
      have only : ∀ other, Json.findMember members (lit "error_message") = some other → other = message :=
        fun other same => Option.some.inj (same.symm.trans found)
      cases null : message.isNull with
      | true =>
        have read : getStringByKey platform (.object members) "error_message" = .ok [] := by
          cases message with
          | null => simp [getStringByKey, found]
          | _ => simp [Json.isNull] at null
        exact .inl ⟨fun other same => .inl (only other same ▸ null), [], by rw [getErrorMessage, read]; rfl⟩
      | false =>
        have read := getStringByKey_member platform found null
        have loads := loadString_ok_iff message
        rw [getErrorMessage, read]
        cases known : loadString message with
        | ok t =>
          have readable := loads.mp ⟨t, known⟩
          exact .inl ⟨fun other same => .inr (only other same ▸ readable), t, rfl⟩
        | error e =>
          refine .inr ⟨fun has => ?_, _, rfl⟩
          obtain ⟨t, ok⟩ := loads.mpr ((has message found).resolve_left (by simp [null]))
          simp [known] at ok
  | _ => exact .inr ⟨id, _, rfl⟩

theorem hasErrorMessage_empty : HasErrorMessage (.object []) :=
  fun message found => by simp [Json.findMember] at found

theorem reportsStatus_httpError : ReportsStatus (throw (httpError verb uri status detail) : Except Thrown α) :=
  ⟨_, rfl⟩

/-- Where the document is parsed and its message put into the error. -/
theorem reportsStatus_iff (document : Option Json) {parsed : Except Thrown Json}
    (known : parsed = match document with | some v => .ok v | none => .error .invalidJson) :
    ReportsStatus (parsed >>= fun d => getErrorMessage platform d >>= fun message =>
      (throw (httpError verb uri status (lit ": " ++ message)) : Except Thrown α)) ↔
    ∃ d, document = some d ∧ HasErrorMessage d := by
  subst known
  cases document with
  | none => simp [ReportsStatus, bind, Except.bind]
  | some v =>
    rcases getErrorMessage_spec platform v with ⟨readable, t, message⟩ | ⟨unreadable, e, message⟩
    · simp [readable, message, bind, Except.bind, reportsStatus_httpError]
    · simp [unreadable, message, bind, Except.bind, ReportsStatus]

/-- Where the document is only parsed from a body that is not empty. -/
theorem reportsStatus_given (document : Option Json) {parsed : Except Thrown Json}
    (known : parsed = match document with | some v => .ok v | none => .error .invalidJson) (body : Text)
    (given : Json) :
    ReportsStatus (if ¬body = [] then parsed >>= fun d => getErrorMessage platform d >>= fun message =>
        (throw (httpError verb uri status (lit ": " ++ message)) : Except Thrown α)
      else pure given >>= fun d => getErrorMessage platform d >>= fun message =>
        (throw (httpError verb uri status (lit ": " ++ message)) : Except Thrown α)) ↔
    ∃ d, (if ¬body = [] then document else some given) = some d ∧ HasErrorMessage d := by
  by_cases empty : body = []
  · simp only [empty, not_true_eq_false, if_false]
    exact reportsStatus_iff (some given) rfl
  · simp only [empty, not_false_eq_true, if_true]
    exact reportsStatus_iff document known

theorem reportsStatus_map {outcome : Except Thrown α} (f : α → β) :
    ReportsStatus (outcome.map f) ↔ ReportsStatus outcome := by
  cases outcome <;> simp [ReportsStatus, Except.map]

section

variable {expectedhttpcode http_code : Int} (expected : expectedhttpcode ≠ 0)
    (unexpected : http_code ≠ expectedhttpcode)
include expected unexpected

theorem replyToGetValue_reports :
    ReportsStatus (replyToGetValue platform uri rResponse expectedhttpcode http_code body) ↔
    ∃ d, (if body ≠ [] then readJson clientToken (cString body) else some rResponse) = some d ∧
      HasErrorMessage d := by
  simp only [replyToGetValue, expected, unexpected, ne_eq, not_false_eq_true, and_self, if_true]
  exact reportsStatus_given (readJson clientToken (cString body)) rfl body rResponse

theorem replyToGetText_reports : ReportsStatus (replyToGetText platform uri expectedhttpcode http_code body) ↔
    ∃ d, (if body ≠ [] then parseJson body else some (.object [])) = some d ∧ HasErrorMessage d := by
  simp only [replyToGetText, expected, unexpected, ne_eq, not_false_eq_true, and_self, if_true]
  by_cases empty : body = []
  · simp only [empty, not_true_eq_false, if_false]
    exact iff_of_true reportsStatus_httpError ⟨_, rfl, hasErrorMessage_empty⟩
  · simp only [empty, not_false_eq_true, if_true]
    exact reportsStatus_iff _ rfl

theorem replyToGetStream_reports : ReportsStatus (replyToGetStream uri expectedhttpcode http_code) := by
  simp only [replyToGetStream, expected, unexpected, ne_eq, not_false_eq_true, and_self, if_true]
  exact reportsStatus_httpError

theorem replyToPost_reports : ReportsStatus (replyToPost platform uri expectedhttpcode http_code body) ↔
    ∃ d, (if body ≠ [] then readJson clientToken (cString body) else some (.object [])) = some d ∧
      HasErrorMessage d := by
  simp only [replyToPost, expected, unexpected, ne_eq, not_false_eq_true, and_self, if_true]
  exact reportsStatus_given (readJson clientToken (cString body)) rfl body (.object [])

theorem replyToPut_reports : ReportsStatus (replyToPut platform uri expectedhttpcode http_code body) ↔
    ∃ d, (if body ≠ [] then parseJson body else some (.object [])) = some d ∧ HasErrorMessage d := by
  simp only [replyToPut, expected, unexpected, ne_eq, not_false_eq_true, and_self, if_true]
  exact reportsStatus_given (parseJson body) rfl body (.object [])

omit expected in
theorem replyToDelete_reports : ReportsStatus (replyToDelete platform uri expectedhttpcode http_code body) ↔
    ∃ d, parseJson body = some d ∧ HasErrorMessage d := by
  simp only [replyToDelete, unexpected, ne_eq, not_false_eq_true, if_true]
  exact reportsStatus_iff _ rfl

end

/-- An unexpected status is reported as the server's failure exactly where the body has an
error message that can be read, or the request does not look for one. -/
theorem outcome_reportsStatus_iff (platform : Platform) (request : WebRequest) (body : Text)
    {expectedhttpcode http_code : Int} (expected : expectedhttpcode ≠ 0)
    (unexpected : http_code ≠ expectedhttpcode) :
    ReportsStatus (request.outcome platform expectedhttpcode http_code body) ↔
      ∃ d, request.errorDocument body = some d ∧ HasErrorMessage d := by
  cases request with
  | getValue uri rResponse => exact reportsStatus_map _ |>.trans (replyToGetValue_reports expected unexpected)
  | getString uri | getVector uri =>
    exact reportsStatus_map _ |>.trans (replyToGetText_reports expected unexpected)
  | getStream uri =>
    exact iff_of_true (reportsStatus_map _ |>.mpr (replyToGetStream_reports expected unexpected))
      ⟨_, rfl, hasErrorMessage_empty⟩
  | postData uri | postForm uri => exact reportsStatus_map _ |>.trans (replyToPost_reports expected unexpected)
  | put uri => exact reportsStatus_map _ |>.trans (replyToPut_reports expected unexpected)
  | delete uri => exact replyToDelete_reports unexpected

theorem outcome_reportsStatus_noContent :
    ReportsStatus (WebRequest.outcome default 200 502 [] (.postData (lit "h/v1/job/"))) :=
  (outcome_reportsStatus_iff default (.postData (lit "h/v1/job/")) [] (by decide) (by decide)).mpr
    ⟨_, rfl, hasErrorMessage_empty⟩

/-- A proxy answers the deletion of the jobs without a body. -/
theorem deletion_misreports :
    ¬∀ platform expectedhttpcode http_code body (request : WebRequest), expectedhttpcode ≠ 0 →
    http_code ≠ expectedhttpcode → ReportsStatus (request.outcome platform expectedhttpcode http_code body) := by
  intro every
  obtain ⟨text, reported⟩ := every default 204 502 [] (.delete (lit "h/v1/job/")) (by decide) (by decide)
  have thrown : WebRequest.outcome default 204 502 [] (.delete (lit "h/v1/job/")) = .error .invalidJson := by
    decide +kernel
  simp [thrown] at reported

end MujinClient
