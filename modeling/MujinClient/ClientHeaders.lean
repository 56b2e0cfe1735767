import MujinClient.CurlHandle

/-! The header lists of the client. A setter stores its argument and builds some of the lists
again; what the lists are to hold follows from the settings. -/
namespace MujinClient

/-- `curl_slist_append`, which copies a C string. A null list is empty. -/
def slistAppend (list : List Text) (string : Text) : List Text := list ++ [cString string]

structure ClientHeaders where
  charset : Text
  language : Text
  csrfmiddlewaretoken : Text
  additionalHeaders : List Text
  /-- `_clientInfo.additionalHeaders`. -/
  infoAdditionalHeaders : List Text
  httpheadersjson : List Text
  httpheadersstl : List Text
  httpheadersmultipartformdata : List Text

inductive HeaderSetter where
  | setCharacterEncoding (newencoding : Text)
  | setLanguage (language : Text)
  | setAdditionalHeaders (additionalHeaders : List Text)

namespace ClientHeaders

def setupHTTPHeadersJSON (s : ClientHeaders) : ClientHeaders :=
  let list := slistAppend [] (lit "Content-Type: application/json; charset=" ++ s.charset)
  let list := slistAppend list (lit "Accept-Language: " ++ s.language ++ lit ",en-us")
  let list := slistAppend list (lit "Accept-Charset: " ++ s.charset)
  let list := slistAppend list (lit "X-CSRFToken: " ++ s.csrfmiddlewaretoken)
  let list := slistAppend list (lit "Connection: Keep-Alive")
  let list := slistAppend list (lit "Keep-Alive: 20")
  { s with httpheadersjson := list }

/-- The list for a content type without a charset. -/
def setupHTTPHeaders (contentType : Text) (s : ClientHeaders) : List Text :=
  let list := slistAppend [] contentType
  let list := slistAppend list (lit "X-CSRFToken: " ++ s.csrfmiddlewaretoken)
  let list := slistAppend list (lit "Connection: Keep-Alive")
  let list := slistAppend list (lit "Keep-Alive: 20")
  s.additionalHeaders.foldl slistAppend list

def setupHTTPHeadersSTL (s : ClientHeaders) : ClientHeaders :=
  { s with httpheadersstl := s.setupHTTPHeaders (lit "Content-Type: application/sla") }

def setupHTTPHeadersMultipartFormData (s : ClientHeaders) : ClientHeaders :=
  { s with httpheadersmultipartformdata := s.setupHTTPHeaders (lit "Content-Type: multipart/form-data") }

def setCharacterEncoding (s : ClientHeaders) (newencoding : Text) : ClientHeaders :=
  setupHTTPHeadersJSON { s with charset := newencoding }

def setLanguage (s : ClientHeaders) (language : Text) : ClientHeaders :=
  setupHTTPHeadersJSON { s with language := if language ≠ [] then language else s.language }

def setAdditionalHeaders (s : ClientHeaders) (additionalHeaders : List Text) : ClientHeaders :=
  setupHTTPHeadersMultipartFormData <| setupHTTPHeadersSTL <| setupHTTPHeadersJSON
    { s with additionalHeaders, infoAdditionalHeaders := additionalHeaders }

def constructed : ClientHeaders :=
  setupHTTPHeadersMultipartFormData <| setupHTTPHeadersSTL <| setupHTTPHeadersJSON
    ⟨lit "utf-8", lit "en-us", lit "csrftoken", [], [], [], [], []⟩

def call (s : ClientHeaders) : HeaderSetter → ClientHeaders
  | .setCharacterEncoding newencoding => s.setCharacterEncoding newencoding
  | .setLanguage language => s.setLanguage language
  | .setAdditionalHeaders additionalHeaders => s.setAdditionalHeaders additionalHeaders

def after (s : ClientHeaders) (setters : List HeaderSetter) : ClientHeaders := setters.foldl call s

def list (s : ClientHeaders) : HeaderList → List Text
  | .json => s.httpheadersjson
  | .stl => s.httpheadersstl
  | .multipartFormData => s.httpheadersmultipartformdata

end ClientHeaders

structure HeaderSettings where
  charset : Text
  language : Text
  additionalHeaders : List Text

namespace HeaderSettings

def initial : HeaderSettings := ⟨lit "utf-8", lit "en-us", []⟩

def call (settings : HeaderSettings) : HeaderSetter → HeaderSettings
  | .setCharacterEncoding charset => { settings with charset }
  | .setLanguage [] => settings
  | .setLanguage language => { settings with language }
  | .setAdditionalHeaders additionalHeaders => { settings with additionalHeaders }

def after (settings : HeaderSettings) (setters : List HeaderSetter) : HeaderSettings := setters.foldl call settings

/-- The headers of a list that do not come from the caller. -/
def base (settings : HeaderSettings) : HeaderList → List Text
  | .json => [
      cString (lit "Content-Type: application/json; charset=" ++ settings.charset),
      cString (lit "Accept-Language: " ++ settings.language ++ lit ",en-us"),
      cString (lit "Accept-Charset: " ++ settings.charset),
      cString (lit "X-CSRFToken: " ++ lit "csrftoken"),
      cString (lit "Connection: Keep-Alive"), cString (lit "Keep-Alive: 20")]
  | .stl => [cString (lit "Content-Type: application/sla"), cString (lit "X-CSRFToken: " ++ lit "csrftoken"),
      cString (lit "Connection: Keep-Alive"), cString (lit "Keep-Alive: 20")]
  | .multipartFormData =>
    [cString (lit "Content-Type: multipart/form-data"), cString (lit "X-CSRFToken: " ++ lit "csrftoken"),
      cString (lit "Connection: Keep-Alive"), cString (lit "Keep-Alive: 20")]

end HeaderSettings

namespace ClientHeaders

/-- Every list has the additional headers after its own, and they are reported as well. -/
structure Includes (s : ClientHeaders) (settings : HeaderSettings) : Prop where
  lists : ∀ l, s.list l = settings.base l ++ settings.additionalHeaders
  info : s.infoAdditionalHeaders = settings.additionalHeaders

/-- What the setters keep: the additional headers are missing from the list for JSON, and end at a
zero byte in the others. -/
structure Follows (s : ClientHeaders) (settings : HeaderSettings) : Prop where
  charset : s.charset = settings.charset
  language : s.language = settings.language
  csrfmiddlewaretoken : s.csrfmiddlewaretoken = lit "csrftoken"
  additional : s.additionalHeaders = settings.additionalHeaders
  info : s.infoAdditionalHeaders = settings.additionalHeaders
  json : s.httpheadersjson = settings.base .json
  stl : s.httpheadersstl = settings.base .stl ++ settings.additionalHeaders.map cString
  multipartFormData : s.httpheadersmultipartformdata =
    settings.base .multipartFormData ++ settings.additionalHeaders.map cString

theorem foldl_slistAppend (list headers : List Text) :
    headers.foldl slistAppend list = list ++ headers.map cString := by
  induction headers generalizing list with
  | nil => simp
  | cons header rest ih =>
    rw [List.foldl_cons, ih, slistAppend, List.map_cons, List.append_assoc, List.singleton_append]

section

variable {s : ClientHeaders} {settings : HeaderSettings}

/-- The list for JSON, from the settings that are stored. -/
theorem httpheadersjson_setup (charset : s.charset = settings.charset) (language : s.language = settings.language)
    (token : s.csrfmiddlewaretoken = lit "csrftoken") :
    s.setupHTTPHeadersJSON.httpheadersjson = settings.base .json := by
  simp only [setupHTTPHeadersJSON, slistAppend, charset, language, token, HeaderSettings.base,
    List.nil_append, List.cons_append]

theorem setupHTTPHeaders_eq (contentType : Text) (token : s.csrfmiddlewaretoken = lit "csrftoken") :
    s.setupHTTPHeaders contentType = [cString contentType, cString (lit "X-CSRFToken: " ++ lit "csrftoken"),
      cString (lit "Connection: Keep-Alive"), cString (lit "Keep-Alive: 20")] ++
        s.additionalHeaders.map cString := by
  simp only [setupHTTPHeaders, foldl_slistAppend, slistAppend, token, List.nil_append, List.cons_append]

theorem Follows.setCharacterEncoding (follows : s.Follows settings) (newencoding : Text) :
    (s.setCharacterEncoding newencoding).Follows { settings with charset := newencoding } :=
  { follows with
    charset := rfl
    json := httpheadersjson_setup rfl follows.language follows.csrfmiddlewaretoken }

theorem Follows.setLanguage (follows : s.Follows settings) (language : Text) :
    (s.setLanguage language).Follows (settings.call (.setLanguage language)) := by
  cases language with
  | nil =>
    exact { follows with
      json := httpheadersjson_setup follows.charset follows.language follows.csrfmiddlewaretoken }
  | cons first rest =>
    exact { follows with
      language := rfl
      json := httpheadersjson_setup follows.charset rfl follows.csrfmiddlewaretoken }

theorem Follows.setAdditionalHeaders (follows : s.Follows settings) (additionalHeaders : List Text) :
    (s.setAdditionalHeaders additionalHeaders).Follows { settings with additionalHeaders } :=
  { follows with
    additional := rfl
    info := rfl
    json := httpheadersjson_setup follows.charset follows.language follows.csrfmiddlewaretoken
    stl := setupHTTPHeaders_eq _ follows.csrfmiddlewaretoken
    multipartFormData := setupHTTPHeaders_eq _ follows.csrfmiddlewaretoken }

theorem Follows.call (follows : s.Follows settings) (setter : HeaderSetter) :
    (s.call setter).Follows (settings.call setter) := by
  cases setter with
  | setCharacterEncoding newencoding => exact follows.setCharacterEncoding newencoding
  | setLanguage language => exact follows.setLanguage language
  | setAdditionalHeaders additionalHeaders => exact follows.setAdditionalHeaders additionalHeaders

theorem Follows.after (follows : s.Follows settings) (setters : List HeaderSetter) :
    (s.after setters).Follows (settings.after setters) := by
  induction setters generalizing s settings with
  | nil => exact follows
  | cons setter rest ih => exact ih (follows.call setter)

end

theorem constructed_follows : constructed.Follows .initial where
  charset := rfl
  language := rfl
  csrfmiddlewaretoken := rfl
  additional := rfl
  info := rfl
  json := httpheadersjson_setup rfl rfl rfl
  stl := setupHTTPHeaders_eq _ rfl
  multipartFormData := setupHTTPHeaders_eq _ rfl

/-- The lists have the additional headers exactly while there are none: the list for JSON
never does. -/
theorem includes_iff (setters : List HeaderSetter) :
    (constructed.after setters).Includes (HeaderSettings.initial.after setters) ↔
    (HeaderSettings.initial.after setters).additionalHeaders = [] := by
  have follows := constructed_follows.after setters
  constructor
  · intro included
    have json := follows.json.symm.trans (included.lists .json)
    exact List.self_eq_append_right.mp json
  · intro none
    refine ⟨fun l => ?_, follows.info⟩
    cases l with
    | json => simpa [list, none] using follows.json
    | stl => simpa [list, none] using follows.stl
    | multipartFormData => simpa [list, none] using follows.multipartFormData

/-- A header that is missing from the requests for JSON. -/
theorem setAdditionalHeaders_misses_json :
    ¬∀ setters, (constructed.after setters).Includes (HeaderSettings.initial.after setters) := by
  intro included
  have json :=
    (constructed_follows.after [.setAdditionalHeaders [lit "X-Api-Key: 1"]]).json.symm.trans
      ((included _).lists .json)
  nomatch List.self_eq_append_right.mp json

end ClientHeaders
end MujinClient
