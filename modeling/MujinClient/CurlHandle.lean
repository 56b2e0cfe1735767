import MujinClient.Text
import Mathlib.Logic.Function.Basic

/-! The curl handle of the client: a value for every option, and the kind of request that
setting an option may select. -/
namespace MujinClient

inductive CurlOption where
  | timeoutMs | httpHeader | url | writeFunction | writeData | readFunction | httpGet | post | postFieldSize
  | postFields
  | httpPost | customRequest | fileTime | noBody | timeCondition | timeValue
  /-- Options of the client, not of a request. -/
  | proxy | proxyUserPwd | unixSocketPath | userAgent
  deriving DecidableEq

inductive Callback where
  | writeStringStream | writeOStream | writeVector | readIStream
  deriving DecidableEq

inductive HeaderList where
  | json | stl | multipartFormData
  deriving DecidableEq

/-- Where a response goes: the buffer of the client, or what the caller passed. -/
inductive Sink where
  | buffer | outputStream | outputdata
  deriving DecidableEq

inductive FormContents where
  /-- `CURLFORM_STREAM`, with its length. -/
  | stream (contentLength : Int)
  | bytes (t : Text)
  /-- `CURLFORM_BUFFERPTR` without `CURLFORM_BUFFERLENGTH`, of a buffer with this data. -/
  | bufferPtr (data : Text)
  deriving DecidableEq

structure FormPart where
  name : Text
  filename : Option Text
  contentType : Option Text
  contents : FormContents
  deriving DecidableEq

inductive OptionValue where
  | null
  | long (n : Int)
  | text (t : Text)
  | data (t : Text)
  | headers (list : HeaderList)
  | function (callback : Callback)
  | sink (s : Sink)
  | form (parts : List FormPart)
  deriving DecidableEq

namespace CurlOption

def name : CurlOption → String
  | timeoutMs => "CURLOPT_TIMEOUT_MS"
  | httpHeader => "CURLOPT_HTTPHEADER"
  | url => "CURLOPT_URL"
  | writeFunction => "CURLOPT_WRITEFUNCTION"
  | writeData => "CURLOPT_WRITEDATA"
  | readFunction => "CURLOPT_READFUNCTION"
  | httpGet => "CURLOPT_HTTPGET"
  | post => "CURLOPT_POST"
  | postFieldSize => "CURLOPT_POSTFIELDSIZE"
  | postFields => "CURLOPT_POSTFIELDS"
  | httpPost => "CURLOPT_HTTPPOST"
  | customRequest => "CURLOPT_CUSTOMREQUEST"
  | fileTime => "CURLOPT_FILETIME"
  | noBody => "CURLOPT_NOBODY"
  | timeCondition => "CURLOPT_TIMECONDITION"
  | timeValue => "CURLOPT_TIMEVALUE"
  | proxy => "CURLOPT_PROXY"
  | proxyUserPwd => "CURLOPT_PROXYUSERPWD"
  | unixSocketPath => "CURLOPT_UNIX_SOCKET_PATH"
  | userAgent => "CURLOPT_USERAGENT"

/-- The options that describe the client rather than one request. -/
def ofClient : CurlOption → Bool
  | proxy | proxyUserPwd | unixSocketPath | userAgent => true
  | _ => false

/-- The value of an option that was never set: 0 or null. -/
def unset : CurlOption → OptionValue
  | timeoutMs | httpGet | post | postFieldSize | fileTime | noBody | timeCondition | timeValue => .long 0
  | _ => .null

end CurlOption

inductive RequestKind where
  | get | post | multipart | head
  deriving DecidableEq

namespace RequestKind

/-- The kind after an option was set, as libcurl switches it. -/
def after (k : RequestKind) : CurlOption → OptionValue → RequestKind
  | .postFields, _ => .post
  | .post, v => if v = .long 0 then .get else .post
  | .httpGet, v => if v = .long 0 then k else .get
  | .httpPost, _ => .multipart
  | .noBody, v => if v = .long 0 then (if k = .head then .get else k) else .head
  | _, _ => k

/-- Setting the option to the value selects a kind, whatever it was. -/
def selects : CurlOption → OptionValue → Bool
  | .postFields, _ | .post, _ | .httpPost, _ => true
  | .httpGet, v | .noBody, v => v ≠ .long 0
  | _, _ => false

theorem after_selects {o : CurlOption} {v : OptionValue} (known : selects o v = true) (k l : RequestKind) :
    k.after o v = l.after o v := by
  cases o <;> simp_all [after, selects]

end RequestKind

structure CurlHandle where
  options : CurlOption → OptionValue
  kind : RequestKind

/-- What a transfer sends, as far as the handle decides it. -/
structure SentRequest where
  kind : RequestKind
  verb : OptionValue
  url : OptionValue
  body : List OptionValue
  deriving DecidableEq

namespace CurlHandle

def setopt (h : CurlHandle) (o : CurlOption) (v : OptionValue) : CurlHandle :=
  ⟨Function.update h.options o v, h.kind.after o v⟩

/-- The handle the constructor leaves. `configured` are the options of the client. -/
def constructed (configured : CurlOption → OptionValue) : CurlHandle :=
  let fresh : CurlHandle := ⟨fun o => if o.ofClient then configured o else o.unset, .get⟩
  (fresh.setopt .postFieldSize (.long 0)).setopt .postFields .null

def sends (h : CurlHandle) : SentRequest where
  kind := h.kind
  verb := h.options .customRequest
  url := h.options .url
  body :=
    match h.kind with
    | .get | .head => []
    | .post => [h.options .postFieldSize, h.options .postFields]
    | .multipart => [h.options .httpPost]

/-- Every option of a request has the value the constructor leaves. -/
def Unset (h : CurlHandle) : Prop := ∀ o : CurlOption, o.ofClient = false → h.options o = o.unset

theorem constructed_unset (configured : CurlOption → OptionValue) : (constructed configured).Unset := by
  intro o ofRequest
  cases o <;> simp_all [constructed, setopt, CurlOption.ofClient, CurlOption.unset]

def SameOptions (g h : CurlHandle) : Prop := ∀ o : CurlOption, o.ofClient = false → g.options o = h.options o

theorem Unset.same {g h : CurlHandle} (left : g.Unset) (right : h.Unset) : g.SameOptions h :=
  fun o ofRequest => (left o ofRequest).trans (right o ofRequest).symm

theorem SameOptions.setopt {g h : CurlHandle} (same : g.SameOptions h) (o : CurlOption) (v : OptionValue) :
    (g.setopt o v).SameOptions (h.setopt o v) := by
  intro p ofRequest
  by_cases this : p = o
  · subst this
    simp [CurlHandle.setopt]
  · simpa [CurlHandle.setopt, this] using same p ofRequest

theorem SameOptions.sends {g h : CurlHandle} (same : g.SameOptions h) (kind : g.kind = h.kind) :
    g.sends = h.sends := by
  simp [CurlHandle.sends, kind, same .customRequest rfl, same .url rfl, same .postFieldSize rfl,
    same .postFields rfl,
    same .httpPost rfl]

end CurlHandle
end MujinClient
