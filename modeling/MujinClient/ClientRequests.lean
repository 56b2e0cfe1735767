import MujinClient.Program
import MujinClient.HttpReply
import MujinClient.CurlHandle
import MujinClient.JsonWriter

/-! The requests of the client as programs over its lock, its curl handle and its scratch
state. The functions that expect the mutex to be locked come first. -/
namespace MujinClient

abbrev Wide := List Nat

/-- The request state that all operations of a client share. -/
inductive Scratch where
  | uri | buffer | requestStringBufferCache
  deriving DecidableEq

inductive CurlInfo where
  | responseCode | fileTime
  deriving DecidableEq

def CurlInfo.name : CurlInfo → String
  | responseCode => "CURLINFO_RESPONSE_CODE"
  | fileTime => "CURLINFO_FILETIME"

inductive ClientAction where
  | lock | unlock
  | setopt (o : CurlOption) (v : OptionValue)
  /-- The deleter of a `CURL_OPTION_SAVER`; nothing looks at its result. -/
  | restore (o : CurlOption) (v : OptionValue)
  | perform
  | getinfo (info : CurlInfo)
  | access (s : Scratch)
  | clearBuffer
  | readBuffer
  /-- What a transfer has written to the stream or vector of the caller. -/
  | readOutput
  /-- Reading or writing a local file or a stream of the caller. -/
  | seek | tell
  | openFile (filename : Text)
  /-- The cached profile. -/
  | profile
  /-- Code that touches neither the handle nor the scratch state. It may throw. -/
  | calls
  deriving DecidableEq

namespace ClientAction

/-- `false` where a call fails. -/
abbrev Answer : ClientAction → Type
  | setopt _ _ | restore _ _ | perform | seek | openFile _ | calls => Bool
  | getinfo _ | tell => Option Int
  | readBuffer | readOutput => Text
  | profile => Json
  | _ => Unit

end ClientAction

abbrev Request := Program ClientAction ClientAction.Answer Thrown

namespace Request

def act (a : ClientAction) : Request a.Answer := .acts a .returns

def demand (ok : Bool) (e : Thrown) : Request Unit := if ok then .returns () else .throws e

/-- `CHECKCURLCODE`. The texts of libcurl are left out. -/
def curlError (function : String) : Thrown := .mujin ⟨lit "curl function " ++ lit function, .httpClient⟩

def setter (o : CurlOption) (newvalue : OptionValue) : Request Unit := do
  demand (← act (.setopt o newvalue)) (curlError s!"curl_easy_setopt {o.name}")

/-- `CURL_OPTION_SAVE_SETTER`, with the rest of its scope. -/
def saveSetter (o : CurlOption) (curvalue newvalue : OptionValue) (scope : Request α) : Request α :=
  Program.guarded (.restore o curvalue) (setter o newvalue >>= fun _ => scope)

def perform : Request Unit := do
  demand (← act .perform) (curlError "curl_easy_perform")

def infoGetter (info : CurlInfo) : Request Int := do
  let value ← act (.getinfo info)
  demand value.isSome (curlError s!"curl_easy_getinfo {info.name}")
  return value.getD 0

/-- `boost::mutex::scoped_lock`, with the rest of its scope. -/
def locked (scope : Request α) : Request α := do
  act .lock
  Program.guarded .unlock scope

def calls : Request Unit := do
  demand (← act .calls) .standard

end Request

/-- `utf8::utf16to8`, of a range of characters that are cut to 16 bits. -/
def utf16to8 : Wide → Except Thrown Text
  | [] => .ok []
  | lead :: rest =>
    let cp := lead % 0x10000
    if 0xD800 ≤ cp ∧ cp ≤ 0xDBFF then
      match rest with
      | [] => .error .standard
      | trail :: rest =>
        let low := trail % 0x10000
        if 0xDC00 ≤ low ∧ low ≤ 0xDFFF then
          (utf16to8 rest).map (utf8 (0x10000 + (cp - 0xD800) * 0x400 + (low - 0xDC00)) ++ ·)
        else .error .standard
    else if 0xDC00 ≤ cp ∧ cp ≤ 0xDFFF then .error .standard
    else (utf16to8 rest).map (utf8 cp ++ ·)

mutual
/-- `rapidjson::Writer` with its default flags: the text so far, and whether it was finished. It
stops at a number that is not finite. -/
def writeJson (platform : Platform) : Json → Text × Bool
  | .array xs =>
    let written := writeElements platform true xs
    (byte '[' :: written.1 ++ (if written.2 then [byte ']'] else []), written.2)
  | .object xs =>
    let written := writeMembers platform true xs
    (byte '\x7b' :: written.1 ++ (if written.2 then [byte '\x7d'] else []), written.2)
  | .double d => if Json.isFinite (.double d) then (platform.dtoa d, true) else ([], false)
  | v => (dumpJson platform v, true)

def writeElements (platform : Platform) (first : Bool) : List Json → Text × Bool
  | [] => ([], true)
  | x :: xs =>
    let written := writeJson platform x
    let start := (if first then [] else [byte ',']) ++ written.1
    if written.2 then
      let rest := writeElements platform false xs
      (start ++ rest.1, rest.2)
    else (start, false)

def writeMembers (platform : Platform) (first : Bool) : Json.Members → Text × Bool
  | [] => ([], true)
  | (name, value) :: xs =>
    let written := writeJson platform value
    let start := (if first then [] else [byte ',']) ++ dumpString name ++ [byte ':'] ++ written.1
    if written.2 then
      let rest := writeMembers platform false xs
      (start ++ rest.1, rest.2)
    else (start, false)
end

/-- What a client keeps from its construction, and what it takes from libcurl and the
platform. -/
structure ControllerClient where
  platform : Platform
  baseuri : Text
  baseapiuri : Text
  basewebdavuri : Text
  /-- `curl_easy_escape`. -/
  escapeString : Text → Text
  /-- `(long)(timeout * 1000L)`. -/
  milliseconds : Double → Int
  /-- `boost::format` with `%.15f`. -/
  formatReal : Double → Text

instance : Inhabited ControllerClient := ⟨⟨default, [], [], [], id, fun _ => 0, fun _ => []⟩⟩

namespace ControllerClient

open Request

variable (client : ControllerClient)

def timeoutValue (timeout : Double) : OptionValue := .long (client.milliseconds timeout)

def callGetValue (desturi : Text) (rResponse : Json) (expectedhttpcode : Int) (timeout : Double) :
    Request (Int × Json) :=
  saveSetter .timeoutMs (.long 0) (client.timeoutValue timeout) do
  saveSetter .httpHeader .null (.headers .json) do
  saveSetter .url .null (.text (cString desturi)) do
  act .clearBuffer
  saveSetter .writeFunction .null (.function .writeStringStream) do
  saveSetter .writeData .null (.sink .buffer) do
  saveSetter .httpGet (.long 0) (.long 1) do
  perform
  let http_code ← infoGetter .responseCode
  let body ← act .readBuffer
  Program.lift (replyToGetValue client.platform desturi rResponse expectedhttpcode http_code body)

def callGetString (desturi : Text) (expectedhttpcode : Int) (timeout : Double) : Request (Int × Text) :=
  saveSetter .timeoutMs (.long 0) (client.timeoutValue timeout) do
  saveSetter .httpHeader .null (.headers .json) do
  saveSetter .url .null (.text (cString desturi)) do
  act .clearBuffer
  saveSetter .writeFunction .null (.function .writeStringStream) do
  saveSetter .writeData .null (.sink .buffer) do
  saveSetter .httpGet (.long 0) (.long 1) do
  perform
  let http_code ← infoGetter .responseCode
  let outputdata ← act .readBuffer
  let http_code ← Program.lift (replyToGetText client.platform desturi expectedhttpcode http_code outputdata)
  return (http_code, outputdata)

def callGetStream (desturi : Text) (expectedhttpcode : Int) (timeout : Double) : Request Int :=
  saveSetter .timeoutMs (.long 0) (client.timeoutValue timeout) do
  saveSetter .httpHeader .null (.headers .json) do
  saveSetter .url .null (.text (cString desturi)) do
  saveSetter .writeFunction .null (.function .writeOStream) do
  saveSetter .writeData .null (.sink .outputStream) do
  saveSetter .httpGet (.long 0) (.long 1) do
  perform
  let http_code ← infoGetter .responseCode
  Program.lift (replyToGetStream desturi expectedhttpcode http_code)

def callGetVector (desturi : Text) (expectedhttpcode : Int) (timeout : Double) : Request (Int × Text) :=
  saveSetter .timeoutMs (.long 0) (client.timeoutValue timeout) do
  saveSetter .httpHeader .null (.headers .json) do
  saveSetter .url .null (.text (cString desturi)) do
  saveSetter .writeFunction .null (.function .writeVector) do
  saveSetter .writeData .null (.sink .outputdata) do
  saveSetter .httpGet (.long 0) (.long 1) do
  perform
  let http_code ← infoGetter .responseCode
  let outputdata ← act .readOutput
  let http_code ← Program.lift (replyToGetText client.platform desturi expectedhttpcode http_code outputdata)
  return (http_code, outputdata)

def callPostData (desturi data : Text) (expectedhttpcode : Int) (timeout : Double) : Request (Int × Json) :=
  saveSetter .timeoutMs (.long 0) (client.timeoutValue timeout) do
  saveSetter .httpHeader .null (.headers .json) do
  saveSetter .url .null (.text (cString desturi)) do
  act .clearBuffer
  saveSetter .writeFunction .null (.function .writeStringStream) do
  saveSetter .writeData .null (.sink .buffer) do
  saveSetter .post (.long 0) (.long 1) do
  saveSetter .postFieldSize (.long 0) (.long data.length) do
  saveSetter .postFields .null (if data ≠ [] then .data data else .null) do
  perform
  let http_code ← infoGetter .responseCode
  let body ← act .readBuffer
  Program.lift (replyToPost client.platform desturi expectedhttpcode http_code body)

def callPostForm (desturi : Text) (data : List FormPart) (expectedhttpcode : Int) (timeout : Double) :
    Request (Int × Json) :=
  saveSetter .timeoutMs (.long 0) (client.timeoutValue timeout) do
  saveSetter .url .null (.text (cString desturi)) do
  act .clearBuffer
  saveSetter .writeFunction .null (.function .writeStringStream) do
  saveSetter .writeData .null (.sink .buffer) do
  saveSetter .httpPost .null (.form data) do
  saveSetter .httpHeader .null (.headers .multipartFormData) do
  perform
  let http_code ← infoGetter .responseCode
  let body ← act .readBuffer
  Program.lift (replyToPost client.platform desturi expectedhttpcode http_code body)

/-- `_CallPut`, which locks. -/
def callPut (relativeuri pdata : Text) (headers : HeaderList) (expectedhttpcode : Int) (timeout : Double) :
    Request (Int × Json) :=
  locked do
  saveSetter .httpHeader .null (.headers headers) do
  saveSetter .timeoutMs (.long 0) (client.timeoutValue timeout) do
  act (.access .uri)
  saveSetter .url .null (.text (cString (client.baseapiuri ++ relativeuri))) do
  act .clearBuffer
  saveSetter .writeFunction .null (.function .writeStringStream) do
  saveSetter .writeData .null (.sink .buffer) do
  saveSetter .customRequest .null (.text (lit "PUT")) do
  saveSetter .postFieldSize (.long 0) (.long pdata.length) do
  saveSetter .postFields .null (.data pdata) do
  perform
  let http_code ← infoGetter .responseCode
  let body ← act .readBuffer
  Program.lift (replyToPut client.platform relativeuri expectedhttpcode http_code body)

/-- `CallDelete`, which locks. -/
def callDelete (relativeuri : Text) (expectedhttpcode : Int) (timeout : Double) : Request Unit :=
  locked do
  saveSetter .timeoutMs (.long 0) (client.timeoutValue timeout) do
  act (.access .uri)
  saveSetter .httpHeader .null (.headers .json) do
  saveSetter .url .null (.text (cString (client.baseapiuri ++ relativeuri))) do
  saveSetter .customRequest .null (.text (lit "DELETE")) do
  act .clearBuffer
  saveSetter .writeFunction .null (.function .writeStringStream) do
  saveSetter .writeData .null (.sink .buffer) do
  perform
  let http_code ← infoGetter .responseCode
  let body ← act .readBuffer
  Program.lift (replyToDelete client.platform relativeuri expectedhttpcode http_code body)

/-- The pieces of a path that `_EncodeWithoutSeparator` escapes, with the separators of Linux. `current`
is what was read since `startindex`, which stays where it is at a separator that stands there. -/
def encodeFrom (current : Text) : Text → Text
  | [] => if current ≠ [] then client.escapeString current else []
  | c :: raw =>
    if c = byte '/' then
      if current ≠ [] then client.escapeString current ++ byte '/' :: encodeFrom [] raw
      else byte '/' :: encodeFrom [c] raw
    else encodeFrom (current ++ [c]) raw

def encodeWithoutSeparator (raw : Text) : Text := client.encodeFrom [] raw

/-- The directories `_EnsureWebDAVDirectories` finds in a path. -/
def createDirsFrom (current : Text) : Text → List Text
  | [] => if current ≠ [] then [client.escapeString current] else []
  | c :: relativeuri =>
    if c = byte '/' then
      if current ≠ [] then client.escapeString current :: createDirsFrom [] relativeuri
      else createDirsFrom [c] relativeuri
    else createDirsFrom (current ++ [c]) relativeuri

def listCreateDirs (relativeuri : Text) : List Text := client.createDirsFrom [] relativeuri

def mkcolError (http_code : Int) (place : Text) : Thrown :=
  .mujin ⟨lit "HTTP MKCOL failed" ++ place ++ lit " with HTTP status " ++ intText http_code, .httpServer⟩

/-- The loop of `_EnsureWebDAVDirectories`. -/
def makeDirectories (totaluri : Text) : List Text → Request Unit
  | [] => return
  | dir :: rest => do
    let totaluri := (if totaluri ≠ [] then totaluri ++ [byte '/'] else totaluri) ++ dir
    act (.access .uri)
    saveSetter .httpHeader .null (.headers .json) <|
      saveSetter .url .null (.text (cString (client.basewebdavuri ++ totaluri))) do
        act .clearBuffer
        perform
        let http_code ← infoGetter .responseCode
        demand (http_code = 201 || http_code = 301) (mkcolError http_code [])
    makeDirectories totaluri rest

def ensureWebDAVDirectories (relativeuri : Text) (timeout : Double) : Request Unit :=
  if relativeuri = [] then
    return
  else
    saveSetter .timeoutMs (.long 0) (client.timeoutValue timeout) do
    saveSetter .writeFunction .null (.function .writeStringStream) do
    saveSetter .writeData .null (.sink .buffer) do
    saveSetter .customRequest .null (.text (lit "MKCOL")) do
    client.makeDirectories [] (client.listCreateDirs relativeuri)

def baseFilename [DecidableEq β] (filesep : β) (path : List β) : List β :=
  (path.reverse.takeWhile (· ≠ filesep)).reverse

/-- The text before the last separator, nothing if there is none. -/
def directoryName (path : Text) : Text := (path.reverse.dropWhile (· ≠ byte '/')).tail.reverse

def ensureSlash (baseuploaduri : Text) : Text :=
  if baseuploaduri.getLast? ≠ some (byte '/') then baseuploaduri ++ [byte '/'] else baseuploaduri

def prepareDestinationURI (rawuri : Text) (bEnsurePath bEnsureSlash bIsDirectory : Bool) : Request Text := do
  if (lit "mujin:/").isPrefixOf rawuri then
    let s := rawuri.drop 7
    if bEnsurePath then
      client.ensureWebDAVDirectories (if bIsDirectory then s else directoryName s) (Double.ofInt 3)
    let baseuploaduri := client.basewebdavuri ++ client.encodeWithoutSeparator s
    return if bEnsureSlash then ensureSlash baseuploaduri else baseuploaduri
  else
    return if bEnsureSlash then ensureSlash rawuri else rawuri

def prepareDestinationURI_UTF16 (rawuri_utf16 : Wide) (bEnsurePath bEnsureSlash bIsDirectory : Bool) :
    Request Text := do
  let desturi_utf8 ← Program.lift (utf16to8 rawuri_utf16)
  client.prepareDestinationURI desturi_utf8 bEnsurePath bEnsureSlash bIsDirectory

def seekError (what : String) : Thrown := .mujin ⟨lit "failed to " ++ lit what, .invalidArguments⟩

def contentLength : Request Int := do
  demand (← act .seek) (seekError "seek inputStream to get the length")
  let length ← act .tell
  demand length.isSome (seekError "tell the length of inputStream")
  demand (← act .seek) (seekError "rewind inputStream")
  return length.getD 0

def fileParts (filename : Text) (contents : FormContents) : List FormPart :=
  ⟨lit "files[]", some (if filename = [] then lit "unused" else cString filename), none, contents⟩ ::
    if filename ≠ [] then [⟨lit "filename", none, none, .bytes (cString filename)⟩] else []

def uploadFileViaForm (filename endpoint : Text) (timeout : Double) : Request Unit := do
  let length ← contentLength
  saveSetter .readFunction .null (.function .readIStream) do
  let _ ← client.callPostForm endpoint (fileParts filename (.stream length)) 200 timeout

def uploadDataViaForm (data filename endpoint : Text) (timeout : Double) : Request Unit := do
  let _ ← client.callPostForm endpoint (fileParts filename (.bufferPtr data)) 200 timeout

def outsideError (uri : Text) : Thrown :=
  .mujin ⟨lit "trying to upload a file outside of the webdav endpoint is not allowed: " ++ uri, .httpServer⟩

/-- The paths of one character type, and how they are converted. -/
structure PathEncoding (β : Type) where
  filesep : β
  backslash : β
  toUtf8 : List β → Except Thrown Text
  ofUtf16 : Wide → Except Thrown (List β)

def utf8Paths : PathEncoding Byte := ⟨byte '/', byte '\\', .ok, utf16to8⟩

def utf16Paths : PathEncoding Nat := ⟨'/'.toNat, '\\'.toNat, utf16to8, .ok⟩

/-- What iterating over a directory on disk finds, until it ends or throws. -/
inductive Listing (β : Type) where
  | ended
  | failed
  | directory (path filename : List β) (inside rest : Listing β)
  | file (path filename : List β) (rest : Listing β)
  /-- Neither a directory nor a regular file. -/
  | other (filename : List β) (rest : Listing β)

section

variable {β : Type} [DecidableEq β] (encoding : PathEncoding β)

/-- `_UploadFileToController_UTF8` and `_UploadFileToController_UTF16`. -/
def uploadFile (filename : List β) (uri : Text) : Request Unit := do
  demand (client.basewebdavuri.isPrefixOf uri) (outsideError uri)
  let sFilename_FS ← Program.lift (encoding.toUtf8 filename)
  demand (← act (.openFile (cString sFilename_FS)))
    (.mujin ⟨lit "failed to open filename " ++ sFilename_FS ++ lit " for uploading", .invalidArguments⟩)
  client.uploadFileViaForm (uri.drop client.basewebdavuri.length) (client.baseuri ++ lit "fileupload")
    (Double.ofInt 0)

def uploadedDirectory (copydir : List β) (rawuri : Text) : Except Thrown Text :=
  if rawuri = [] ∨ copydir = [] then .error (.load .assertion)
  else if rawuri.getLast? = some (byte '/') then
    if copydir.getLast? ≠ some encoding.filesep then do
      let name ← encoding.toUtf8 (baseFilename encoding.filesep copydir)
      return rawuri ++ client.escapeString name
    else .ok rawuri.dropLast
  else if copydir.getLast? = some encoding.filesep then do
    let shown ← encoding.toUtf8 copydir
    throw (.mujin ⟨lit "copydir '" ++ shown ++ lit "' cannot end in slash '/'", .invalidArguments⟩)
  else .ok rawuri

/-- `_UploadDirectoryToController_UTF8` and `_UploadDirectoryToController_UTF16`, with the loop over the
directory on disk as a parameter. -/
def createAndFill (copydir : List β) (rawuri : Text) (fill : Text → Request Unit) : Request Unit := do
  let uri ← Program.lift (client.uploadedDirectory encoding copydir rawuri)
  saveSetter .writeFunction .null (.function .writeStringStream) do
  saveSetter .writeData .null (.sink .buffer) do
  saveSetter .customRequest .null (.text (lit "MKCOL")) <|
    saveSetter .httpHeader .null (.headers .json) <|
      saveSetter .url .null (.text (cString uri)) do
        perform
        let http_code ← infoGetter .responseCode
        demand (http_code = 201 || http_code = 301) (mkcolError http_code (lit " for " ++ uri))
  let _ ← Program.lift (encoding.toUtf8 copydir)
  fill uri

def uploadEntries (uri : Text) : Listing β → Request Unit
  | .ended => return
  | .failed => Program.throws .standard
  | .directory path filename inside rest => do
    let dirfilename ← Program.lift (encoding.toUtf8 filename)
    let newuri := uri ++ byte '/' :: client.escapeString dirfilename
    client.createAndFill encoding path newuri fun newuri => uploadEntries newuri inside
    uploadEntries uri rest
  | .file path filename rest => do
    let dirfilename ← Program.lift (encoding.toUtf8 filename)
    let newuri := uri ++ byte '/' :: client.escapeString dirfilename
    client.uploadFile encoding path newuri
    uploadEntries uri rest
  | .other filename rest => do
    let _ ← Program.lift (encoding.toUtf8 filename)
    uploadEntries uri rest

def uploadDirectory (copydir : List β) (rawuri : Text) (listing : Listing β) : Request Unit :=
  client.createAndFill encoding copydir rawuri fun uri => client.uploadEntries encoding uri listing

end

def deleteFile (desturi : Text) : Request Unit := do
  demand (client.basewebdavuri.isPrefixOf desturi) (outsideError desturi)
  let filename := desturi.drop client.basewebdavuri.length
  let _ ← client.callPostData (client.baseuri ++ lit "file/delete/?filename=" ++ filename) [] 200 (Double.ofInt 5)

def deleteDirectory (desturi : Text) : Request Unit :=
  saveSetter .customRequest .null (.text (lit "DELETE")) do
  saveSetter .httpHeader .null (.headers .json) do
  saveSetter .url .null (.text (cString desturi)) do
  perform
  let _ ← infoGetter .responseCode

def downloadError (desturi : Text) (http_code : Int) (outputdata : Text) : Thrown :=
  httpError "GET" desturi http_code (if outputdata ≠ [] then lit ": " ++ outputdata else [])

def downloadFile (desturi : Text) (localtimeval : Int) (timeout : Double) : Request Int :=
  saveSetter .fileTime (.long 0) (.long 1) do
  saveSetter .timeCondition (.long 0) (.long (if localtimeval > 0 then 1 else 0)) do
  saveSetter .timeValue (.long 0) (.long (if localtimeval > 0 then localtimeval else 0)) do
  let (http_code, outputdata) ← client.callGetVector desturi 0 timeout
  demand (http_code = 200 || http_code = 304) (downloadError desturi http_code outputdata)
  if http_code ≠ 304 then infoGetter .fileTime else return 0

end ControllerClient
end MujinClient
