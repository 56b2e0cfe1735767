import MujinClient.ClientRequests

/-! The public operations of the client. -/
namespace MujinClient

structure LogEntryAttachment where
  filename : Text
  data : Text

structure LogEntry where
  rEntry : Json
  logType : Text
  attachments : List LogEntryAttachment

/-- The operations that neither lock nor touch the handle. -/
inductive Accessor where
  | getUserName | getBaseURI | getClientInfo | getURIWithUsernamePassword | getBaseUri
  | setDefaultSceneType | getDefaultSceneType | setDefaultTaskType | getDefaultTaskType
  | getScenePrimaryKeyFromURI_UTF8 | getScenePrimaryKeyFromURI_UTF16 | getPrimaryKeyFromName_UTF8
  | getPrimaryKeyFromName_UTF16
  | getNameFromPrimaryKey_UTF8 | getNameFromPrimaryKey_UTF16 | escapeString | unescapeString

/-- A call of a public operation. `listing` is what the directory to upload holds on disk, and
`wincapsPath` what `ParseWincapsWCNPath` reads from the file. -/
inductive Operation where
  | accessor (name : Accessor)
  | getBuffer
  | getVersion
  | setCharacterEncoding (newencoding : Text)
  | setProxy (serverport userpw : Text)
  | setUnixEndpoint (unixendpoint : Text)
  | setLanguage (language : Text)
  | setUserAgent (userAgent : Text)
  | setAdditionalHeaders (additionalHeaders : List Text)
  | restartServer (timeout : Double)
  | executeGraphQuery_ (operationName query : Text) (rVariables : Json) (timeout : Double)
      (checkForErrors returnRawResponse : Bool)
  | executeGraphQuery (operationName query : Text) (rVariables : Json) (timeout : Double)
  | executeGraphQueryRaw (operationName query : Text) (rVariables : Json) (timeout : Double)
  | executeGraphSubscription (operationName query : Text) (rVariables : Json)
  | cancelAllJobs
  | getRunTimeStatuses (options : Int)
  | getScenePrimaryKeys
  | registerScene_UTF8 (uri scenetype : Text)
  | registerScene_UTF16 (uri : Wide) (scenetype : Text)
  | importSceneToCOLLADA_UTF8 (importuri importformat newuri : Text) (overwrite : Bool)
  | importSceneToCOLLADA_UTF16 (importuri : Wide) (importformat : Text) (newuri : Wide) (overwrite : Bool)
  | syncUpload_UTF8 (sourcefilename destinationdir scenetype : Text) (wincapsPath : Except Thrown Wide)
      (listing : ControllerClient.Listing Byte)
  | syncUpload_UTF16 (sourcefilename destinationdir : Wide) (scenetype : Text) (wincapsPath : Except Thrown Wide)
      (listing : ControllerClient.Listing Nat)
  | uploadFileToController_UTF8 (filename desturi : Text)
  | uploadFileToController_UTF16 (filename desturi : Wide)
  | uploadDataToController_UTF8 (data desturi : Text)
  | uploadDataToController_UTF16 (data : Text) (desturi : Wide)
  | uploadDirectoryToController_UTF8 (copydir desturi : Text) (listing : ControllerClient.Listing Byte)
  | uploadDirectoryToController_UTF16 (copydir desturi : Wide) (listing : ControllerClient.Listing Nat)
  | downloadFileFromController_UTF8 (desturi : Text)
  | downloadFileFromController_UTF16 (desturi : Wide)
  | downloadFileFromControllerIfModifiedSince_UTF8 (desturi : Text) (localtimeval : Int) (timeout : Double)
  | downloadFileFromControllerIfModifiedSince_UTF16 (desturi : Wide) (localtimeval : Int) (timeout : Double)
  | getModifiedTime (uri : Text) (timeout : Double)
  | deleteFileOnController_UTF8 (desturi : Text)
  | deleteFileOnController_UTF16 (desturi : Wide)
  | deleteDirectoryOnController_UTF8 (desturi : Text)
  | deleteDirectoryOnController_UTF16 (desturi : Wide)
  | listFilesInController (dirname : Text) (timeout : Double)
  | saveBackup (config media : Bool) (backupscenepks : Text) (timeout : Double)
  | restoreBackup (config media : Bool) (timeout : Double)
  | upgrade (autorestart uploadonly : Bool) (timeout : Double)
  | getUpgradeStatus (timeout : Double)
  | cancelUpgrade (timeout : Double)
  | reboot (timeout : Double)
  | deleteAllScenes (timeout : Double)
  | deleteAllITLPrograms (timeout : Double)
  | modifySceneAddReferenceObjectPK (scenepk referenceobjectpk : Text) (timeout : Double)
  | modifySceneRemoveReferenceObjectPK (scenepk referenceobjectpk : Text) (timeout : Double)
  | callGetValue (relativeuri : Text) (pt : Json) (expectedhttpcode : Int) (timeout : Double)
  | callGetString (relativeuri : Text) (expectedhttpcode : Int) (timeout : Double)
  | callGetStream (relativeuri : Text) (expectedhttpcode : Int) (timeout : Double)
  | callGetVector (relativeuri : Text) (expectedhttpcode : Int) (timeout : Double)
  | callPost (relativeuri data : Text) (expectedhttpcode : Int) (timeout : Double)
  | callPost_UTF8 (relativeuri data : Text) (expectedhttpcode : Int) (timeout : Double)
  | callPost_UTF16 (relativeuri : Text) (data : Wide) (expectedhttpcode : Int) (timeout : Double)
  | callPutJSON (relativeuri data : Text) (expectedhttpcode : Int) (timeout : Double)
  | callPutSTL (relativeuri data : Text) (expectedhttpcode : Int) (timeout : Double)
  | callDelete (relativeuri : Text) (expectedhttpcode : Int) (timeout : Double)
  | createObjectGeometry (objectPk geometryName linkPk geomtype : Text) (timeout : Double)
  | createIkParam (objectPk name iktype : Text) (timeout : Double)
  | createLink (objectPk parentlinkPk name : Text) (quaternion translate : List Double) (timeout : Double)
  | setObjectGeometryMesh (objectPk geometryPk meshData unit : Text) (timeout : Double)
  | getDebugInfos (timeout : Double)
  | createLogEntries (logEntries : List LogEntry) (timeout : Double)

namespace ControllerClient

open Request

variable (client : ControllerClient)

def callGet (relativeuri : Text) (pt : Json) (expectedhttpcode : Int) (timeout : Double) : Request (Int × Json) :=
  locked do
  act (.access .uri)
  client.callGetValue (client.baseapiuri ++ relativeuri) pt expectedhttpcode timeout

def callPost (relativeuri data : Text) (expectedhttpcode : Int) (timeout : Double) : Request (Int × Json) :=
  locked do
  act (.access .uri)
  client.callPostData (client.baseapiuri ++ relativeuri) data expectedhttpcode timeout

/-- The conversion to the encoding of the file system keeps UTF-8. -/
def callPost_UTF8 (relativeuri data : Text) (expectedhttpcode : Int) (timeout : Double) : Request (Int × Json) :=
  client.callPost relativeuri data expectedhttpcode timeout

def callPost_UTF16 (relativeuri : Text) (data : Wide) (expectedhttpcode : Int) (timeout : Double) :
    Request (Int × Json) := do
  client.callPost relativeuri (← Program.lift (utf16to8 data)) expectedhttpcode timeout

/-- `GetJsonValueByKey<std::string>` of the response. -/
def stringOf (pt : Json) (key : String) : Request Text :=
  Program.lift ((getStringByKey client.platform pt key).mapError .load)

def defaultTimeout : Double := Double.ofInt 5

def getVersion : Request Text := do
  let profile ← act .profile
  if profile.isObject then
    client.stringOf profile "version"
  else
    let (_, profile) ← client.callGet (lit "profile/") (.object []) 200 defaultTimeout
    client.stringOf profile "version"

def restartServer (timeout : Double) : Request Unit :=
  locked do
  saveSetter .timeoutMs (.long 0) (client.timeoutValue timeout) do
  act (.access .uri)
  saveSetter .httpHeader .null (.headers .json) do
  saveSetter .url .null (.text (cString (client.baseuri ++ lit "restartserver/"))) do
  saveSetter .post (.long 0) (.long 1) do
  act .clearBuffer
  saveSetter .writeFunction .null (.function .writeStringStream) do
  saveSetter .writeData .null (.sink .buffer) do
  perform
  let http_code ← infoGetter .responseCode
  demand (http_code = 200)
    (.mujin ⟨lit "Failed to restart server, please try again or contact MUJIN support", .httpServer⟩)

/-- The request document. Its strings come from C strings. -/
def graphRequest (operationName query : Text) (rVariables : Json) : Json := .object
  [(lit "operationName", .string (cString operationName)), (lit "query", .string (cString query)),
    (lit "variables", rVariables)]

def graphError? (operationName : Text) : Json → Option Thrown
  | .object members =>
    match Json.findMember members (lit "message") with
    | some (.string message) =>
      let errorCode :=
        match Json.findMember members (lit "extensions") with
        | some (.object extensions) =>
          match Json.findMember extensions (lit "errorCode") with
          | some (.string code) => cString code
          | _ => lit "unknown"
        | _ => lit "unknown"
      some (.graphQuery (lit "graph query has errors \"" ++ cString operationName ++ lit "\": " ++
        cString message) errorCode)
    | _ => none
  | _ => none

/-- What `_ExecuteGraphQuery` makes of the response. -/
def graphResult (operationName : Text) (checkForErrors returnRawResponse : Bool) (rResultDoc : Json) :
    Except Thrown Json :=
  let shown := lit "\"" ++ cString operationName ++ lit "\""
  let document := dumpJson client.platform rResultDoc
  match rResultDoc with
  | .object members => do
    if checkForErrors then
      match Json.findMember members (lit "errors") with
      | some (.array (error :: errors)) =>
        throw (((error :: errors).findSome? (graphError? operationName)).getD
          (.mujin ⟨lit "graph query has undefined errors " ++ shown ++ lit ": " ++ document, .httpServer⟩))
      | _ => pure ()
    match Json.findMember members (lit "data") with
    | none =>
      throw (.mujin ⟨lit "Execute graph query does not have 'data' field in " ++ shown ++
        lit ", invalid response: " ++ document,
        .httpServer⟩)
    | some data => return if returnRawResponse then rResultDoc else data
  | _ =>
    throw (.mujin ⟨lit "Execute graph query does not return valid response " ++ shown ++
      lit ", invalid response: " ++ document,
      .httpServer⟩)

/-- `_ExecuteGraphQuery`. The response is read after the mutex is released. -/
def executeGraphQuery_ (operationName query : Text) (rVariables : Json) (timeout : Double)
    (checkForErrors returnRawResponse : Bool) : Request Json := do
  let (_, rResultDoc) ← locked do
    act (.access .requestStringBufferCache)
    let body := (writeJson client.platform (graphRequest operationName query rVariables)).1
    act (.access .uri)
    client.callPostData (client.baseuri ++ lit "api/v2/graphql") (cString body) 200 timeout
  Program.lift (client.graphResult operationName checkForErrors returnRawResponse rResultDoc)

def executeGraphQuery (operationName query : Text) (rVariables : Json) (timeout : Double) : Request Json :=
  client.executeGraphQuery_ operationName query rVariables timeout true false

def executeGraphQueryRaw (operationName query : Text) (rVariables : Json) (timeout : Double) : Request Json :=
  client.executeGraphQuery_ operationName query rVariables timeout false true

def getRunTimeStatuses (options : Int) : Request Unit := do
  let url := lit "job/?format=json&fields=pk,status,fnname,elapsedtime" ++
    (if options % 2 = 1 then lit ",status_text" else [])
  let _ ← client.callGet url (.object []) 200 defaultTimeout
  calls

def getScenePrimaryKeys : Request Unit := do
  let _ ← client.callGet (lit "scene/?format=json&limit=0&fields=pk") (.object []) 200 defaultTimeout
  calls

def wide (t : Text) : Wide := t.map Fin.val

def registerScene_UTF8 (uri scenetype : Text) : Request Text := do
  demand (scenetype ≠ []) (.load .assertion)
  let data := lit "\x7b\"uri\":\"" ++ uri ++ lit "\", \"scenetype\":\"" ++ scenetype ++ lit "\"\x7d"
  let (_, pt) ← client.callPost_UTF8 (lit "scene/?format=json&fields=pk") data 201 defaultTimeout
  client.stringOf pt "pk"

def registerScene_UTF16 (uri : Wide) (scenetype : Text) : Request Text := do
  demand (scenetype ≠ []) (.load .assertion)
  let data := wide (lit "\x7b\"uri\":\"") ++ uri ++
    wide (lit "\", \"scenetype\":\"" ++ cString scenetype ++ lit "\"\x7d")
  let (_, pt) ← client.callPost_UTF16 (lit "scene/?format=json&fields=pk") data 201 defaultTimeout
  client.stringOf pt "pk"

def importUri (overwrite : Bool) : Text :=
  lit "scene/?format=json&fields=pk&overwrite=" ++ (if overwrite then lit "1" else lit "0")

def importSceneToCOLLADA_UTF8 (importuri importformat newuri : Text) (overwrite : Bool) : Request Text := do
  demand (importformat ≠ []) (.load .assertion)
  let data := lit "\x7b\"reference_uri\":\"" ++ importuri ++ lit "\", \"reference_scenetype\":\"" ++
    importformat ++
    lit "\", \"uri\":\"" ++ newuri ++ lit "\"\x7d"
  let (_, pt) ← client.callPost_UTF8 (importUri overwrite) data 201 defaultTimeout
  client.stringOf pt "pk"

def importSceneToCOLLADA_UTF16 (importuri : Wide) (importformat : Text) (newuri : Wide) (overwrite : Bool) :
    Request Text := do
  demand (importformat ≠ []) (.load .assertion)
  let data := wide (lit "\x7b\"reference_uri\":\"") ++ importuri ++
    wide (lit "\", \"reference_scenetype\":\"" ++ cString importformat ++ lit "\", \"uri\":\"") ++ newuri ++
      wide (lit "\"\x7d")
  let (_, pt) ← client.callPost_UTF16 (importUri overwrite) data 201 defaultTimeout
  client.stringOf pt "pk"

def createObjectGeometry (objectPk geometryName linkPk geomtype : Text) (timeout : Double) : Request Text := do
  let geometryData := lit "\x7b\"name\":\"" ++ geometryName ++ lit "\", \"linkpk\":\"" ++ linkPk ++
    lit "\", \"geomtype\": \"" ++ geomtype ++ lit "\"\x7d"
  let (_, pt) ← client.callPost (lit "object/" ++ objectPk ++ lit "/geometry/") geometryData 201 timeout
  client.stringOf pt "pk"

def createIkParam (objectPk name iktype : Text) (timeout : Double) : Request Text := do
  let ikparamData := lit "\x7b\"name\":\"" ++ name ++ lit "\", \"iktype\":\"" ++ iktype ++ lit "\"\x7d"
  let (_, pt) ← client.callPost (lit "object/" ++ objectPk ++ lit "/ikparam/") ikparamData 201 timeout
  client.stringOf pt "pk"

def createLink (objectPk parentlinkPk name : Text) (quaternion translate : List Double) (timeout : Double) :
    Request Text := do
  let numbers (xs : List Double) : Text := separated [byte ','] (xs.map client.formatReal)
  let data := lit "\x7b\"name\":\"" ++ name ++ lit "\", \"quaternion\":[" ++ numbers quaternion ++
    lit "], \"translate\":[" ++
    numbers translate ++ lit "]" ++
    (if parentlinkPk ≠ [] then lit ", \"parentlinkpk\": \"" ++ parentlinkPk ++ lit "\"" else []) ++ lit "\x7d"
  let (_, pt) ← client.callPost (lit "object/" ++ objectPk ++ lit "/link/") data 201 timeout
  client.stringOf pt "pk"

def setObjectGeometryMesh (objectPk geometryPk meshData unit : Text) (timeout : Double) : Request Text := do
  let uri := lit "object/" ++ objectPk ++ lit "/geometry/" ++ geometryPk ++ lit "/?unit=" ++ unit
  let (_, pt) ← client.callPut uri meshData .stl 202 timeout
  client.stringOf pt "pk"

def getDebugInfos (timeout : Double) : Request Unit := do
  let _ ← client.callGet (lit "debug/?format=json&limit=0") (.object []) 200 timeout
  calls

def modifySceneReferenceObjectPK (path : String) (scenepk referenceobjectpk : Text) (timeout : Double) :
    Request Unit := do
  let pt := Json.object [(lit "scenepk", .string (cString scenepk)),
    (lit "referenceobjectpk", .string (cString referenceobjectpk))]
  let _ ← locked (client.callPostData (client.baseuri ++ lit path) (dumpJson client.platform pt) 200 timeout)

def modifySceneAddReferenceObjectPK (scenepk referenceobjectpk : Text) (timeout : Double) : Request Unit :=
  client.modifySceneReferenceObjectPK "referenceobjectpks/add/" scenepk referenceobjectpk timeout

def modifySceneRemoveReferenceObjectPK (scenepk referenceobjectpk : Text) (timeout : Double) : Request Unit :=
  client.modifySceneReferenceObjectPK "referenceobjectpks/remove/" scenepk referenceobjectpk timeout

def logEntryParts (logEntry : LogEntry) : List FormPart :=
  let document := (writeJson client.platform logEntry.rEntry).1
  ⟨cString (lit "logEntry/" ++ logEntry.logType), none, some (lit "application/json"),
    .bytes (cString document)⟩ ::
    logEntry.attachments.map fun attachment =>
      ⟨lit "attachment", some (cString attachment.filename), none, .bytes attachment.data⟩

def logEntriesForm : List LogEntry → Request (List FormPart)
  | [] => return []
  | logEntry :: logEntries => do
    act (.access .requestStringBufferCache)
    return client.logEntryParts logEntry ++ (← logEntriesForm logEntries)

def createdLogEntryIds (rResultDoc : Json) : Except Thrown (List Text) :=
  match (match rResultDoc with | .object members => Json.findMember members (lit "logEntryIds") | _ => none) with
  | some (.array logEntryIds) =>
    .ok (logEntryIds.filterMap fun | .string entry => some (cString entry) | _ => none)
  | _ =>
    .error (.mujin ⟨lit "invalid response received while uploading log entries: " ++
      dumpJson client.platform rResultDoc,
      .httpServer⟩)

def createLogEntries (logEntries : List LogEntry) (timeout : Double) : Request (List Text) :=
  if logEntries.isEmpty then
    return []
  else
    locked do
    let formpost ← client.logEntriesForm logEntries
    act (.access .uri)
    let (_, rResultDoc) ← client.callPostForm (client.baseuri ++ lit "api/v2/logEntry") formpost 201 timeout
    Program.lift (client.createdLogEntryIds rResultDoc)

section

variable {β : Type} [DecidableEq β] (encoding : PathEncoding β)

/-- The text up to and with the last separator. -/
def directoryPart (path : List β) : List β := path.take (path.length - (baseFilename encoding.filesep path).length)

/-- The text before the last backslash, with separators for the backslashes in it. -/
def upToLastBackslash (backslash separator : β) (path : List β) : List β :=
  ((path.reverse.dropWhile (· ≠ backslash)).tail.reverse).map fun c => if c = backslash then separator else c

/-- The directory a WINCAPS project points to, if it does. -/
def uploadWincapsDirectory (sourcefilename : List β) (baseuploaduri : Text) (strWCNPath_utf16 : Wide)
    (listing : Listing β) : Request Unit :=
  if strWCNPath_utf16 = [] then
    return
  else do
    let strWCNURI ← Program.lift (utf16to8 strWCNPath_utf16)
    let strWCNPath ← Program.lift (encoding.ofUtf16 strWCNPath_utf16)
    client.uploadDirectory encoding
      (directoryPart encoding sourcefilename ++ upToLastBackslash encoding.backslash encoding.filesep strWCNPath)
      (baseuploaduri ++ client.encodeWithoutSeparator (upToLastBackslash (byte '\\') (byte '/') strWCNURI)) listing

def ensureDestination (destinationdir : Text) : Request Unit :=
  if (lit "mujin:/").isPrefixOf destinationdir then
    client.ensureWebDAVDirectories (destinationdir.drop 7) (Double.ofInt 3)
  else return

/-- The directory of files that belongs to a scene of this type, before the file of the scene. -/
def uploadSceneDirectory (sourcefilename : List β) (baseuploaduri scenetype : Text)
    (wincapsPath : Except Thrown Wide) (listing : Listing β) : Request Unit :=
  if scenetype = lit "wincaps" then do
    client.uploadWincapsDirectory encoding sourcefilename baseuploaduri (← Program.lift wincapsPath) listing
  else return

/-- What `SyncUpload_UTF8` and `SyncUpload_UTF16` come to, with the destination as UTF-8. -/
def syncUpload (sourcefilename : List β) (destinationdir scenetype : Text) (wincapsPath : Except Thrown Wide)
    (listing : Listing β) : Request Unit := do
  client.ensureDestination destinationdir
  let baseuploaduri := ensureSlash (if (lit "mujin:/").isPrefixOf destinationdir then
    client.basewebdavuri ++ client.encodeWithoutSeparator (destinationdir.drop 7) else destinationdir)
  if scenetype = lit "rttoolbox" ∨ scenetype = lit "cecrobodiaxml" then
    if directoryPart encoding sourcefilename ≠ [] then
      client.uploadDirectory encoding (directoryPart encoding sourcefilename) baseuploaduri listing
  else
    client.uploadSceneDirectory encoding sourcefilename baseuploaduri scenetype wincapsPath listing
    let base ← Program.lift (encoding.toUtf8 (baseFilename encoding.filesep sourcefilename))
    client.uploadFile encoding sourcefilename (baseuploaduri ++ client.escapeString base)

/-- A loop over one string, with the index of the last backslash. -/
def separatorLoop (backslash separator : β) : Nat → Nat → List β → List β × Nat
  | _, lastindex, [] => ([], lastindex)
  | i, lastindex, c :: rest =>
    let (later, lastindex) :=
      separatorLoop backslash separator (i + 1) (if c = backslash then i else lastindex) rest
    ((if c = backslash then separator else c) :: later, lastindex)

theorem upToLastBackslash_cons (backslash separator c : β) (rest : List β) :
    upToLastBackslash backslash separator (c :: rest) =
      if backslash ∈ rest then
        (if c = backslash then separator else c) :: upToLastBackslash backslash separator rest
      else [] := by
  unfold upToLastBackslash
  rw [List.reverse_cons, List.dropWhile_append]
  split
  · rename_i none
    have absent : backslash ∉ rest := by
      intro inside
      rw [List.isEmpty_iff, List.dropWhile_eq_nil_iff] at none
      simpa using none backslash (List.mem_reverse.mpr inside)
    rw [if_neg absent]
    by_cases here : c = backslash <;> simp [here]
  · rename_i some
    have inside : backslash ∈ rest := by
      by_contra absent
      apply some
      rw [List.isEmpty_iff, List.dropWhile_eq_nil_iff]
      intro b member
      have apart : b ≠ backslash := fun same => absent (same ▸ List.mem_reverse.mp member)
      simpa using apart
    rw [if_pos inside, List.tail_append_of_ne_nil (by simpa using some), List.reverse_append, List.map_append]
    rfl

theorem separatorLoop_eq (backslash separator : β) (path : List β) (i lastindex : Nat) :
    separatorLoop backslash separator i lastindex path = (path.map fun c => if c = backslash then separator else c,
      if backslash ∈ path then i + (upToLastBackslash backslash separator path).length else lastindex) := by
  induction path generalizing i lastindex with
  | nil => rfl
  | cons c rest ih =>
    rw [separatorLoop, ih, upToLastBackslash_cons, List.map_cons]
    by_cases later : backslash ∈ rest
    · simp only [later, List.mem_cons, or_true, if_true, List.length_cons]
      congr 1
      omega
    · by_cases here : c = backslash
      · simp [later, here]
      · simp [later, here, Ne.symm here]

theorem take_upToLastBackslash (backslash separator : β) (path : List β) :
    (path.map fun c => if c = backslash then separator else c).take
      (upToLastBackslash backslash separator path).length =
      upToLastBackslash backslash separator path := by
  induction path with
  | nil => rfl
  | cons c rest ih =>
    rw [upToLastBackslash_cons]
    split
    · rw [List.map_cons, List.length_cons, List.take_succ_cons, ih]
    · rfl

theorem take_separatorLoop (backslash separator : β) (path : List β) :
    (separatorLoop backslash separator 0 0 path).1.take (separatorLoop backslash separator 0 0 path).2 =
      upToLastBackslash backslash separator path := by
  rw [separatorLoop_eq]
  dsimp only
  split
  · rw [Nat.zero_add, take_upToLastBackslash]
  · rename_i absent
    have none : upToLastBackslash backslash separator path = [] := by
      cases path with
      | nil => rfl
      | cons c rest => rw [upToLastBackslash_cons, if_neg fun inside => absent (List.mem_cons_of_mem c inside)]
    rw [none, List.take_zero]

end

/-- One loop over two strings. -/
def separatorsLoop : Nat → Nat → Text → Text × Text × Nat
  | _, lastindex, [] => ([], [], lastindex)
  | i, lastindex, c :: rest =>
    if c = byte '\\' then
      let (strWCNURI, strWCNPath, lastindex) := separatorsLoop (i + 1) i rest
      (byte '/' :: strWCNURI, utf8Paths.filesep :: strWCNPath, lastindex)
    else
      let (strWCNURI, strWCNPath, lastindex) := separatorsLoop (i + 1) lastindex rest
      (c :: strWCNURI, c :: strWCNPath, lastindex)

def uploadWincapsDirectory_UTF8 (sourcefilename baseuploaduri : Text) (strWCNPath_utf16 : Wide)
    (listing : Listing Byte) : Request Unit :=
  if strWCNPath_utf16 = [] then
    return
  else do
    let strWCNPath ← Program.lift (utf16to8 strWCNPath_utf16)
    let (strWCNURI, strWCNPath, lastindex) := separatorsLoop 0 0 strWCNPath
    client.uploadDirectory utf8Paths (directoryPart utf8Paths sourcefilename ++ strWCNPath.take lastindex)
      (baseuploaduri ++ client.encodeWithoutSeparator (strWCNURI.take lastindex)) listing

def uploadWincapsDirectory_UTF16 (sourcefilename : Wide) (baseuploaduri : Text) (strWCNPath_utf16 : Wide)
    (listing : Listing Nat) : Request Unit :=
  if strWCNPath_utf16 = [] then
    return
  else do
    let strWCNURI ← Program.lift (utf16to8 strWCNPath_utf16)
    let (strWCNURI, lastindex_utf8) := separatorLoop (byte '\\') (byte '/') 0 0 strWCNURI
    let (strWCNPath_utf16, lastindex_utf16) :=
      separatorLoop utf16Paths.backslash utf16Paths.filesep 0 0 strWCNPath_utf16
    client.uploadDirectory utf16Paths
      (directoryPart utf16Paths sourcefilename ++ strWCNPath_utf16.take lastindex_utf16)
      (baseuploaduri ++ client.encodeWithoutSeparator (strWCNURI.take lastindex_utf8)) listing

def syncUpload_UTF8 (sourcefilename destinationdir scenetype : Text) (wincapsPath : Except Thrown Wide)
    (listing : Listing Byte) : Request Unit := do
  client.ensureDestination destinationdir
  let baseuploaduri := ensureSlash (if (lit "mujin:/").isPrefixOf destinationdir then
    client.basewebdavuri ++ client.encodeWithoutSeparator (destinationdir.drop 7) else destinationdir)
  let uploadfileuri := baseuploaduri ++ client.escapeString (baseFilename utf8Paths.filesep sourcefilename)
  if scenetype = lit "wincaps" then
    client.uploadWincapsDirectory_UTF8 sourcefilename baseuploaduri (← Program.lift wincapsPath) listing
    client.uploadFile utf8Paths sourcefilename uploadfileuri
  else if scenetype = lit "rttoolbox" ∨ scenetype = lit "cecrobodiaxml" then
    if directoryPart utf8Paths sourcefilename ≠ [] then
      client.uploadDirectory utf8Paths (directoryPart utf8Paths sourcefilename) baseuploaduri listing
  else
    client.uploadFile utf8Paths sourcefilename uploadfileuri

def syncUpload_UTF16 (sourcefilename_utf16 destinationdir_utf16 : Wide) (scenetype : Text)
    (wincapsPath : Except Thrown Wide) (listing : Listing Nat) : Request Unit := do
  let destinationdir_utf8 ← Program.lift (utf16to8 destinationdir_utf16)
  client.ensureDestination destinationdir_utf8
  let baseuploaduri := ensureSlash (if (lit "mujin:/").isPrefixOf destinationdir_utf8 then
    client.basewebdavuri ++ client.encodeWithoutSeparator (destinationdir_utf8.drop 7) else destinationdir_utf8)
  if scenetype = lit "wincaps" then
    client.uploadWincapsDirectory_UTF16 sourcefilename_utf16 baseuploaduri (← Program.lift wincapsPath) listing
    let sourcefilenamedir_utf8 ← Program.lift (utf16to8 (baseFilename utf16Paths.filesep sourcefilename_utf16))
    client.uploadFile utf16Paths sourcefilename_utf16 (baseuploaduri ++ client.escapeString sourcefilenamedir_utf8)
  else if scenetype = lit "rttoolbox" ∨ scenetype = lit "cecrobodiaxml" then
    if directoryPart utf16Paths sourcefilename_utf16 ≠ [] then
      client.uploadDirectory utf16Paths (directoryPart utf16Paths sourcefilename_utf16) baseuploaduri listing
  else
    let sourcefilenamedir_utf8 ← Program.lift (utf16to8 (baseFilename utf16Paths.filesep sourcefilename_utf16))
    client.uploadFile utf16Paths sourcefilename_utf16 (baseuploaduri ++ client.escapeString sourcefilenamedir_utf8)

/-- The strings have the same bytes, and both loops write the same separator. -/
theorem separatorsLoop_eq (path : Text) (i lastindex : Nat) :
    separatorsLoop i lastindex path =
      ((separatorLoop (byte '\\') (byte '/') i lastindex path).1,
        separatorLoop (byte '\\') (byte '/') i lastindex path) := by
  induction path generalizing i lastindex with
  | nil => rfl
  | cons c rest ih =>
    rw [separatorsLoop, separatorLoop]
    by_cases here : c = byte '\\'
    · rw [if_pos here, if_pos here, if_pos here, ih]
      rfl
    · rw [if_neg here, if_neg here, if_neg here, ih]

theorem uploadWincapsDirectory_UTF8_eq (sourcefilename baseuploaduri : Text) (strWCNPath_utf16 : Wide)
    (listing : Listing Byte) :
    client.uploadWincapsDirectory_UTF8 sourcefilename baseuploaduri strWCNPath_utf16 listing =
      client.uploadWincapsDirectory utf8Paths sourcefilename baseuploaduri strWCNPath_utf16 listing := by
  unfold uploadWincapsDirectory_UTF8 uploadWincapsDirectory
  split
  · rfl
  · have narrow : utf8Paths.ofUtf16 strWCNPath_utf16 = utf16to8 strWCNPath_utf16 := rfl
    rw [narrow]
    cases utf16to8 strWCNPath_utf16 with
    | error e => rfl
    | ok strWCNPath =>
      show client.uploadDirectory utf8Paths
          (directoryPart utf8Paths sourcefilename ++ (separatorsLoop 0 0 strWCNPath).2.1.take _)
        (baseuploaduri ++ client.encodeWithoutSeparator ((separatorsLoop 0 0 strWCNPath).1.take _)) listing = _
      rw [separatorsLoop_eq]
      dsimp only
      rw [take_separatorLoop]
      rfl

theorem uploadWincapsDirectory_UTF16_eq (sourcefilename : Wide) (baseuploaduri : Text) (strWCNPath_utf16 : Wide)
    (listing : Listing Nat) :
    client.uploadWincapsDirectory_UTF16 sourcefilename baseuploaduri strWCNPath_utf16 listing =
      client.uploadWincapsDirectory utf16Paths sourcefilename baseuploaduri strWCNPath_utf16 listing := by
  unfold uploadWincapsDirectory_UTF16 uploadWincapsDirectory
  split
  · rfl
  · cases utf16to8 strWCNPath_utf16 with
    | error e => rfl
    | ok strWCNURI =>
      show client.uploadDirectory utf16Paths (directoryPart utf16Paths sourcefilename ++
        (separatorLoop utf16Paths.backslash utf16Paths.filesep 0 0 strWCNPath_utf16).1.take _) (baseuploaduri ++
          client.encodeWithoutSeparator ((separatorLoop (byte '\\') (byte '/') 0 0 strWCNURI).1.take _))
            listing = _
      rw [take_separatorLoop, take_separatorLoop]
      rfl

theorem syncUpload_UTF8_eq (sourcefilename destinationdir scenetype : Text)
    (wincapsPath : Except Thrown Wide) (listing : Listing Byte) :
    client.syncUpload_UTF8 sourcefilename destinationdir scenetype wincapsPath listing =
      client.syncUpload utf8Paths sourcefilename destinationdir scenetype wincapsPath listing := by
  unfold syncUpload_UTF8 syncUpload uploadSceneDirectory
  simp only [uploadWincapsDirectory_UTF8_eq]
  by_cases wincaps : scenetype = lit "wincaps"
  · have other : ¬(scenetype = lit "rttoolbox" ∨ scenetype = lit "cecrobodiaxml") := by
      rw [wincaps]
      decide
    rw [if_pos wincaps, if_neg other, if_pos wincaps]
    cases wincapsPath <;> rfl
  · rw [if_neg wincaps, if_neg wincaps]
    rfl

theorem syncUpload_UTF16_eq (sourcefilename_utf16 destinationdir_utf16 : Wide) (scenetype : Text)
    (wincapsPath : Except Thrown Wide) (listing : Listing Nat) :
    client.syncUpload_UTF16 sourcefilename_utf16 destinationdir_utf16 scenetype wincapsPath listing = (do
      client.syncUpload utf16Paths sourcefilename_utf16 (← Program.lift (utf16to8 destinationdir_utf16))
        scenetype wincapsPath listing) := by
  unfold syncUpload_UTF16 syncUpload uploadSceneDirectory
  simp only [uploadWincapsDirectory_UTF16_eq]
  by_cases wincaps : scenetype = lit "wincaps"
  · have other : ¬(scenetype = lit "rttoolbox" ∨ scenetype = lit "cecrobodiaxml") := by
      rw [wincaps]
      decide
    simp only [if_pos wincaps, if_neg other]
    cases wincapsPath <;> rfl
  · simp only [if_neg wincaps]
    rfl

def uploadData (data desturi : Text) : Request Unit := do
  demand (client.basewebdavuri.length ≤ desturi.length) .standard
  client.uploadDataViaForm data (desturi.drop client.basewebdavuri.length)
    (client.baseuri ++ lit "fileupload") (Double.ofInt 0)

def getModifiedTime (uri : Text) : Request Int :=
  locked do
  saveSetter .httpHeader .null (.headers .json) do
  let apiendpoint := client.baseuri ++ lit "file/download/?filename=" ++
    (if (lit "mujin:/").isPrefixOf uri then client.encodeWithoutSeparator (uri.drop 7) else [])
  saveSetter .url .null (.text (cString apiendpoint)) do
  saveSetter .fileTime (.long 0) (.long 1) do
  saveSetter .noBody (.long 0) (.long 1) do
  perform
  let http_code ← infoGetter .responseCode
  demand (http_code = 200)
    (.mujin ⟨lit "Cannot get modified date of " ++ uri ++ lit " for HTTP HEAD call: return is " ++
    intText http_code, .httpServer⟩)
  infoGetter .fileTime

def listFilesInController (dirname : Text) (timeout : Double) : Request Unit := do
  let _ ← client.callGetValue (client.baseuri ++ lit "file/list/?dirname=" ++ dirname) (.object []) 200 timeout
  calls

def boolText (b : Bool) : Text := if b then lit "true" else lit "false"

def flagText (b : Bool) : Text := if b then lit "1" else lit "0"

def saveBackup (config media : Bool) (backupscenepks : Text) (timeout : Double) : Request Unit :=
  locked do
  let query :=
    lit "?config=" ++ boolText config ++ lit "&media=" ++ boolText media ++ lit "&backupscenepks=" ++
      backupscenepks
  let _ ← client.callGetStream (client.baseuri ++ lit "backup/" ++ query) 200 timeout

def restoreBackup (config media : Bool) (timeout : Double) : Request Unit :=
  locked do
  let query := lit "?config=" ++ boolText config ++ lit "&media=" ++ boolText media
  client.uploadFileViaForm [] (client.baseuri ++ lit "backup/" ++ query) timeout

def upgrade (autorestart uploadonly : Bool) (timeout : Double) : Request Unit :=
  locked do
  let uri := client.baseuri ++ lit "upgrade/" ++ lit "?autorestart=" ++ flagText autorestart ++
    lit "&uploadonly=" ++ flagText uploadonly
  let length ← contentLength
  if length ≠ 0 then
    client.uploadFileViaForm [] uri timeout
  else
    let _ ← client.callPostData uri [] 200 timeout

def getUpgradeStatus (timeout : Double) : Request Bool :=
  locked do
  let (_, pt) ← client.callGetValue (client.baseuri ++ lit "upgrade/") (.object []) 200 timeout
  if pt.isNull then
    return false
  else
    let _ ← client.stringOf pt "status"
    calls
    return true

def reboot (timeout : Double) : Request Unit := do
  let _ ← locked (client.callPostData (client.baseuri ++ lit "reboot/") [] 200 timeout)

/-- The endpoint that new subscriptions use changes before the lock is taken. -/
def setProxy (serverport userpw : Text) : Request Unit := do
  setter .unixSocketPath .null
  setter .proxy (.text (cString serverport))
  setter .proxyUserPwd (.text (cString userpw))
  locked calls

def setUnixEndpoint (unixendpoint : Text) : Request Unit := do
  setter .proxy .null
  setter .proxyUserPwd .null
  setter .unixSocketPath (.text (cString unixendpoint))
  locked calls

def setUserAgent (userAgent : Text) : Request Unit := setter .userAgent (.text (cString userAgent))

/-- What a call of the operation does, without its result. -/
def script : Operation → Request Unit
  | .accessor _ => calls
  | .getBuffer => act (.access .buffer)
  | .getVersion => do let _ ← client.getVersion
  | .setCharacterEncoding _ | .setLanguage _ | .setAdditionalHeaders _ => locked calls
  | .setProxy serverport userpw => setProxy serverport userpw
  | .setUnixEndpoint unixendpoint => setUnixEndpoint unixendpoint
  | .setUserAgent userAgent => setUserAgent userAgent
  | .restartServer timeout => client.restartServer timeout
  | .executeGraphQuery_ operationName query rVariables timeout checkForErrors returnRawResponse => do
    let _ ← client.executeGraphQuery_ operationName query rVariables timeout checkForErrors returnRawResponse
  | .executeGraphQuery operationName query rVariables timeout => do
    let _ ← client.executeGraphQuery operationName query rVariables timeout
  | .executeGraphQueryRaw operationName query rVariables timeout => do
    let _ ← client.executeGraphQueryRaw operationName query rVariables timeout
  | .executeGraphSubscription _ _ _ => locked calls
  | .cancelAllJobs => client.callDelete (lit "job/?format=json") 204 defaultTimeout
  | .getRunTimeStatuses options => client.getRunTimeStatuses options
  | .getScenePrimaryKeys => client.getScenePrimaryKeys
  | .registerScene_UTF8 uri scenetype => do let _ ← client.registerScene_UTF8 uri scenetype
  | .registerScene_UTF16 uri scenetype => do let _ ← client.registerScene_UTF16 uri scenetype
  | .importSceneToCOLLADA_UTF8 importuri importformat newuri overwrite => do
    let _ ← client.importSceneToCOLLADA_UTF8 importuri importformat newuri overwrite
  | .importSceneToCOLLADA_UTF16 importuri importformat newuri overwrite => do
    let _ ← client.importSceneToCOLLADA_UTF16 importuri importformat newuri overwrite
  | .syncUpload_UTF8 sourcefilename destinationdir scenetype wincapsPath listing =>
    locked (client.syncUpload_UTF8 sourcefilename destinationdir scenetype wincapsPath listing)
  | .syncUpload_UTF16 sourcefilename destinationdir scenetype wincapsPath listing =>
    locked (client.syncUpload_UTF16 sourcefilename destinationdir scenetype wincapsPath listing)
  | .uploadFileToController_UTF8 filename desturi =>
    locked do
    client.uploadFile utf8Paths filename (← client.prepareDestinationURI desturi false false false)
  | .uploadFileToController_UTF16 filename desturi =>
    locked do
    client.uploadFile utf16Paths filename (← client.prepareDestinationURI_UTF16 desturi false false false)
  | .uploadDataToController_UTF8 data desturi =>
    locked do
    client.uploadData data (← client.prepareDestinationURI desturi false false false)
  | .uploadDataToController_UTF16 data desturi =>
    locked do
    client.uploadData data (← client.prepareDestinationURI_UTF16 desturi false false false)
  | .uploadDirectoryToController_UTF8 copydir desturi listing =>
    locked do
    client.uploadDirectory utf8Paths copydir (← client.prepareDestinationURI desturi false false true) listing
  | .uploadDirectoryToController_UTF16 copydir desturi listing =>
    locked do
    client.uploadDirectory utf16Paths copydir
      (← client.prepareDestinationURI_UTF16 desturi false false true) listing
  | .downloadFileFromController_UTF8 desturi =>
    locked do
    let _ ← client.callGetVector (← client.prepareDestinationURI desturi false false false) 200 defaultTimeout
  | .downloadFileFromController_UTF16 desturi =>
    locked do
    let _ ← client.callGetVector (← client.prepareDestinationURI_UTF16 desturi false false false) 200
        defaultTimeout
  | .downloadFileFromControllerIfModifiedSince_UTF8 desturi localtimeval timeout =>
    locked do
    let _ ← client.downloadFile (← client.prepareDestinationURI desturi false false false) localtimeval timeout
  | .downloadFileFromControllerIfModifiedSince_UTF16 desturi localtimeval timeout =>
    locked do
    let _ ← client.downloadFile (← client.prepareDestinationURI_UTF16 desturi false false false)
        localtimeval timeout
  | .getModifiedTime uri _ => do let _ ← client.getModifiedTime uri
  | .deleteFileOnController_UTF8 desturi =>
    locked do
    client.deleteFile (← client.prepareDestinationURI desturi false false false)
  | .deleteFileOnController_UTF16 desturi =>
    locked do
    client.deleteFile (← client.prepareDestinationURI_UTF16 desturi false false false)
  | .deleteDirectoryOnController_UTF8 desturi =>
    locked do
    deleteDirectory (← client.prepareDestinationURI desturi false false true)
  | .deleteDirectoryOnController_UTF16 desturi =>
    locked do
    deleteDirectory (← client.prepareDestinationURI_UTF16 desturi false false true)
  | .listFilesInController dirname timeout => client.listFilesInController dirname timeout
  | .saveBackup config media backupscenepks timeout => client.saveBackup config media backupscenepks timeout
  | .restoreBackup config media timeout => client.restoreBackup config media timeout
  | .upgrade autorestart uploadonly timeout => client.upgrade autorestart uploadonly timeout
  | .getUpgradeStatus timeout => do let _ ← client.getUpgradeStatus timeout
  | .cancelUpgrade timeout => client.callDelete (client.baseuri ++ lit "upgrade/") 200 timeout
  | .reboot timeout => client.reboot timeout
  | .deleteAllScenes timeout => locked (client.callDelete (lit "scene/") 204 timeout)
  | .deleteAllITLPrograms timeout => client.callDelete (lit "itl/") 204 timeout
  | .modifySceneAddReferenceObjectPK scenepk referenceobjectpk timeout =>
    client.modifySceneAddReferenceObjectPK scenepk referenceobjectpk timeout
  | .modifySceneRemoveReferenceObjectPK scenepk referenceobjectpk timeout =>
    client.modifySceneRemoveReferenceObjectPK scenepk referenceobjectpk timeout
  | .callGetValue relativeuri pt expectedhttpcode timeout =>
    do let _ ← client.callGet relativeuri pt expectedhttpcode timeout
  | .callGetString relativeuri expectedhttpcode timeout =>
    locked do
    act (.access .uri)
    let _ ← client.callGetString (client.baseapiuri ++ relativeuri) expectedhttpcode timeout
  | .callGetStream relativeuri expectedhttpcode timeout =>
    locked do
    act (.access .uri)
    let _ ← client.callGetStream (client.baseapiuri ++ relativeuri) expectedhttpcode timeout
  | .callGetVector relativeuri expectedhttpcode timeout =>
    locked do
    act (.access .uri)
    let _ ← client.callGetVector (client.baseapiuri ++ relativeuri) expectedhttpcode timeout
  | .callPost relativeuri data expectedhttpcode timeout =>
    do let _ ← client.callPost relativeuri data expectedhttpcode timeout
  | .callPost_UTF8 relativeuri data expectedhttpcode timeout => do
    let _ ← client.callPost_UTF8 relativeuri data expectedhttpcode timeout
  | .callPost_UTF16 relativeuri data expectedhttpcode timeout => do
    let _ ← client.callPost_UTF16 relativeuri data expectedhttpcode timeout
  | .callPutJSON relativeuri data expectedhttpcode timeout => do
    let _ ← client.callPut relativeuri data .json expectedhttpcode timeout
  | .callPutSTL relativeuri data expectedhttpcode timeout => do
    let _ ← client.callPut relativeuri data .stl expectedhttpcode timeout
  | .callDelete relativeuri expectedhttpcode timeout => client.callDelete relativeuri expectedhttpcode timeout
  | .createObjectGeometry objectPk geometryName linkPk geomtype timeout => do
    let _ ← client.createObjectGeometry objectPk geometryName linkPk geomtype timeout
  | .createIkParam objectPk name iktype timeout => do let _ ← client.createIkParam objectPk name iktype timeout
  | .createLink objectPk parentlinkPk name quaternion translate timeout => do
    let _ ← client.createLink objectPk parentlinkPk name quaternion translate timeout
  | .setObjectGeometryMesh objectPk geometryPk meshData unit timeout => do
    let _ ← client.setObjectGeometryMesh objectPk geometryPk meshData unit timeout
  | .getDebugInfos timeout => client.getDebugInfos timeout
  | .createLogEntries logEntries timeout => do let _ ← client.createLogEntries logEntries timeout

end ControllerClient
end MujinClient
