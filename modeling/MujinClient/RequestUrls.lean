import MujinClient.RequestPlaces
import MujinClient.WrittenJson

/-! The URLs of the requests. A request goes to a place under one of the roots of the client, and the
place is the same whatever the client is made for. -/
namespace MujinClient

open Request

namespace ControllerClient

variable (client : ControllerClient) {ok : SentRequest → Prop} {h : CurlHandle} {desturi : Text}
    {expectedhttpcode : Int} {timeout : Double}

section

variable {client} {places : List Place} {h : CurlHandle}

theorem sends_prepared {desturi : Text} {bIsDirectory : Bool} {f : Text → Request α} {ok : SentRequest → Prop}
    (rest : Sends ok h (f (client.destination desturi))) :
    Sends ok h (locked do f (← client.prepareDestinationURI desturi false false bIsDirectory)) := by
  rw [sends_locked, prepareDestinationURI_destination]
  exact rest

theorem sends_prepared_UTF16 {desturi : Wide} {bIsDirectory : Bool} {f : Text → Request α}
    {ok : SentRequest → Prop}
    (rest : ∀ desturi_utf8, utf16to8 desturi = .ok desturi_utf8 →
      Sends ok h (f (client.destination desturi_utf8))) :
    Sends ok h (locked do f (← client.prepareDestinationURI_UTF16 desturi false false bIsDirectory)) := by
  rw [sends_locked, prepareDestinationURI_UTF16]
  cases converted : utf16to8 desturi with
  | error e => exact sends_throws
  | ok desturi_utf8 =>
    have prepared : client.prepareDestinationURI desturi_utf8 false false bIsDirectory =
        pure (client.destination desturi_utf8) :=
      prepareDestinationURI_destination bIsDirectory
    show Sends ok h (client.prepareDestinationURI desturi_utf8 false false bIsDirectory >>= f)
    rw [prepared]
    exact rest desturi_utf8 converted

theorem goesTo_only {place : Place} {request : SentRequest}
    (url : request.url = .text (cString (client.placeText place))) :
    client.GoesTo [place] request := goesTo_of (List.mem_singleton_self place) url

theorem decoded_ok {desturi : Wide} {desturi_utf8 : Text} (converted : utf16to8 desturi = .ok desturi_utf8)
    (places : Text → List Place) :
    decoded places desturi = places desturi_utf8 := by
  rw [decoded, converted]

theorem sends_getFile {desturi : Text} {expectedhttpcode : Int} {timeout : Double} :
    Sends (client.GoesTo (client.filePlace desturi)) h
      (client.callGetVector (client.destination desturi) expectedhttpcode timeout) :=
  (sends_callGetVector client).mpr (goesTo_only (by rw [destination_eq]; rfl))

theorem sends_downloadFile {desturi : Text} {localtimeval : Int} {timeout : Double} :
    Sends (client.GoesTo (client.filePlace desturi)) h
      (client.downloadFile (client.destination desturi) localtimeval timeout) := by
  rw [downloadFile, sends_saveSetter, sends_saveSetter, sends_saveSetter]
  refine sends_getFile.bind fun answer g => sends_demand.mpr fun _ => ?_
  split
  · exact sends_infoGetter
  · exact sends_pure

theorem sends_deleteDirectory_place {desturi : Text} :
    Sends (client.GoesTo (client.filePlace desturi)) h (deleteDirectory (client.destination desturi)) := by
  rw [deleteDirectory, sends_saveSetter, sends_saveSetter, sends_saveSetter, sends_reply fun _ _ => sends_pure]
  refine goesTo_only ?_
  rw [destination_eq]
  simp [CurlHandle.sends, CurlHandle.setopt, placeText]

/-- The file to delete ends the destination. -/
theorem sends_deleteFile_place {desturi : Text} :
    Sends (client.GoesTo (client.deletedPlaces desturi)) h (client.deleteFile (client.destination desturi)) := by
  rw [deleteFile, sends_demand, List.isPrefixOf_iff_prefix]
  rintro ⟨filename, under⟩
  rw [sends_bind fun _ _ => sends_pure, sends_callPostData, ← under, List.drop_left]
  refine ⟨.under .base (lit "file/delete/?filename=" ++ filename), List.mem_map_of_mem ?_, ?_⟩
  · unfold destination at under
    split at under
    · rename_i mujin
      rw [if_pos mujin]
      exact List.mem_singleton.mpr (List.append_cancel_left under)
    · rename_i other
      rw [if_neg other, List.mem_tails]
      exact ⟨_, under⟩
  · simp [postOf, placeText, rootText]

theorem sends_uploadData_place {data uri : Text} :
    Sends (client.GoesTo [.under .base (lit "fileupload")]) h (client.uploadData data uri) := by
  refine sends_demand.mpr fun _ => ?_
  rw [uploadDataViaForm, sends_bind fun _ _ => sends_pure, sends_callPostForm]
  exact goesTo_only rfl

theorem sends_uploadFileViaForm {filename endpoint relative : Text} {timeout : Double}
    (below : endpoint = client.baseuri ++ relative) :
    Sends (client.GoesTo [.under .base relative]) h (client.uploadFileViaForm filename endpoint timeout) := by
  rw [uploadFileViaForm, sends_contentLength]
  intro length
  rw [sends_saveSetter, sends_bind fun _ _ => sends_pure, sends_callPostForm, below]
  exact goesTo_only rfl

theorem sends_upgrade {autorestart uploadonly : Bool} {timeout : Double} :
    Sends (client.GoesTo (client.operationPlaces (.upgrade autorestart uploadonly timeout))) h
      (client.upgrade autorestart uploadonly timeout) := by
  rw [upgrade, sends_locked]
  dsimp only
  rw [sends_contentLength]
  intro length
  split
  · exact sends_uploadFileViaForm (by simp)
  · exact Sends.bind ((sends_callPostData client).mpr (goesTo_only (by simp [postOf, placeText, rootText])))
      fun _ _ => sends_pure

theorem sends_getUpgradeStatus {timeout : Double} :
    Sends (client.GoesTo [.under .base (lit "upgrade/")]) h (client.getUpgradeStatus timeout) := by
  rw [getUpgradeStatus, sends_locked]
  refine Sends.bind ((sends_callGetValue client).mpr (goesTo_only rfl)) fun reply g => ?_
  dsimp only
  split
  · exact sends_pure
  · exact Sends.bind sends_lift fun _ _ => Sends.bind sends_calls fun _ _ => sends_pure

theorem sends_getModifiedTime {uri : Text} {timeout : Double} :
    Sends (client.GoesTo (client.operationPlaces (.getModifiedTime uri timeout))) h
      (client.getModifiedTime uri) := by
  simp only [getModifiedTime, sends_locked, sends_saveSetter]
  rw [sends_reply fun _ _ => sends_demand.mpr fun _ => sends_infoGetter]
  exact goesTo_only (by simp [CurlHandle.sends, CurlHandle.setopt, placeText, rootText])

theorem sends_restartServer {timeout : Double} :
    Sends (client.GoesTo [.under .base (lit "restartserver/")]) h (client.restartServer timeout) := by
  simp only [restartServer, sends_locked, sends_saveSetter, sends_access, sends_clearBuffer]
  rw [sends_reply fun _ _ => sends_demanded]
  exact goesTo_only (by simp [CurlHandle.sends, CurlHandle.setopt, placeText, rootText])

theorem sends_executeGraphQuery_ {operationName query : Text} {rVariables : Json} {timeout : Double}
    {checkForErrors returnRawResponse : Bool} :
    Sends (client.GoesTo [.under .base (lit "api/v2/graphql")]) h
      (client.executeGraphQuery_ operationName query rVariables timeout checkForErrors returnRawResponse) := by
  refine Sends.bind ?_ fun _ _ => sends_lift
  simp only [sends_locked, sends_access, sends_callPostData]
  exact goesTo_only rfl

theorem sends_get {relativeuri : Text} {pt : Json} {expectedhttpcode : Int} {timeout : Double}
    {f : Int × Json → Request α}
    (rest : ∀ x g, Sends (client.GoesTo [.under .api relativeuri]) g (f x)) :
    Sends (client.GoesTo [.under .api relativeuri]) h
      (client.callGet relativeuri pt expectedhttpcode timeout >>= f) :=
  ((sends_callGet client).mpr (goesTo_only rfl)).bind rest

theorem sends_post {relativeuri data : Text} {expectedhttpcode : Int} {timeout : Double}
    {f : Int × Json → Request α}
    (rest : ∀ x g, Sends (client.GoesTo [.under .api relativeuri]) g (f x)) :
    Sends (client.GoesTo [.under .api relativeuri]) h
      (client.callPost relativeuri data expectedhttpcode timeout >>= f) :=
  ((sends_callPost client).mpr (goesTo_only rfl)).bind rest

theorem sends_callPost_UTF16 {relativeuri : Text} {data : Wide} {expectedhttpcode : Int} {timeout : Double} :
    Sends (client.GoesTo [.under .api relativeuri]) h
      (client.callPost_UTF16 relativeuri data expectedhttpcode timeout) :=
  sends_lift_bind.mpr fun _ _ => (sends_callPost client).mpr (goesTo_only rfl)

theorem sends_registerScene_UTF16 {uri : Wide} {scenetype : Text} :
    Sends (client.GoesTo [.under .api (lit "scene/?format=json&fields=pk")]) h
      (client.registerScene_UTF16 uri scenetype) := by
  unfold registerScene_UTF16
  refine sends_demand.mpr fun _ => ?_
  dsimp only
  generalize wide _ ++ uri ++ wide _ = data
  exact Sends.bind sends_callPost_UTF16 fun _ _ => sends_lift

theorem sends_importSceneToCOLLADA_UTF16 {importuri : Wide} {importformat : Text} {newuri : Wide}
    {overwrite : Bool} :
    Sends (client.GoesTo [.under .api (importUri overwrite)]) h
      (client.importSceneToCOLLADA_UTF16 importuri importformat newuri overwrite) := by
  unfold importSceneToCOLLADA_UTF16
  refine sends_demand.mpr fun _ => ?_
  dsimp only
  generalize wide _ ++ importuri ++ wide _ ++ newuri ++ wide _ = data
  exact Sends.bind sends_callPost_UTF16 fun _ _ => sends_lift

theorem sends_delete {relativeuri : Text} {expectedhttpcode : Int} {timeout : Double} :
    Sends (client.GoesTo [.under .api relativeuri]) h (client.callDelete relativeuri expectedhttpcode timeout) :=
  (sends_callDelete client).mpr (goesTo_only rfl)

end

/-- Every operation but one sends its requests to its places. -/
theorem sends_script (op : Operation) (other : op.isCancel = false) (h : CurlHandle) :
    Sends (client.GoesTo (client.operationPlaces op)) h (client.script op) := by
  cases op with
  | cancelUpgrade timeout => cases other
  | accessor | setCharacterEncoding | setLanguage | setAdditionalHeaders | executeGraphSubscription =>
    simp [script]
  | getBuffer => exact ⟨(fun sent => by cases sent), fun _ => trivial⟩
  | setProxy | setUnixEndpoint => simp [script, setProxy, setUnixEndpoint, sends_setter]
  | setUserAgent userAgent => exact ⟨(fun sent => by cases sent), fun _ => sends_demanded⟩
  | getVersion =>
    refine Sends.bind ((sends_act (by simp) fun _ => rfl).mpr fun profile => ?_) fun _ _ => sends_pure
    split
    · exact sends_lift
    · exact sends_get fun _ _ => sends_lift
  | restartServer => exact sends_restartServer
  | executeGraphQuery_ | executeGraphQuery | executeGraphQueryRaw =>
    exact sends_executeGraphQuery_.bind fun _ _ => sends_pure
  | cancelAllJobs | deleteAllITLPrograms | callDelete => exact sends_delete
  | deleteAllScenes timeout => exact sends_locked.mpr sends_delete
  | getRunTimeStatuses | getScenePrimaryKeys | getDebugInfos => exact sends_get fun _ _ => sends_calls
  | registerScene_UTF8 | importSceneToCOLLADA_UTF8 =>
    exact Sends.bind (sends_demand.mpr fun _ => sends_post fun _ _ => sends_lift) fun _ _ => sends_pure
  | registerScene_UTF16 => exact sends_registerScene_UTF16.bind fun _ _ => sends_pure
  | importSceneToCOLLADA_UTF16 => exact sends_importSceneToCOLLADA_UTF16.bind fun _ _ => sends_pure
  | syncUpload_UTF8 =>
    refine sends_locked.mpr ?_
    rw [syncUpload_UTF8_eq]
    exact sends_syncUpload fun _ known => known
  | syncUpload_UTF16 sourcefilename destinationdir scenetype wincapsPath listing =>
    refine sends_locked.mpr ?_
    rw [syncUpload_UTF16_eq]
    refine sends_lift_bind.mpr fun destinationdir_utf8 converted => ?_
    exact sends_syncUpload fun _ known => by rwa [operationPlaces, decoded_ok converted]
  | uploadFileToController_UTF8 => exact sends_prepared (sends_uploadFile_place (List.mem_singleton_self _))
  | uploadFileToController_UTF16 =>
    exact sends_prepared_UTF16 fun _ _ => sends_uploadFile_place (List.mem_singleton_self _)
  | uploadDataToController_UTF8 => exact sends_prepared sends_uploadData_place
  | uploadDataToController_UTF16 => exact sends_prepared_UTF16 fun _ _ => sends_uploadData_place
  | uploadDirectoryToController_UTF8 copydir desturi listing =>
    refine sends_prepared ?_
    rw [destination_eq]
    exact sends_uploadDirectory fun _ known => known
  | uploadDirectoryToController_UTF16 copydir desturi listing =>
    refine sends_prepared_UTF16 fun desturi_utf8 converted => ?_
    rw [destination_eq, operationPlaces, decoded_ok converted]
    exact sends_uploadDirectory fun _ known => known
  | downloadFileFromController_UTF8 => exact sends_prepared (sends_getFile.bind fun _ _ => sends_pure)
  | downloadFileFromController_UTF16 desturi =>
    refine sends_prepared_UTF16 fun desturi_utf8 converted => ?_
    rw [operationPlaces, decoded_ok converted]
    exact sends_getFile.bind fun _ _ => sends_pure
  | downloadFileFromControllerIfModifiedSince_UTF8 =>
    exact sends_prepared (sends_downloadFile.bind fun _ _ => sends_pure)
  | downloadFileFromControllerIfModifiedSince_UTF16 desturi localtimeval timeout =>
    refine sends_prepared_UTF16 fun desturi_utf8 converted => ?_
    rw [operationPlaces, decoded_ok converted]
    exact sends_downloadFile.bind fun _ _ => sends_pure
  | getModifiedTime => exact sends_getModifiedTime.bind fun _ _ => sends_pure
  | deleteFileOnController_UTF8 => exact sends_prepared sends_deleteFile_place
  | deleteFileOnController_UTF16 desturi =>
    refine sends_prepared_UTF16 fun desturi_utf8 converted => ?_
    rw [operationPlaces, decoded_ok converted]
    exact sends_deleteFile_place
  | deleteDirectoryOnController_UTF8 => exact sends_prepared sends_deleteDirectory_place
  | deleteDirectoryOnController_UTF16 desturi =>
    refine sends_prepared_UTF16 fun desturi_utf8 converted => ?_
    rw [operationPlaces, decoded_ok converted]
    exact sends_deleteDirectory_place
  | listFilesInController dirname timeout =>
    refine Sends.bind ((sends_callGetValue client).mpr (goesTo_only ?_)) fun _ _ => sends_calls
    simp [getOf, placeText, rootText]
  | saveBackup config media backupscenepks timeout =>
    refine sends_locked.mpr (Sends.bind ((sends_callGetStream client).mpr (goesTo_only ?_)) fun _ _ => sends_pure)
    simp [getOf, placeText, rootText]
  | restoreBackup => exact sends_locked.mpr (sends_uploadFileViaForm (List.append_assoc _ _ _))
  | upgrade => exact sends_upgrade
  | getUpgradeStatus => exact sends_getUpgradeStatus.bind fun _ _ => sends_pure
  | reboot timeout =>
    exact Sends.bind (sends_locked.mpr ((sends_callPostData client).mpr (goesTo_only rfl))) fun _ _ => sends_pure
  | modifySceneAddReferenceObjectPK | modifySceneRemoveReferenceObjectPK =>
    exact Sends.bind (sends_locked.mpr ((sends_callPostData client).mpr (goesTo_only rfl))) fun _ _ => sends_pure
  | callGetValue => exact sends_get fun _ _ => sends_pure
  | callGetString =>
    exact sends_locked.mpr
      (sends_access.mpr (((sends_callGetString client).mpr (goesTo_only rfl)).bind fun _ _ => sends_pure))
  | callGetStream =>
    exact sends_locked.mpr
      (sends_access.mpr (((sends_callGetStream client).mpr (goesTo_only rfl)).bind fun _ _ => sends_pure))
  | callGetVector =>
    exact sends_locked.mpr
      (sends_access.mpr (((sends_callGetVector client).mpr (goesTo_only rfl)).bind fun _ _ => sends_pure))
  | callPost | callPost_UTF8 => exact sends_post fun _ _ => sends_pure
  | callPost_UTF16 => exact sends_callPost_UTF16.bind fun _ _ => sends_pure
  | callPutJSON | callPutSTL =>
    exact Sends.bind ((sends_callPut client).mpr (goesTo_only rfl)) fun _ _ => sends_pure
  | createObjectGeometry | createIkParam | createLink =>
    exact Sends.bind (sends_post fun _ _ => sends_lift) fun _ _ => sends_pure
  | setObjectGeometryMesh =>
    exact Sends.bind (Sends.bind ((sends_callPut client).mpr (goesTo_only rfl)) fun _ _ => sends_lift)
      fun _ _ => sends_pure
  | createLogEntries => exact WrittenText.sends_createLogEntries.mpr fun _ => goesTo_only rfl

section

variable {client} {root : Root} {relative uri : Text} {place made : Place}

theorem destinationPlace_given {desturi : Text} (given : (client.destinationPlace desturi).1 = .given uri) :
    givenUri desturi = some uri := by
  unfold destinationPlace at given
  unfold givenUri
  split at given
  · cases given
  · rename_i other
    cases given
    exact if_neg other

theorem child_root (name : Text) : (child name made).1 = made.root := by cases made <;> rfl

variable {β : Type} [DecidableEq β] {encoding : PathEncoding β}

theorem createdPlaces_root {copydir : List β}
    (known : place ∈ client.createdPlaces encoding copydir root relative) : place.root = root := by
  unfold createdPlaces at known
  rcases List.mem_cons.mp known with rfl | known
  · rfl
  rcases List.mem_cons.mp known with rfl | known
  · split <;> rfl
  · split at known
    · exact List.mem_singleton.mp known ▸ rfl
    · cases known

theorem entriesPlaces_root {listing : Listing β}
    (known : place ∈ client.entriesPlaces encoding made listing) : place.root = made.root := by
  induction listing generalizing made with
  | ended | failed => cases known
  | directory path filename inside rest ihInside ihRest =>
    rcases List.mem_append.mp known with here | later
    · split at here
      · obtain ⟨created, candidate, below⟩ := List.mem_flatMap.mp here
        have same : created.root = made.root := (createdPlaces_root candidate).trans (child_root _)
        rcases List.mem_cons.mp below with rfl | inner
        · exact same
        · exact (ihInside inner).trans same
      · cases here
    · exact ihRest later
  | file path filename rest ih | other filename rest ih => exact ih known

theorem directoryPlaces_root {copydir : List β} {listing : Listing β}
    (known : place ∈ client.directoryPlaces encoding copydir root relative listing) :
    place.root = .base ∨ place.root = root := by
  rcases List.mem_cons.mp known with rfl | below
  · exact .inl rfl
  · obtain ⟨created, candidate, inner⟩ := List.mem_flatMap.mp below
    have same := createdPlaces_root candidate
    rcases List.mem_cons.mp inner with rfl | inner
    · exact .inr same
    · exact .inr ((entriesPlaces_root inner).trans same)

theorem syncUploadPlaces_given {sourcefilename : List β} {destinationdir : Text}
    {wincapsPath : Except Thrown Wide} {listing : Listing β}
    (known : place ∈ client.syncUploadPlaces encoding sourcefilename destinationdir wincapsPath listing)
    (given : place.root = .given uri) :
    givenUri destinationdir = some uri := by
  have directory : ∀ {relative : Text} {copydir : List β},
      place ∈ client.directoryPlaces encoding copydir (client.destinationPlace destinationdir).1 relative listing →
        givenUri destinationdir = some uri := by
    intro relative copydir inside
    rcases directoryPlaces_root inside with base | same
    · simp [base] at given
    · exact destinationPlace_given (same.symm.trans given)
  rcases List.mem_append.mp known with first | below
  · rcases List.mem_cons.mp first with rfl | made
    · cases given
    · obtain ⟨u, -, rfl⟩ := List.mem_map.mp made
      cases given
  · obtain ⟨relative, -, inside⟩ := List.mem_flatMap.mp below
    rcases List.mem_append.mp inside with inside | inside
    · exact directory inside
    · split at inside
      · unfold wincapsPlaces at inside
        split at inside
        · exact directory inside
        · cases inside
      · cases inside

theorem uploadPlaces_given {copydir : List β} {listing : Listing β} {desturi : Text}
    (known : place ∈ client.uploadPlaces encoding copydir listing desturi)
    (given : place.root = .given uri) : givenUri desturi = some uri := by
  rcases directoryPlaces_root known with base | same
  · simp [base] at given
  · exact destinationPlace_given (same.symm.trans given)

theorem filePlace_given {desturi : Text} (known : place ∈ client.filePlace desturi)
    (given : place.root = .given uri) : givenUri desturi = some uri := by
  obtain rfl := List.mem_singleton.mp known
  exact destinationPlace_given given

theorem deletedPlaces_given {desturi : Text} (known : place ∈ client.deletedPlaces desturi)
    (given : place.root = .given uri) : False := by
  obtain ⟨filename, -, rfl⟩ := List.mem_map.mp known
  cases given

theorem decoded_mem {candidates : Text → List Place} {desturi : Wide}
    (known : place ∈ decoded candidates desturi) :
    ∃ desturi_utf8, utf16to8 desturi = .ok desturi_utf8 ∧ place ∈ candidates desturi_utf8 := by
  unfold decoded at known
  split at known
  · rename_i desturi_utf8 converted
    exact ⟨desturi_utf8, converted, known⟩
  · cases known

theorem decoded_given {candidates : Text → List Place} {desturi : Wide}
    (known : place ∈ decoded candidates desturi)
    (each : ∀ desturi_utf8, place ∈ candidates desturi_utf8 → givenUri desturi_utf8 = some uri) :
    givenUri_UTF16 desturi = some uri := by
  obtain ⟨desturi_utf8, converted, inside⟩ := decoded_mem known
  rw [givenUri_UTF16, converted]
  exact each desturi_utf8 inside

/-- A root that is given is the one of the operation. -/
theorem operationPlaces_given {op : Operation} (known : place ∈ client.operationPlaces op)
    (given : place.root = .given uri) : op.givenUri = some uri := by
  cases op with
  | accessor | getBuffer | setCharacterEncoding | setProxy | setUnixEndpoint | setLanguage | setUserAgent
  | setAdditionalHeaders
  | executeGraphSubscription => cases known
  | syncUpload_UTF8 => exact syncUploadPlaces_given known given
  | syncUpload_UTF16 => exact decoded_given known fun _ known => syncUploadPlaces_given known given
  | uploadDirectoryToController_UTF8 => exact uploadPlaces_given known given
  | uploadDirectoryToController_UTF16 => exact decoded_given known fun _ known => uploadPlaces_given known given
  | downloadFileFromController_UTF8 | downloadFileFromControllerIfModifiedSince_UTF8
  | deleteDirectoryOnController_UTF8 =>
    exact filePlace_given known given
  | downloadFileFromController_UTF16 | downloadFileFromControllerIfModifiedSince_UTF16
  | deleteDirectoryOnController_UTF16 =>
    exact decoded_given known fun _ known => filePlace_given known given
  | deleteFileOnController_UTF8 => exact (deletedPlaces_given known given).elim
  | deleteFileOnController_UTF16 =>
    obtain ⟨_, -, inside⟩ := decoded_mem known
    exact (deletedPlaces_given inside given).elim
  | _ =>
    obtain rfl := List.mem_singleton.mp known
    cases given

end

/-- Every operation but one goes to the same places for every base URI. -/
theorem composesUrls (op : Operation) (other : op.isCancel = false) : client.ComposesUrls op := by
  refine ⟨client.operationPlaces op, fun place known uri => operationPlaces_given known, ?_⟩
  intro usernamepassword baseuri options derived made h trace q ran request sent
  have sends := (client.withUris derived).sends_script op other h
  rw [operationPlaces_withUris] at sends
  exact sends_iff.mp sends trace q ran request sent

theorem addressesUpgrade (op : Operation) (other : op.isCancel = false) : client.AddressesUpgrade op := by
  intro upgrade usernamepassword baseuri options derived made h trace q ran request sent
  obtain ⟨place, known, url⟩ :=
    sends_iff.mp ((client.withUris derived).sends_script op other h) trace q ran request sent
  cases op with
  | upgrade autorestart uploadonly timeout =>
    obtain rfl := List.mem_singleton.mp known
    refine ⟨lit "?autorestart=" ++ flagText autorestart ++ lit "&uploadonly=" ++ flagText uploadonly, ?_, ?_⟩
    · rfl
    · rw [url]
      simp [placeText, rootText, withUris]
  | getUpgradeStatus timeout =>
    obtain rfl := List.mem_singleton.mp known
    exact ⟨[], rfl, by rw [url, List.append_nil]; rfl⟩
  | cancelUpgrade timeout => cases other
  | _ => cases upgrade

/-- The base URI of a host whose name is as long as asked for. -/
def longHost (n : Nat) : Text := lit "http" ++ colonSlashSlash ++ List.replicate (n + 1) (byte 'a')

theorem longHost_nulFree (n : Nat) : NulFree (longHost n) :=
  nulFree_append.mpr ⟨by decide, fun zero => absurd (List.eq_of_mem_replicate zero) (by decide)⟩

theorem length_longHost (n : Nat) : (longHost n).length = n + 8 := by
  simp [longHost, lit, colonSlashSlash]

theorem length_webdavRoot_le (baseuri username : Text) (options : BitVec 32) :
    (DerivedUris.webdavRoot baseuri username options).length ≤ baseuri.length + username.length + 4 := by
  have cut : (DerivedUris.cutPort baseuri).length ≤ baseuri.length := by
    unfold DerivedUris.cutPort
    split
    · exact le_rfl
    · exact (List.take_prefix _ _).length_le
  have parts : (lit "/u/").length = 3 ∧ (lit "u/").length = 2 ∧ (lit "/").length = 1 := by decide
  unfold DerivedUris.webdavRoot
  split <;> simp only [List.length_append, parts] <;> omega

theorem longHost_derived (n : Nat) : ∃ derived, DerivedUris.derive (lit "u:p") (longHost n) 0#32 = .ok derived ∧
    derived.baseuri = longHost n ++ [byte '/'] ∧ derived.baseapiuri = longHost n ++ [byte '/'] ++ lit "api/v1/" ∧
    derived.basewebdavuri.length ≤ n + 14 := by
  have nonempty : longHost n ≠ [] := by simp [longHost, colonSlashSlash]
  have user : (upTo (byte ':') (lit "u:p")).length = 1 := by decide
  have last : (longHost n).getLast? ≠ some (byte '/') := by
    have other : byte 'a' ≠ byte '/' := by decide
    simp [longHost, List.getLast?_append, List.getLast?_replicate, other]
  have slashed : trailingSlash (longHost n) = longHost n ++ [byte '/'] := if_pos last
  have host : byte '@' ∉ upTo (byte '/') (List.replicate (n + 1) (byte 'a')) := fun inside =>
    absurd (List.eq_of_mem_replicate ((List.takeWhile_prefix _).subset inside)) (by decide)
  have parsed : ControllerClientInfo.parseURL (cString (longHost n)) =
      .ok (ControllerClientInfo.parseHost .initial (List.replicate (n + 1) (byte 'a'))) := by
    rw [cString_of_nulFree _ (longHost_nulFree n), longHost, ControllerClientInfo.parseURL_scheme (by decide),
      ControllerClientInfo.parseAuthority, if_neg host]
  refine ⟨_, DerivedUris.derive_eq_ok_iff.mpr ⟨⟨nonempty, by decide⟩, _, parsed, rfl⟩, slashed,
    by rw [slashed], ?_⟩
  have bound := length_webdavRoot_le (trailingSlash (longHost n)) (upTo (byte ':') (lit "u:p")) 0#32
  have size : (trailingSlash (longHost n)).length = n + 9 := by
    rw [slashed, List.length_append, length_longHost, List.length_singleton]
  dsimp only
  omega

theorem length_placeText_le (place : Place) :
    (client.placeText place).length ≤ (client.rootText place.root).length + place.relative.length := by
  cases place with
  | under root relative => exact List.length_append.le
  | bare root => exact ((List.dropLast_prefix _).length_le).trans (Nat.le_add_right _ _)

/-- No finite number of relative parts is enough, since the base URI itself is one. -/
theorem cancelUpgrade_nests (timeout : Double) : ¬client.ComposesUrls (.cancelUpgrade timeout) := by
  rintro ⟨places, suits, composes⟩
  obtain ⟨n, bound⟩ := (List.finite_toSet (places.map fun place => place.relative.length)).bddAbove
  obtain ⟨derived, made, base, api, webdav⟩ := longHost_derived n
  have sends := sends_iff.mpr (composes _ _ _ _ made ⟨fun _ => .null, .get⟩)
  obtain ⟨place, known, url⟩ := (sends_callDelete (client.withUris derived)).mp sends
  have relative : place.relative.length ≤ n :=
    bound (Set.mem_ofPred.mpr (List.mem_map.mpr ⟨place, known, rfl⟩))
  have root : ((client.withUris derived).rootText place.root).length ≤ n + 16 := by
    cases same : place.root with
    | base => simp [rootText, withUris, base, length_longHost]
    | api => simp [rootText, withUris, api, length_longHost, lit]
    | webdav => exact webdav.trans (by omega)
    | given uri => cases suits place known uri same
  have text := (client.withUris derived).length_placeText_le place
  have nulFree : NulFree (derived.baseapiuri ++ (derived.baseuri ++ lit "upgrade/")) := by
    have slashed : NulFree (longHost n ++ [byte '/']) := nulFree_append.mpr ⟨longHost_nulFree n, by decide⟩
    rw [base, api]
    exact nulFree_append.mpr ⟨nulFree_append.mpr ⟨slashed, by decide⟩, nulFree_append.mpr ⟨slashed, by decide⟩⟩
  have sent : cString (derived.baseapiuri ++ (derived.baseuri ++ lit "upgrade/")) = cString
      ((client.withUris derived).placeText place) :=
    OptionValue.text.inj url
  have lengths := congrArg List.length sent
  rw [cString_of_nulFree _ nulFree] at lengths
  have cut : (cString ((client.withUris derived).placeText place)).length ≤
      ((client.withUris derived).placeText place).length :=
    (List.takeWhile_prefix _).length_le
  have parts : (lit "api/v1/").length = 7 ∧ (lit "upgrade/").length = 8 := by decide
  simp only [List.length_append, base, api, length_longHost, List.length_singleton, parts] at lengths
  omega

/-- Exactly the operation that cancels an upgrade prepends the API root to a URI. -/
theorem composesUrls_iff (op : Operation) :
    client.ComposesUrls op ∧ client.AddressesUpgrade op ↔ op.isCancel = false := by
  constructor
  · rintro ⟨composes, -⟩
    cases op with
    | cancelUpgrade timeout => exact absurd composes (client.cancelUpgrade_nests timeout)
    | _ => rfl
  · exact fun other => ⟨client.composesUrls op other, client.addressesUpgrade op other⟩

theorem uri_nested :
    ¬∀ (client : ControllerClient) (op : Operation), client.ComposesUrls op ∧ client.AddressesUpgrade op :=
  fun each => (default : ControllerClient).cancelUpgrade_nests defaultTimeout (each default _).1

end ControllerClient

end MujinClient
