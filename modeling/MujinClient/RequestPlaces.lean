import MujinClient.DerivedUris
import MujinClient.FileTransfers
import MujinClient.PathSegments

/-! Places under the roots of a client. A request goes to one of them, and those of an operation are the
same whatever the client is made for. -/
namespace MujinClient

open Request

inductive Root where
  | base | api | webdav
  /-- The URI that the caller gives. -/
  | given (uri : Text)
  deriving DecidableEq

inductive Place where
  | under (root : Root) (relative : Text)
  /-- The root without the slash at its end. -/
  | bare (root : Root)
  deriving DecidableEq

namespace Place

def root : Place → Root
  | under root _ | bare root => root

def relative : Place → Text
  | under _ relative => relative
  | bare _ => []

end Place

namespace ControllerClient

/-- The client as its constructor makes it for a base URI. -/
def withUris (client : ControllerClient) (derived : DerivedUris) : ControllerClient :=
  { client with
    baseuri := derived.baseuri
    baseapiuri := derived.baseapiuri
    basewebdavuri := derived.basewebdavuri }

variable (client : ControllerClient)

def rootText : Root → Text
  | .base => client.baseuri
  | .api => client.baseapiuri
  | .webdav => client.basewebdavuri
  | .given uri => uri

def placeText : Place → Text
  | .under root relative => client.rootText root ++ relative
  | .bare root => (client.rootText root).dropLast

def GoesTo (places : List Place) (request : SentRequest) : Prop :=
  ∃ place ∈ places, request.url = .text (cString (client.placeText place))

end ControllerClient

/-- The destination of an operation that is a URI of its own. -/
def givenUri (desturi : Text) : Option Text := if (lit "mujin:/").isPrefixOf desturi then none else some desturi

def givenUri_UTF16 (desturi : Wide) : Option Text := (utf16to8 desturi).toOption.bind givenUri

namespace Operation

def givenUri : Operation → Option Text
  | syncUpload_UTF8 _ desturi _ _ _ | uploadDirectoryToController_UTF8 _ desturi _
      | downloadFileFromController_UTF8 desturi
  | downloadFileFromControllerIfModifiedSince_UTF8 desturi _ _ | deleteDirectoryOnController_UTF8 desturi =>
    MujinClient.givenUri desturi
  | syncUpload_UTF16 _ desturi _ _ _ | uploadDirectoryToController_UTF16 _ desturi _
  | downloadFileFromController_UTF16 desturi
  | downloadFileFromControllerIfModifiedSince_UTF16 desturi _ _ | deleteDirectoryOnController_UTF16 desturi =>
    givenUri_UTF16 desturi
  | _ => none

def isUpgrade : Operation → Bool
  | upgrade _ _ _ | getUpgradeStatus _ | cancelUpgrade _ => true
  | _ => false

def isCancel : Operation → Bool
  | cancelUpgrade _ => true
  | _ => false

end Operation

namespace ControllerClient

variable (client : ControllerClient) (op : Operation)

/-- For every base URI the requests go to the same places under the roots of the client. Only a URI that
the operation is given stands for a root itself. -/
def ComposesUrls : Prop :=
  ∃ places : List Place, (∀ place ∈ places, ∀ uri, place.root = .given uri → op.givenUri = some uri) ∧
    ∀ usernamepassword baseuri options derived, DerivedUris.derive usernamepassword baseuri options = .ok derived →
      ∀ (h : CurlHandle) trace q, ((client.withUris derived).script op).Reaches trace q →
        ∀ request ∈ h.requests trace, (client.withUris derived).GoesTo places request

/-- The requests of the operations that are about upgrades go to one resource of the server. -/
def AddressesUpgrade : Prop := op.isUpgrade →
  ∀ usernamepassword baseuri options derived, DerivedUris.derive usernamepassword baseuri options = .ok derived →
    ∀ (h : CurlHandle) trace q, ((client.withUris derived).script op).Reaches trace q →
      ∀ request ∈ h.requests trace, ∃ query, upTo (byte '?') query = [] ∧
        request.url = .text (cString (derived.baseuri ++ lit "upgrade/" ++ query))

end ControllerClient

section

variable {α β : Type} {ok : SentRequest → Prop} {h : CurlHandle} {f : β → Request α}

@[simp] theorem sends_lift_bind {r : Except Thrown β} :
    Sends ok h (Program.lift r >>= f) ↔ ∀ x, r = .ok x → Sends ok h (f x) := by
  cases r with
  | error e => exact iff_of_true trivial fun x impossible => by cases impossible
  | ok x => exact ⟨fun rest y same => Except.ok.inj same ▸ rest, fun each => each x rfl⟩

@[simp] theorem sends_calls : Sends ok h calls :=
  (sends_act (by simp) fun _ => rfl).mpr fun answer => by cases answer <;> trivial

@[simp] theorem sends_demanded {b : Bool} {e : Thrown} : Sends ok h (demand b e) := by cases b <;> trivial

end

namespace ControllerClient

variable (client : ControllerClient) {ok : SentRequest → Prop} {h : CurlHandle} {desturi : Text}
    {expectedhttpcode : Int} {timeout : Double}

def getOf (h : CurlHandle) (desturi : Text) : SentRequest :=
  ⟨.get, h.options .customRequest, .text (cString desturi), []⟩

theorem sends_callGetValue {pt : Json} :
    Sends ok h (client.callGetValue desturi pt expectedhttpcode timeout) ↔ ok (getOf h desturi) := by
  simp only [callGetValue, sends_saveSetter, sends_clearBuffer]
  rw [sends_reply fun _ _ => sends_read (by simp) fun _ _ => sends_lift]
  simp [CurlHandle.sends, CurlHandle.setopt, RequestKind.after, getOf]

theorem sends_callGetString :
    Sends ok h (client.callGetString desturi expectedhttpcode timeout) ↔ ok (getOf h desturi) := by
  simp only [callGetString, sends_saveSetter, sends_clearBuffer]
  rw [sends_reply fun _ _ => sends_read (by simp) fun _ _ => Sends.bind sends_lift fun _ _ => sends_pure]
  simp [CurlHandle.sends, CurlHandle.setopt, RequestKind.after, getOf]

theorem sends_callGetStream :
    Sends ok h (client.callGetStream desturi expectedhttpcode timeout) ↔ ok (getOf h desturi) := by
  simp only [callGetStream, sends_saveSetter]
  rw [sends_reply fun _ _ => sends_lift]
  simp [CurlHandle.sends, CurlHandle.setopt, RequestKind.after, getOf]

/-- The kind of the request is the one before. -/
theorem sends_callDelete {relativeuri : Text} :
    Sends ok h (client.callDelete relativeuri expectedhttpcode timeout) ↔
    ok ⟨h.kind, .text (lit "DELETE"), .text (cString (client.baseapiuri ++ relativeuri)), h.sends.body⟩ := by
  simp only [callDelete, sends_locked, sends_saveSetter, sends_access, sends_clearBuffer]
  rw [sends_reply fun _ _ => sends_read (by simp) fun _ _ => sends_lift]
  simp [CurlHandle.sends, CurlHandle.setopt, RequestKind.after]

/-- The root that a destination stands for, and what comes after it. -/
def destinationPlace (desturi : Text) : Root × Text :=
  if (lit "mujin:/").isPrefixOf desturi then (.webdav, client.encodeWithoutSeparator (desturi.drop 7))
  else (.given desturi, [])

section

variable {β : Type} [DecidableEq β] (encoding : PathEncoding β)

/-- Where an upload of a directory may create one: in the directory, as the directory or as the directory
without its slash. -/
def createdPlaces (copydir : List β) (root : Root) (relative : Text) : List Place :=
  .under root relative :: (if relative = [] then .bare root else .under root relative.dropLast) ::
    match encoding.toUtf8 (baseFilename encoding.filesep copydir) with
    | .ok name => [.under root (relative ++ client.escapeString name)]
    | .error _ => []

def child (name : Text) : Place → Root × Text
  | .under root relative => (root, relative ++ byte '/' :: name)
  | .bare root => (root, name)

def entriesPlaces (made : Place) : Listing β → List Place
  | .ended | .failed => []
  | .directory path filename inside rest =>
    (match encoding.toUtf8 filename with
    | .ok name =>
      let inner := child (client.escapeString name) made
      (client.createdPlaces encoding path inner.1 inner.2).flatMap fun place => place :: entriesPlaces place inside
    | .error _ => []) ++ entriesPlaces made rest
  | .file _ _ rest | .other _ rest => entriesPlaces made rest

def directoryPlaces (copydir : List β) (root : Root) (relative : Text) (listing : Listing β) : List Place :=
  .under .base (lit "fileupload") ::
    (client.createdPlaces encoding copydir root relative).flatMap fun place =>
      place :: client.entriesPlaces encoding place listing

def wincapsPlaces (sourcefilename : List β) (root : Root) (relative : Text) (strWCNPath_utf16 : Wide)
    (listing : Listing β) : List Place :=
  match utf16to8 strWCNPath_utf16, encoding.ofUtf16 strWCNPath_utf16 with
  | .ok strWCNURI, .ok strWCNPath => client.directoryPlaces encoding
      (directoryPart encoding sourcefilename ++ upToLastBackslash encoding.backslash encoding.filesep
        strWCNPath) root
      (relative ++ client.encodeWithoutSeparator (upToLastBackslash (byte '\\') (byte '/') strWCNURI)) listing
  | _, _ => []

def syncUploadPlaces (sourcefilename : List β) (destinationdir : Text) (wincapsPath : Except Thrown Wide)
    (listing : Listing β) : List Place :=
  let destination := client.destinationPlace destinationdir
  .under .base (lit "fileupload") :: (totalUris [] (client.listCreateDirs (destinationdir.drop 7))).map
    (.under .webdav) ++
    [destination.2, destination.2 ++ [byte '/']].flatMap fun relative =>
      client.directoryPlaces encoding (directoryPart encoding sourcefilename) destination.1 relative listing ++
        match wincapsPath with
        | .ok strWCNPath => client.wincapsPlaces encoding sourcefilename destination.1 relative strWCNPath listing
        | .error _ => []

end

variable {client} {places : List Place}

theorem goesTo_of {place : Place} {request : SentRequest} (known : place ∈ places)
    (url : request.url = .text (cString (client.placeText place))) : client.GoesTo places request :=
  ⟨place, known, url⟩

theorem destination_eq (desturi : Text) : client.destination desturi =
    client.rootText (client.destinationPlace desturi).1 ++ (client.destinationPlace desturi).2 := by
  unfold destination destinationPlace
  split
  · rfl
  · exact (List.append_nil _).symm

theorem ensureSlash_eq (client : ControllerClient) (root : Root) (relative : Text) :
    ∃ slashed ∈ [relative, relative ++ [byte '/']],
    ensureSlash (client.rootText root ++ relative) = client.rootText root ++ slashed := by
  unfold ensureSlash
  split
  · exact ⟨_, by simp, List.append_assoc _ _ _⟩
  · exact ⟨_, by simp, rfl⟩

/-- A root that a place is without the slash of has one. -/
def Slashed (client : ControllerClient) (place : Place) : Prop :=
  ∀ root, place = .bare root → (client.rootText root).getLast? = some (byte '/')

theorem child_text {place : Place} (slashed : client.Slashed place) (name : Text) :
    client.placeText place ++ byte '/' :: name =
    client.rootText (child name place).1 ++ (child name place).2 := by
  cases place with
  | under root relative => simp [placeText, child]
  | bare root =>
    obtain ⟨front, same⟩ := List.getLast?_eq_some_iff.mp (slashed root rfl)
    simp [placeText, child, same]

section

variable {β : Type} [DecidableEq β] {encoding : PathEncoding β} {h : CurlHandle}

/-- What `_UploadDirectoryToController` creates is at one of the places. -/
theorem uploadedDirectory_place {copydir : List β} {root : Root} {relative uri : Text}
    (created : client.uploadedDirectory encoding copydir (client.rootText root ++ relative) = .ok uri) :
    ∃ place ∈ client.createdPlaces encoding copydir root relative, uri = client.placeText place ∧
      client.Slashed place := by
  unfold uploadedDirectory at created
  split at created
  · cases created
  · split at created
    · rename_i slash
      split at created
      · cases named : encoding.toUtf8 (baseFilename encoding.filesep copydir) with
        | error e =>
          rw [named] at created
          cases created
        | ok name =>
          rw [named] at created
          cases created
          refine ⟨.under root (relative ++ client.escapeString name), ?_, List.append_assoc _ _ _, nofun⟩
          simp [createdPlaces, named]
      · cases created
        by_cases empty : relative = []
        · subst empty
          rw [List.append_nil] at slash
          refine ⟨.bare root, by simp [createdPlaces], by rw [List.append_nil]; rfl, fun other same => ?_⟩
          cases same
          exact slash
        · refine ⟨.under root relative.dropLast, by simp [createdPlaces, empty],
            List.dropLast_append_of_ne_nil empty, nofun⟩
    · split at created
      · cases shown : encoding.toUtf8 copydir with
        | error e =>
          rw [shown] at created
          cases created
        | ok text =>
          rw [shown] at created
          cases created
      · cases created
        exact ⟨.under root relative, List.mem_cons_self, rfl, nofun⟩

theorem sends_makeDirectories (dirs : List Text) (totaluri : Text)
    (known : ∀ u ∈ totalUris totaluri dirs, Place.under .webdav u ∈ places) :
    Sends (client.GoesTo places) h (client.makeDirectories totaluri dirs) := by
  induction dirs generalizing h totaluri with
  | nil => exact sends_pure
  | cons dir rest ih =>
    obtain ⟨here, later⟩ := List.forall_mem_cons.mp known
    refine sends_access.mpr (Sends.bind ?_ fun _ g => ih _ later)
    rw [sends_saveSetter, sends_saveSetter, sends_clearBuffer, sends_reply fun _ _ => sends_demanded]
    exact goesTo_of here (by simp [CurlHandle.sends, CurlHandle.setopt, placeText, rootText])

theorem sends_ensureDestination {destinationdir : Text}
    (known : ∀ u ∈ totalUris [] (client.listCreateDirs (destinationdir.drop 7)), Place.under .webdav u ∈ places) :
    Sends (client.GoesTo places) h (client.ensureDestination destinationdir) := by
  unfold ensureDestination ensureWebDAVDirectories
  split
  · split
    · exact sends_pure
    · simp only [sends_saveSetter]
      exact sends_makeDirectories _ _ known
  · exact sends_pure

omit [DecidableEq β] in
theorem sends_uploadFile_place (known : Place.under .base (lit "fileupload") ∈ places) {filename : List β}
    {uri : Text} :
    Sends (client.GoesTo places) h (client.uploadFile encoding filename uri) := by
  unfold uploadFile
  refine sends_demand.mpr fun _ => sends_lift_bind.mpr fun _ _ => (sends_act (by simp) fun _ => rfl).mpr
    fun _ => sends_demand.mpr fun _ => ?_
  rw [uploadFileViaForm, sends_contentLength]
  intro length
  rw [sends_saveSetter, sends_bind fun _ _ => sends_pure, sends_callPostForm]
  exact goesTo_of known rfl

/-- A directory is made at a place, and it is filled where it was made. -/
theorem sends_createAndFill {copydir : List β} {root : Root} {relative : Text} {fill : Text → Request Unit}
    (known : ∀ place ∈ client.createdPlaces encoding copydir root relative, place ∈ places)
    (inside : ∀ place ∈ client.createdPlaces encoding copydir root relative, client.Slashed place →
      ∀ g, Sends (client.GoesTo places) g (fill (client.placeText place))) :
    Sends (client.GoesTo places) h
      (client.createAndFill encoding copydir (client.rootText root ++ relative) fill) := by
  refine sends_lift_bind.mpr fun uri created => ?_
  obtain ⟨place, candidate, rfl, slashed⟩ := uploadedDirectory_place created
  rw [sends_saveSetter, sends_saveSetter]
  refine Sends.bind ?_ fun _ g => sends_lift_bind.mpr fun _ _ => inside place candidate slashed g
  rw [sends_saveSetter, sends_saveSetter, sends_saveSetter, sends_reply fun _ _ => sends_demanded]
  exact goesTo_of (known place candidate) (by simp [CurlHandle.sends, CurlHandle.setopt])

/-- By induction on what the directory holds on disk. -/
theorem sends_uploadEntries (listing : Listing β) {made : Place} (slashed : client.Slashed made)
    (files : Place.under .base (lit "fileupload") ∈ places)
    (known : ∀ place ∈ client.entriesPlaces encoding made listing, place ∈ places) :
    Sends (client.GoesTo places) h (client.uploadEntries encoding (client.placeText made) listing) := by
  induction listing generalizing h made with
  | ended => exact sends_pure
  | failed => exact sends_throws
  | directory path filename inside rest ihInside ihRest =>
    rw [entriesPlaces, List.forall_mem_append] at known
    refine sends_lift_bind.mpr fun name converted => ?_
    simp only [converted, List.mem_flatMap, List.mem_cons] at known
    rw [child_text slashed]
    refine Sends.bind ?_ fun _ g => ihRest slashed known.2
    refine sends_createAndFill (fun place candidate => known.1 place ⟨place, candidate, .inl rfl⟩)
      fun place candidate slashed g => ?_
    exact ihInside slashed fun inner below => known.1 inner ⟨place, candidate, .inr below⟩
  | file path filename rest ih =>
    refine sends_lift_bind.mpr fun name converted => (sends_uploadFile_place files).bind fun _ g => ?_
    exact ih slashed known
  | other filename rest ih => exact sends_lift_bind.mpr fun name converted => ih slashed known

theorem sends_uploadDirectory {copydir : List β} {root : Root} {relative : Text} {listing : Listing β}
    (known : ∀ place ∈ client.directoryPlaces encoding copydir root relative listing, place ∈ places) :
    Sends (client.GoesTo places) h
      (client.uploadDirectory encoding copydir (client.rootText root ++ relative) listing) := by
  obtain ⟨files, below⟩ := List.forall_mem_cons.mp known
  simp only [List.mem_flatMap, List.mem_cons] at below
  refine sends_createAndFill (fun place candidate => below place ⟨place, candidate, .inl rfl⟩)
    fun place candidate slashed g => ?_
  exact sends_uploadEntries listing slashed files fun inner inside => below inner ⟨place, candidate, .inr inside⟩

theorem sends_uploadWincapsDirectory {sourcefilename : List β} {root : Root} {relative : Text}
    {strWCNPath_utf16 : Wide} {listing : Listing β}
    (known : ∀ place ∈ client.wincapsPlaces encoding sourcefilename root relative strWCNPath_utf16 listing,
      place ∈ places) :
    Sends (client.GoesTo places) h
      (client.uploadWincapsDirectory encoding sourcefilename (client.rootText root ++ relative)
        strWCNPath_utf16 listing) := by
  unfold uploadWincapsDirectory
  split
  · exact sends_pure
  · refine sends_lift_bind.mpr fun strWCNURI uri => sends_lift_bind.mpr fun strWCNPath path => ?_
    simp only [wincapsPlaces, uri, path] at known
    rw [List.append_assoc]
    exact sends_uploadDirectory known

/-- The directory of the scene is uploaded in front of its file. -/
theorem sends_syncUpload {sourcefilename : List β} {destinationdir scenetype : Text}
    {wincapsPath : Except Thrown Wide} {listing : Listing β}
    (known : ∀ place ∈ client.syncUploadPlaces encoding sourcefilename destinationdir wincapsPath listing,
      place ∈ places) :
    Sends (client.GoesTo places) h
      (client.syncUpload encoding sourcefilename destinationdir scenetype wincapsPath listing) := by
  obtain ⟨first, below⟩ := List.forall_mem_append.mp known
  obtain ⟨files, directories⟩ := List.forall_mem_cons.mp first
  obtain ⟨relative, candidate, slashed⟩ := ensureSlash_eq client (client.destinationPlace destinationdir).1
    (client.destinationPlace destinationdir).2
  have inner : ∀ place ∈ client.directoryPlaces encoding (directoryPart encoding sourcefilename)
      (client.destinationPlace destinationdir).1 relative listing, place ∈ places := fun place inside =>
    below place (List.mem_flatMap.mpr ⟨relative, candidate, List.mem_append_left _ inside⟩)
  have wincaps : ∀ path, wincapsPath = .ok path → ∀ place ∈ client.wincapsPlaces encoding sourcefilename
      (client.destinationPlace destinationdir).1 relative path listing, place ∈ places := by
    rintro path rfl place inside
    exact below place (List.mem_flatMap.mpr ⟨relative, candidate, List.mem_append_right _ inside⟩)
  rw [← destination_eq, destination] at slashed
  unfold syncUpload
  refine Sends.bind (sends_ensureDestination fun u made => directories _ (List.mem_map_of_mem made)) fun _ g => ?_
  dsimp only
  rw [slashed]
  split
  · split
    · exact sends_uploadDirectory inner
    · exact sends_pure
  · refine Sends.bind ?_ fun _ g => sends_lift_bind.mpr fun _ _ => sends_uploadFile_place files
    unfold uploadSceneDirectory
    split
    · exact sends_lift_bind.mpr fun path found => sends_uploadWincapsDirectory (wincaps path found)
    · exact sends_pure

end

variable (client)

/-- The place of an operation on one file, behind the root that its destination stands for. -/
def filePlace (desturi : Text) : List Place :=
  [.under (client.destinationPlace desturi).1 (client.destinationPlace desturi).2]

/-- A caller gives the webdav root itself where the destination is a URI. What is behind it ends the
destination. -/
def deletedPlaces (desturi : Text) : List Place :=
  (if (lit "mujin:/").isPrefixOf desturi then [client.encodeWithoutSeparator (desturi.drop 7)] else
    desturi.tails).map fun filename =>
    .under .base (lit "file/delete/?filename=" ++ filename)

def decoded (places : Text → List Place) (desturi : Wide) : List Place :=
  match utf16to8 desturi with
  | .ok desturi => places desturi
  | .error _ => []

def uploadPlaces (encoding : PathEncoding β) [DecidableEq β] (copydir : List β) (listing : Listing β)
    (desturi : Text) : List Place :=
  client.directoryPlaces encoding copydir (client.destinationPlace desturi).1
    (client.destinationPlace desturi).2 listing

def operationPlaces : Operation → List Place
  | .accessor _ | .getBuffer | .setCharacterEncoding _ | .setProxy _ _ | .setUnixEndpoint _ | .setLanguage _
      | .setUserAgent _
  | .setAdditionalHeaders _ | .executeGraphSubscription _ _ _ => []
  | .getVersion => [.under .api (lit "profile/")]
  | .restartServer _ => [.under .base (lit "restartserver/")]
  | .executeGraphQuery_ _ _ _ _ _ _ | .executeGraphQuery _ _ _ _ | .executeGraphQueryRaw _ _ _ _ =>
    [.under .base (lit "api/v2/graphql")]
  | .cancelAllJobs => [.under .api (lit "job/?format=json")]
  | .getRunTimeStatuses options =>
    [.under .api (lit "job/?format=json&fields=pk,status,fnname,elapsedtime" ++
      (if options % 2 = 1 then lit ",status_text" else []))]
  | .getScenePrimaryKeys => [.under .api (lit "scene/?format=json&limit=0&fields=pk")]
  | .registerScene_UTF8 _ _ | .registerScene_UTF16 _ _ => [.under .api (lit "scene/?format=json&fields=pk")]
  | .importSceneToCOLLADA_UTF8 _ _ _ overwrite | .importSceneToCOLLADA_UTF16 _ _ _ overwrite =>
    [.under .api (importUri overwrite)]
  | .syncUpload_UTF8 sourcefilename destinationdir _ wincapsPath listing =>
    client.syncUploadPlaces utf8Paths sourcefilename destinationdir wincapsPath listing
  | .syncUpload_UTF16 sourcefilename destinationdir _ wincapsPath listing =>
    decoded (client.syncUploadPlaces utf16Paths sourcefilename · wincapsPath listing) destinationdir
  | .uploadFileToController_UTF8 _ _ | .uploadFileToController_UTF16 _ _ | .uploadDataToController_UTF8 _ _
  | .uploadDataToController_UTF16 _ _ => [.under .base (lit "fileupload")]
  | .uploadDirectoryToController_UTF8 copydir desturi listing =>
    client.uploadPlaces utf8Paths copydir listing desturi
  | .uploadDirectoryToController_UTF16 copydir desturi listing =>
    decoded (client.uploadPlaces utf16Paths copydir listing) desturi
  | .downloadFileFromController_UTF8 desturi | .downloadFileFromControllerIfModifiedSince_UTF8 desturi _ _
  | .deleteDirectoryOnController_UTF8 desturi => client.filePlace desturi
  | .downloadFileFromController_UTF16 desturi | .downloadFileFromControllerIfModifiedSince_UTF16 desturi _ _
  | .deleteDirectoryOnController_UTF16 desturi => decoded client.filePlace desturi
  | .getModifiedTime uri _ => [.under .base (lit "file/download/?filename=" ++
      (if (lit "mujin:/").isPrefixOf uri then client.encodeWithoutSeparator (uri.drop 7) else []))]
  | .deleteFileOnController_UTF8 desturi => client.deletedPlaces desturi
  | .deleteFileOnController_UTF16 desturi => decoded client.deletedPlaces desturi
  | .listFilesInController dirname _ => [.under .base (lit "file/list/?dirname=" ++ dirname)]
  | .saveBackup config media backupscenepks _ =>
    [.under .base (lit "backup/" ++ (lit "?config=" ++ boolText config ++
      lit "&media=" ++ boolText media ++ lit "&backupscenepks=" ++ backupscenepks))]
  | .restoreBackup config media _ =>
    [.under .base (lit "backup/" ++ (lit "?config=" ++ boolText config ++ lit "&media=" ++ boolText media))]
  | .upgrade autorestart uploadonly _ =>
    [.under .base (lit "upgrade/" ++ (lit "?autorestart=" ++ flagText autorestart ++
      lit "&uploadonly=" ++ flagText uploadonly))]
  | .getUpgradeStatus _ | .cancelUpgrade _ => [.under .base (lit "upgrade/")]
  | .reboot _ => [.under .base (lit "reboot/")]
  | .deleteAllScenes _ => [.under .api (lit "scene/")]
  | .deleteAllITLPrograms _ => [.under .api (lit "itl/")]
  | .modifySceneAddReferenceObjectPK _ _ _ => [.under .base (lit "referenceobjectpks/add/")]
  | .modifySceneRemoveReferenceObjectPK _ _ _ => [.under .base (lit "referenceobjectpks/remove/")]
  | .callGetValue relativeuri _ _ _ | .callGetString relativeuri _ _ | .callGetStream relativeuri _ _
  | .callGetVector relativeuri _ _
  | .callPost relativeuri _ _ _ | .callPost_UTF8 relativeuri _ _ _ | .callPost_UTF16 relativeuri _ _ _
  | .callPutJSON relativeuri _ _ _ | .callPutSTL relativeuri _ _ _ | .callDelete relativeuri _ _ =>
    [.under .api relativeuri]
  | .createObjectGeometry objectPk _ _ _ _ => [.under .api (lit "object/" ++ objectPk ++ lit "/geometry/")]
  | .createIkParam objectPk _ _ _ => [.under .api (lit "object/" ++ objectPk ++ lit "/ikparam/")]
  | .createLink objectPk _ _ _ _ _ => [.under .api (lit "object/" ++ objectPk ++ lit "/link/")]
  | .setObjectGeometryMesh objectPk geometryPk _ unit _ =>
    [.under .api (lit "object/" ++ objectPk ++ lit "/geometry/" ++ geometryPk ++ lit "/?unit=" ++ unit)]
  | .getDebugInfos _ => [.under .api (lit "debug/?format=json&limit=0")]
  | .createLogEntries _ _ => [.under .base (lit "api/v2/logEntry")]

section

variable (derived : DerivedUris)

theorem encodeFrom_withUris (current raw : Text) :
    (client.withUris derived).encodeFrom current raw = client.encodeFrom current raw := by
  induction raw generalizing current with
  | nil => rfl
  | cons c raw ih =>
    simp only [encodeFrom, ih]
    rfl

theorem createDirsFrom_withUris (current relativeuri : Text) :
    (client.withUris derived).createDirsFrom current relativeuri = client.createDirsFrom current relativeuri := by
  induction relativeuri generalizing current with
  | nil => rfl
  | cons c relativeuri ih =>
    simp only [createDirsFrom, ih]
    rfl

theorem encodeWithoutSeparator_withUris (raw : Text) :
    (client.withUris derived).encodeWithoutSeparator raw = client.encodeWithoutSeparator raw :=
  client.encodeFrom_withUris derived [] raw

theorem destinationPlace_withUris (desturi : Text) :
    (client.withUris derived).destinationPlace desturi = client.destinationPlace desturi := by
  simp only [destinationPlace, encodeWithoutSeparator_withUris]

variable {β : Type} [DecidableEq β] (encoding : PathEncoding β)

theorem entriesPlaces_withUris (listing : Listing β) (made : Place) :
    (client.withUris derived).entriesPlaces encoding made listing = client.entriesPlaces encoding made
      listing := by
  induction listing generalizing made with
  | ended | failed => rfl
  | directory path filename inside rest ihInside ihRest =>
    simp only [entriesPlaces, ihInside, ihRest]
    rfl
  | file path filename rest ih | other filename rest ih => exact ih made

theorem directoryPlaces_withUris (copydir : List β) (root : Root) (relative : Text) (listing : Listing β) :
    (client.withUris derived).directoryPlaces encoding copydir root relative listing =
      client.directoryPlaces encoding copydir root relative listing := by
  simp only [directoryPlaces, entriesPlaces_withUris]
  rfl

theorem syncUploadPlaces_withUris (sourcefilename : List β) (destinationdir : Text)
    (wincapsPath : Except Thrown Wide) (listing : Listing β) :
    (client.withUris derived).syncUploadPlaces encoding sourcefilename destinationdir wincapsPath listing =
      client.syncUploadPlaces encoding sourcefilename destinationdir wincapsPath listing := by
  simp only [syncUploadPlaces, wincapsPlaces, listCreateDirs, createDirsFrom_withUris, destinationPlace_withUris,
    directoryPlaces_withUris, encodeWithoutSeparator_withUris]

theorem uploadPlaces_withUris (copydir : List β) (listing : Listing β) :
    (client.withUris derived).uploadPlaces encoding copydir listing = client.uploadPlaces encoding copydir
      listing := by
  funext desturi
  simp only [uploadPlaces, destinationPlace_withUris, directoryPlaces_withUris]

theorem filePlace_withUris : (client.withUris derived).filePlace = client.filePlace := by
  funext desturi
  simp only [filePlace, destinationPlace_withUris]

theorem deletedPlaces_withUris : (client.withUris derived).deletedPlaces = client.deletedPlaces := by
  funext desturi
  simp only [deletedPlaces, encodeWithoutSeparator_withUris]

theorem operationPlaces_withUris (op : Operation) :
    (client.withUris derived).operationPlaces op = client.operationPlaces op := by
  unfold operationPlaces
  simp only [syncUploadPlaces_withUris, uploadPlaces_withUris, filePlace_withUris, deletedPlaces_withUris,
    encodeWithoutSeparator_withUris]

end

end ControllerClient

end MujinClient
