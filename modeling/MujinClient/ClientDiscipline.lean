import MujinClient.RequestLedger

/-! Every operation of the client keeps to the lock, to its own transfers and to the options it
sets itself, but for the operations this module names. -/
namespace MujinClient

/-- `DeleteAllScenes` locks and calls `CallDelete`, which locks. -/
def Operation.locksTwice : Operation → Bool
  | .deleteAllScenes _ => true
  | _ => false

/-- The operations that set options, make a request or hand out the buffer without the lock. -/
def Operation.leavesLock : Operation → Bool
  | .setProxy _ _ | .setUnixEndpoint _ | .setUserAgent _ | .listFilesInController _ _ | .getBuffer => true
  | _ => false

/-- The operations that make a transfer without saying where the response goes. -/
def Operation.lacksSink : Operation → Bool
  | .getModifiedTime _ _ | .deleteDirectoryOnController_UTF8 _ => true
  | .deleteDirectoryOnController_UTF16 desturi => (utf16to8 desturi).isOk
  | _ => false

namespace ControllerClient

open Ledger

section

variable {β : Type} [DecidableEq β]

def createsDirectory (client : ControllerClient) (encoding : PathEncoding β) (sourcefilename : List β)
    (destinationdir scenetype : Text) (wincapsPath : Except Thrown Wide) : Bool :=
  ((lit "mujin:/").isPrefixOf destinationdir && !(client.listCreateDirs (destinationdir.drop 7)).isEmpty) ||
    if scenetype = lit "rttoolbox" ∨ scenetype = lit "cecrobodiaxml" then
      !(directoryPart encoding sourcefilename).isEmpty
    else scenetype = lit "wincaps" && match wincapsPath with | .ok path => !path.isEmpty | .error _ => false

end

/-- The operations whose first transfer is a `DELETE` or an `MKCOL`, which selects no kind of request. -/
def inheritsKind (client : ControllerClient) : Operation → Bool
  | .callDelete _ _ _ | .cancelAllJobs | .cancelUpgrade _ | .deleteAllITLPrograms _ | .deleteAllScenes _ => true
  | .deleteDirectoryOnController_UTF8 _ | .deleteDirectoryOnController_UTF16 _ => true
  | .uploadDirectoryToController_UTF8 _ _ _ | .uploadDirectoryToController_UTF16 _ _ _ => true
  | .syncUpload_UTF8 sourcefilename destinationdir scenetype wincapsPath _ =>
    client.createsDirectory utf8Paths sourcefilename destinationdir scenetype wincapsPath
  | .syncUpload_UTF16 sourcefilename destinationdir scenetype wincapsPath _ =>
    match utf16to8 destinationdir with
    | .ok destinationdir_utf8 =>
      client.createsDirectory utf16Paths sourcefilename destinationdir_utf8 scenetype wincapsPath
    | .error _ => false
  | _ => false

def demands (client : ControllerClient) (op : Operation) : Demands :=
  ⟨!op.locksTwice, !op.leavesLock, !op.lacksSink, !client.inheritsKind op⟩

variable {client : ControllerClient} {d : Demands} {L : Ledger}

section

variable (ready : Ready d L)
include ready

theorem respects_reply {reply : Int → Text → Except Thrown α}
    (sinks : d.sink = true → ∀ o ∈ sinkOptions, L.mine o = true)
    (chosen : d.kind = true → L.chosen = true) (cleared : L.reply = true) :
    Respects d Set.univ true L (do
      Request.perform
      let http_code ← Request.infoGetter .responseCode
      let body ← Request.act .readBuffer
      Program.lift (reply http_code body)) := by
  refine respects_perform ready sinks chosen fun ready => ?_
  refine respects_infoGetter ready rfl fun http_code => ?_
  refine respects_readBuffer ready cleared fun body => ?_
  exact respects_lift fun _ => rfl

theorem respects_callGetValue :
    Respects d Set.univ true L (client.callGetValue desturi rResponse expectedhttpcode timeout) := by
  refine respects_saveSetter ready rfl fun ready => ?_
  refine respects_saveSetter ready rfl fun ready => ?_
  refine respects_saveSetter ready rfl fun ready => ?_
  refine respects_clearBuffer ready fun ready => ?_
  refine respects_saveSetter ready rfl fun ready => ?_
  refine respects_saveSetter ready rfl fun ready => ?_
  refine respects_saveSetter ready rfl fun ready => ?_
  exact respects_reply ready (fun _ => sinks_mine (by simp) (by simp) (by simp) (by simp))
    (fun _ => by simp [RequestKind.selects]) rfl

theorem respects_callGetString :
    Respects d Set.univ true L (client.callGetString desturi expectedhttpcode timeout) := by
  refine respects_saveSetter ready rfl fun ready => ?_
  refine respects_saveSetter ready rfl fun ready => ?_
  refine respects_saveSetter ready rfl fun ready => ?_
  refine respects_clearBuffer ready fun ready => ?_
  refine respects_saveSetter ready rfl fun ready => ?_
  refine respects_saveSetter ready rfl fun ready => ?_
  refine respects_saveSetter ready rfl fun ready => ?_
  refine respects_perform ready (fun _ => sinks_mine (by simp) (by simp) (by simp) (by simp))
    (fun _ => by simp [RequestKind.selects])
    fun ready => ?_
  refine respects_infoGetter ready rfl fun http_code => ?_
  refine respects_readBuffer ready rfl fun outputdata => ?_
  refine (respects_lift (by simp)).bind fun code M kept => ?_
  exact respects_returns fun _ => kept.own rfl

theorem respects_callGetStream :
    Respects d Set.univ true L (callGetStream client desturi expectedhttpcode timeout) := by
  refine respects_saveSetter ready rfl fun ready => ?_
  refine respects_saveSetter ready rfl fun ready => ?_
  refine respects_saveSetter ready rfl fun ready => ?_
  refine respects_saveSetter ready rfl fun ready => ?_
  refine respects_saveSetter ready rfl fun ready => ?_
  refine respects_saveSetter ready rfl fun ready => ?_
  refine respects_perform ready (fun _ => sinks_mine (by simp) (by simp) (by simp) (by simp))
    (fun _ => by simp [RequestKind.selects])
    fun ready => ?_
  refine respects_infoGetter ready rfl fun http_code => ?_
  exact respects_lift fun _ => rfl

theorem respects_callGetVector :
    Respects d Set.univ true L (client.callGetVector desturi expectedhttpcode timeout) := by
  refine respects_saveSetter ready rfl fun ready => ?_
  refine respects_saveSetter ready rfl fun ready => ?_
  refine respects_saveSetter ready rfl fun ready => ?_
  refine respects_saveSetter ready rfl fun ready => ?_
  refine respects_saveSetter ready rfl fun ready => ?_
  refine respects_saveSetter ready rfl fun ready => ?_
  refine respects_perform ready (fun _ => sinks_mine (by simp) (by simp) (by simp) (by simp))
    (fun _ => by simp [RequestKind.selects])
    fun ready => ?_
  refine respects_infoGetter ready rfl fun http_code => ?_
  refine respects_readOutput ready (by simp [OptionValue.isOutput]) fun outputdata => ?_
  refine (respects_lift (by simp)).bind fun code M kept => ?_
  exact respects_returns fun _ => kept.own rfl

theorem respects_callPostData :
    Respects d Set.univ true L (client.callPostData desturi data expectedhttpcode timeout) := by
  refine respects_saveSetter ready rfl fun ready => ?_
  refine respects_saveSetter ready rfl fun ready => ?_
  refine respects_saveSetter ready rfl fun ready => ?_
  refine respects_clearBuffer ready fun ready => ?_
  refine respects_saveSetter ready rfl fun ready => ?_
  refine respects_saveSetter ready rfl fun ready => ?_
  refine respects_saveSetter ready rfl fun ready => ?_
  refine respects_saveSetter ready rfl fun ready => ?_
  refine respects_saveSetter ready rfl fun ready => ?_
  exact respects_reply ready (fun _ => sinks_mine (by simp) (by simp) (by simp) (by simp))
    (fun _ => by simp [RequestKind.selects]) rfl

theorem respects_callPostForm :
    Respects d Set.univ true L (client.callPostForm desturi parts expectedhttpcode timeout) := by
  refine respects_saveSetter ready rfl fun ready => ?_
  refine respects_saveSetter ready rfl fun ready => ?_
  refine respects_clearBuffer ready fun ready => ?_
  refine respects_saveSetter ready rfl fun ready => ?_
  refine respects_saveSetter ready rfl fun ready => ?_
  refine respects_saveSetter ready rfl fun ready => ?_
  refine respects_saveSetter ready rfl fun ready => ?_
  exact respects_reply ready (fun _ => sinks_mine (by simp) (by simp) (by simp) (by simp))
    (fun _ => by simp [RequestKind.selects]) rfl

end

section

variable (free : d.lock = true → L.held = false)
include free

theorem callRespects_callPut :
    CallRespects d L (client.callPut relativeuri pdata headers expectedhttpcode timeout) := by
  refine callRespects_locked free fun ready => ?_
  refine respects_saveSetter ready rfl fun ready => ?_
  refine respects_saveSetter ready rfl fun ready => ?_
  refine respects_access ready ?_
  refine respects_saveSetter ready rfl fun ready => ?_
  refine respects_clearBuffer ready fun ready => ?_
  refine respects_saveSetter ready rfl fun ready => ?_
  refine respects_saveSetter ready rfl fun ready => ?_
  refine respects_saveSetter ready rfl fun ready => ?_
  refine respects_saveSetter ready rfl fun ready => ?_
  refine respects_saveSetter ready rfl fun ready => ?_
  exact (respects_reply ready (fun _ => sinks_mine (by simp) (by simp) (by simp) (by simp))
    (fun _ => by simp [RequestKind.selects])
    rfl).forget

theorem callRespects_callDelete (unasked : d.kind = false) :
    CallRespects d L (client.callDelete relativeuri expectedhttpcode timeout) := by
  refine callRespects_locked free fun ready => ?_
  refine respects_saveSetter ready rfl fun ready => ?_
  refine respects_access ready ?_
  refine respects_saveSetter ready rfl fun ready => ?_
  refine respects_saveSetter ready rfl fun ready => ?_
  refine respects_saveSetter ready rfl fun ready => ?_
  refine respects_clearBuffer ready fun ready => ?_
  refine respects_saveSetter ready rfl fun ready => ?_
  refine respects_saveSetter ready rfl fun ready => ?_
  exact (respects_reply ready (fun _ => sinks_mine (by simp) (by simp) (by simp) (by simp))
    (fun asked => by simp [unasked] at asked)
    rfl).forget

end

section

variable (ready : Ready d L)
include ready

/-- The loop keeps the sink its caller has set. -/
theorem respects_makeDirectories (dirs : List Text) (totaluri : Text)
    (sink : d.sink = true → L.mine .writeFunction = true ∧ L.mine .writeData = true)
    (kind : d.kind = true → dirs = []) :
    Respects d {.httpHeader, .url} false L (client.makeDirectories totaluri dirs) := by
  induction dirs generalizing L totaluri with
  | nil => exact respects_returns (by simp)
  | cons dir rest ih =>
    have unasked : d.kind = true → False := fun asked => nomatch kind asked
    refine respects_access ready ?_
    refine Respects.bind ?_ fun _ M kept => ?_
    · refine respects_saveSetter_touching ready rfl (by simp) fun ready => ?_
      refine respects_saveSetter_touching ready rfl (by simp) fun ready => ?_
      refine respects_clearBuffer ready fun ready => ?_
      refine respects_perform ready (fun asked => sinks_mine (by simp) (by simp) ?_ ?_)
        (fun asked => (unasked asked).elim) fun ready => ?_
      · simpa using (sink asked).1
      · simpa using (sink asked).2
      refine respects_infoGetter ready rfl fun http_code => ?_
      exact respects_demand_last (by simp)
    · refine ih (fun asked => kept.held.trans (ready asked)) _ (fun asked => ?_) fun asked => (unasked asked).elim
      exact ⟨kept.mine _ (by simp) (sink asked).1, kept.mine _ (by simp) (sink asked).2⟩

theorem respects_ensureWebDAVDirectories (kind : d.kind = true → client.listCreateDirs relativeuri = []) :
    Respects d Set.univ false L (client.ensureWebDAVDirectories relativeuri timeout) := by
  unfold ensureWebDAVDirectories
  split
  · exact respects_returns (by simp)
  · refine respects_saveSetter ready rfl fun ready => ?_
    refine respects_saveSetter ready rfl fun ready => ?_
    refine respects_saveSetter ready rfl fun ready => ?_
    refine respects_saveSetter ready rfl fun ready => ?_
    exact (respects_makeDirectories ready _ _ (fun _ => by simp) kind).widen (Set.subset_univ _)

omit ready in
theorem respects_contentLength : Respects d Set.univ false L contentLength := by
  refine respects_act trivial (fun _ => rfl) fun ok => respects_demand fun _ => ?_
  refine respects_act trivial (fun _ => rfl) fun length => respects_demand fun _ => ?_
  refine respects_act trivial (fun _ => rfl) fun ok => respects_demand fun _ => ?_
  exact respects_returns (by simp)

theorem respects_uploadFileViaForm :
    Respects d Set.univ false L (client.uploadFileViaForm filename endpoint timeout) := by
  refine respects_contentLength.bind fun length M kept => ?_
  refine respects_saveSetter (fun asked => kept.held.trans (ready asked)) rfl fun ready => ?_
  exact (respects_callPostForm ready).forget.bind fun _ _ _ => respects_returns (by simp)

theorem respects_uploadDataViaForm :
    Respects d Set.univ false L (client.uploadDataViaForm data filename endpoint timeout) :=
  (respects_callPostForm ready).forget.bind fun _ _ _ => respects_returns (by simp)

theorem respects_deleteFile : Respects d Set.univ false L (client.deleteFile desturi) :=
  respects_demand fun _ => (respects_callPostData ready).forget.bind fun _ _ _ => respects_returns (by simp)

theorem respects_deleteDirectory (sinkless : d.sink = false) (unasked : d.kind = false) :
    Respects d Set.univ false L (deleteDirectory desturi) := by
  refine respects_saveSetter ready rfl fun ready => ?_
  refine respects_saveSetter ready rfl fun ready => ?_
  refine respects_saveSetter ready rfl fun ready => ?_
  refine respects_perform ready (fun asked => by simp [sinkless] at asked)
    (fun asked => by simp [unasked] at asked) fun ready => ?_
  exact respects_infoGetter ready rfl fun http_code => respects_returns (by simp)

/-- The file time is asked for after the transfer of the nested request. -/
theorem respects_downloadFile :
    Respects d Set.univ false L (client.downloadFile desturi localtimeval timeout) := by
  refine respects_saveSetter ready rfl fun ready => ?_
  refine respects_saveSetter ready rfl fun ready => ?_
  refine respects_saveSetter ready rfl fun ready => ?_
  refine (respects_callGetVector ready).bind_transferred fun answer M kept own => respects_demand fun _ => ?_
  have ready : Ready d M := fun asked => kept.held.trans (ready asked)
  split
  · exact respects_infoGetter_last ready own
  · exact respects_returns (by simp)

section

variable {β : Type} [DecidableEq β] {encoding : PathEncoding β}

omit [DecidableEq β] in
theorem respects_uploadFile : Respects d Set.univ false L (client.uploadFile encoding filename uri) := by
  refine respects_demand fun _ => (respects_lift (by simp)).bind fun sFilename_FS M kept => ?_
  refine respects_act trivial (fun _ => rfl) fun opened => respects_demand fun _ => ?_
  exact respects_uploadFileViaForm fun asked => kept.held.trans (ready asked)

theorem respects_createAndFill {fill : Text → Request Unit} (unasked : d.kind = false)
    (inside : ∀ uri M, Ready d M → Respects d Set.univ false M (fill uri)) :
    Respects d Set.univ false L (client.createAndFill encoding copydir rawuri fill) := by
  refine (respects_lift (by simp)).bind fun uri M kept => ?_
  have ready : Ready d M := fun asked => kept.held.trans (ready asked)
  refine respects_saveSetter ready rfl fun ready => ?_
  refine respects_saveSetter ready rfl fun ready => ?_
  refine Respects.bind ?_ fun _ N kept => ?_
  · refine respects_saveSetter ready rfl fun ready => ?_
    refine respects_saveSetter ready rfl fun ready => ?_
    refine respects_saveSetter ready rfl fun ready => ?_
    refine respects_perform ready (fun _ => sinks_mine (by simp) (by simp) (by simp) (by simp))
      (fun asked => by simp [unasked] at asked)
      fun ready => ?_
    exact respects_infoGetter ready rfl fun http_code => respects_demand_last (by simp)
  · refine (respects_lift (by simp)).bind fun _ O later => ?_
    exact inside uri O fun asked => later.held.trans (kept.held.trans (ready asked))

/-- Directories nest to any depth; every one of them is entered with the lock held. -/
theorem respects_uploadEntries (unasked : d.kind = false) (listing : Listing β) (uri : Text) :
    Respects d Set.univ false L (client.uploadEntries encoding uri listing) := by
  induction listing generalizing L uri with
  | ended => exact respects_returns (by simp)
  | failed => exact respects_throws
  | directory path filename inside rest inner outer =>
    refine (respects_lift (by simp)).bind fun dirfilename M kept => ?_
    have ready : Ready d M := fun asked => kept.held.trans (ready asked)
    refine (respects_createAndFill ready unasked fun uri N ready => inner ready uri).bind fun _ N kept => ?_
    exact outer (fun asked => kept.held.trans (ready asked)) uri
  | file path filename rest outer =>
    refine (respects_lift (by simp)).bind fun dirfilename M kept => ?_
    have ready : Ready d M := fun asked => kept.held.trans (ready asked)
    refine (respects_uploadFile ready).bind fun _ N kept => ?_
    exact outer (fun asked => kept.held.trans (ready asked)) uri
  | other filename rest outer =>
    refine (respects_lift (by simp)).bind fun dirfilename M kept => ?_
    exact outer (fun asked => kept.held.trans (ready asked)) uri

theorem respects_uploadDirectory (unasked : d.kind = false) :
    Respects d Set.univ false L (client.uploadDirectory encoding copydir rawuri listing) :=
  respects_createAndFill ready unasked fun uri _ ready => respects_uploadEntries ready unasked listing uri

theorem respects_uploadSceneDirectory (kind : d.kind = true → scenetype = lit "wincaps" →
    ∀ path, wincapsPath = .ok path → path = []) :
    Respects d Set.univ false L (client.uploadSceneDirectory encoding sourcefilename baseuploaduri scenetype
      wincapsPath listing) := by
  unfold uploadSceneDirectory
  split
  · rename_i wincaps
    cases wincapsPath with
    | error e => exact respects_throws
    | ok path =>
      show Respects d Set.univ false L
          (client.uploadWincapsDirectory encoding sourcefilename baseuploaduri path listing)
      unfold uploadWincapsDirectory
      split
      · exact respects_returns (by simp)
      · rename_i nonempty
        have unasked : d.kind = false := by
          cases asked : d.kind with
          | false => rfl
          | true => exact absurd (kind asked wincaps path rfl) nonempty
        refine (respects_lift (by simp)).bind fun strWCNURI M kept => ?_
        refine (respects_lift (by simp)).bind fun strWCNPath N later => ?_
        exact respects_uploadDirectory (fun asked => later.held.trans (kept.held.trans (ready asked))) unasked
  · exact respects_returns (by simp)

theorem respects_syncUpload (kind : d.kind = true →
      client.createsDirectory encoding sourcefilename destinationdir scenetype wincapsPath = false) :
    Respects d Set.univ false L
      (client.syncUpload encoding sourcefilename destinationdir scenetype wincapsPath listing) := by
  refine Respects.bind ?_ fun _ M kept => ?_
  · unfold ensureDestination
    split
    · rename_i root
      refine respects_ensureWebDAVDirectories ready fun asked => ?_
      simpa [createsDirectory, root] using (Bool.or_eq_false_iff.mp (kind asked)).1
    · exact respects_returns (by simp)
  · have ready : Ready d M := fun asked => kept.held.trans (ready asked)
    dsimp only
    split
    · rename_i directory
      split
      · rename_i nonempty
        refine respects_uploadDirectory ready ?_
        cases asked : d.kind with
        | false => rfl
        | true =>
          exact absurd
            (by simpa [createsDirectory, directory] using (Bool.or_eq_false_iff.mp (kind asked)).2) nonempty
      · exact respects_returns (by simp)
    · rename_i plain
      refine (respects_uploadSceneDirectory ready fun asked wincaps path known => ?_).bind fun _ N later => ?_
      · have none := (Bool.or_eq_false_iff.mp (kind asked)).2
        rw [if_neg plain] at none
        simpa [wincaps, known] using none
      · refine (respects_lift (by simp)).bind fun base O last => ?_
        exact respects_uploadFile fun asked => last.held.trans (later.held.trans (ready asked))

end

end

theorem respects_stringOf : Respects d Set.univ false L (client.stringOf pt key) := respects_lift (by simp)

theorem respects_logEntriesForm (ready : Ready d L) (logEntries : List LogEntry) :
    Respects d Set.univ false L (client.logEntriesForm logEntries) := by
  induction logEntries generalizing L with
  | nil => exact respects_returns (by simp)
  | cons logEntry logEntries ih =>
    exact respects_access ready ((ih ready).bind fun _ _ _ => respects_returns (by simp))

theorem prepareDestinationURI_lift (client : ControllerClient) (rawuri : Text) (bEnsureSlash bIsDirectory : Bool) :
    ∃ uri, client.prepareDestinationURI rawuri false bEnsureSlash bIsDirectory = pure uri := by
  unfold prepareDestinationURI
  split
  · exact ⟨_, rfl⟩
  · exact ⟨_, rfl⟩

theorem respects_prepareDestinationURI :
    Respects d Set.univ false L (client.prepareDestinationURI rawuri false bEnsureSlash bIsDirectory) := by
  obtain ⟨uri, prepared⟩ := prepareDestinationURI_lift client rawuri bEnsureSlash bIsDirectory
  rw [prepared]
  exact respects_returns (by simp)

theorem respects_prepareDestinationURI_UTF16 :
    Respects d Set.univ false L (client.prepareDestinationURI_UTF16 rawuri false bEnsureSlash bIsDirectory) :=
  (respects_lift (by simp)).bind fun _ _ _ => respects_prepareDestinationURI

section

variable (free : d.lock = true → L.held = false)
include free

theorem callRespects_stringOf : CallRespects d L (client.stringOf pt key) := callRespects_lift free

theorem callRespects_callGet : CallRespects d L (client.callGet relativeuri pt expectedhttpcode timeout) :=
  callRespects_locked free fun ready => respects_access ready (respects_callGetValue ready).forget

theorem callRespects_callPost : CallRespects d L (client.callPost relativeuri data expectedhttpcode timeout) :=
  callRespects_locked free fun ready => respects_access ready (respects_callPostData ready).forget

theorem callRespects_callPost_UTF16 :
    CallRespects d L (client.callPost_UTF16 relativeuri data expectedhttpcode timeout) :=
  (callRespects_lift free).bind fun _ _ free => callRespects_callPost free

theorem callRespects_getVersion : CallRespects d L client.getVersion := by
  refine callRespects_act trivial (fun _ => rfl) fun profile => ?_
  split
  · exact callRespects_stringOf free
  · exact (callRespects_callGet free).bind fun _ _ free => callRespects_stringOf free

theorem callRespects_restartServer : CallRespects d L (client.restartServer timeout) := by
  refine callRespects_locked free fun ready => ?_
  refine respects_saveSetter ready rfl fun ready => ?_
  refine respects_access ready ?_
  refine respects_saveSetter ready rfl fun ready => ?_
  refine respects_saveSetter ready rfl fun ready => ?_
  refine respects_saveSetter ready rfl fun ready => ?_
  refine respects_clearBuffer ready fun ready => ?_
  refine respects_saveSetter ready rfl fun ready => ?_
  refine respects_saveSetter ready rfl fun ready => ?_
  refine respects_perform ready (fun _ => sinks_mine (by simp) (by simp) (by simp) (by simp))
    (fun _ => by simp [RequestKind.selects])
    fun ready => ?_
  exact respects_infoGetter ready rfl fun http_code => respects_demand_last (by simp)

theorem callRespects_executeGraphQuery_ :
    CallRespects d L (client.executeGraphQuery_ operationName query rVariables timeout checkForErrors
      returnRawResponse) := by
  refine CallRespects.bind ?_ fun _ M free => callRespects_lift free
  refine callRespects_locked free fun ready => ?_
  exact respects_access ready (respects_access ready (respects_callPostData ready).forget)

theorem callRespects_getRunTimeStatuses {options : Int} : CallRespects d L (client.getRunTimeStatuses options) :=
  (callRespects_callGet free).bind fun _ _ free => callRespects_calls free

theorem callRespects_getScenePrimaryKeys : CallRespects d L client.getScenePrimaryKeys :=
  (callRespects_callGet free).bind fun _ _ free => callRespects_calls free

theorem callRespects_registerScene_UTF8 : CallRespects d L (client.registerScene_UTF8 uri scenetype) :=
  callRespects_demand free <| (callRespects_callPost free).bind fun _ _ free => callRespects_stringOf free

theorem callRespects_registerScene_UTF16 : CallRespects d L (client.registerScene_UTF16 uri scenetype) :=
  callRespects_demand free <| (callRespects_callPost_UTF16 free).bind fun _ _ free => callRespects_stringOf free

theorem callRespects_importSceneToCOLLADA_UTF8 :
    CallRespects d L (client.importSceneToCOLLADA_UTF8 importuri importformat newuri overwrite) :=
  callRespects_demand free <| (callRespects_callPost free).bind fun _ _ free => callRespects_stringOf free

theorem callRespects_importSceneToCOLLADA_UTF16 :
    CallRespects d L (client.importSceneToCOLLADA_UTF16 importuri importformat newuri overwrite) :=
  callRespects_demand free <| (callRespects_callPost_UTF16 free).bind fun _ _ free => callRespects_stringOf free

theorem callRespects_createObjectGeometry :
    CallRespects d L (client.createObjectGeometry objectPk geometryName linkPk geomtype timeout) :=
  (callRespects_callPost free).bind fun _ _ free => callRespects_stringOf free

theorem callRespects_createIkParam : CallRespects d L (client.createIkParam objectPk name iktype timeout) :=
  (callRespects_callPost free).bind fun _ _ free => callRespects_stringOf free

theorem callRespects_createLink {quaternion translate : List Double} :
    CallRespects d L (client.createLink objectPk parentlinkPk name quaternion translate timeout) :=
  (callRespects_callPost free).bind fun _ _ free => callRespects_stringOf free

theorem callRespects_setObjectGeometryMesh :
    CallRespects d L (client.setObjectGeometryMesh objectPk geometryPk meshData unit timeout) :=
  (callRespects_callPut free).bind fun _ _ free => callRespects_stringOf free

theorem callRespects_getDebugInfos : CallRespects d L (client.getDebugInfos timeout) :=
  (callRespects_callGet free).bind fun _ _ free => callRespects_calls free

theorem callRespects_modifySceneReferenceObjectPK :
    CallRespects d L (client.modifySceneReferenceObjectPK path scenepk referenceobjectpk timeout) :=
  (callRespects_locked free fun ready => (respects_callPostData ready).forget).bind fun _ _ free =>
    callRespects_returns free

theorem callRespects_createLogEntries : CallRespects d L (client.createLogEntries logEntries timeout) := by
  unfold createLogEntries
  split
  · exact callRespects_returns free
  · refine callRespects_locked free fun ready => ?_
    refine (respects_logEntriesForm ready logEntries).bind fun formpost M kept => ?_
    have ready : Ready d M := fun asked => kept.held.trans (ready asked)
    refine respects_access ready ((respects_callPostForm ready).forget.bind fun _ _ _ => respects_lift (by simp))

theorem callRespects_getModifiedTime (sinkless : d.sink = false) :
    CallRespects d L (client.getModifiedTime uri) := by
  refine callRespects_locked free fun ready => ?_
  refine respects_saveSetter ready rfl fun ready => ?_
  refine respects_saveSetter ready rfl fun ready => ?_
  refine respects_saveSetter ready rfl fun ready => ?_
  refine respects_saveSetter ready rfl fun ready => ?_
  refine respects_perform ready (fun asked => by simp [sinkless] at asked)
    (fun _ => by simp [RequestKind.selects]) fun ready => ?_
  refine respects_infoGetter ready rfl fun http_code => respects_demand fun _ => ?_
  exact respects_infoGetter_last ready rfl

theorem callRespects_listFilesInController (unasked : d.mutex = false) :
    CallRespects d L (client.listFilesInController dirname timeout) := by
  have ready : Ready d L := fun asked => by simp [unasked] at asked
  exact ((respects_callGetValue ready).call free).bind fun _ _ free => callRespects_calls free

theorem callRespects_saveBackup : CallRespects d L (client.saveBackup config media backupscenepks timeout) :=
  callRespects_locked free fun ready => (respects_callGetStream ready).forget.bind fun _ _ _ =>
    respects_returns (by simp)

theorem callRespects_restoreBackup : CallRespects d L (client.restoreBackup config media timeout) :=
  callRespects_locked free fun ready => respects_uploadFileViaForm ready

theorem callRespects_upgrade : CallRespects d L (client.upgrade autorestart uploadonly timeout) := by
  refine callRespects_locked free fun ready => respects_contentLength.bind fun length M kept => ?_
  have ready : Ready d M := fun asked => kept.held.trans (ready asked)
  split
  · exact respects_uploadFileViaForm ready
  · exact (respects_callPostData ready).forget.bind fun _ _ _ => respects_returns (by simp)

theorem callRespects_getUpgradeStatus : CallRespects d L (client.getUpgradeStatus timeout) := by
  refine callRespects_locked free fun ready => (respects_callGetValue ready).forget.bind fun ⟨code, pt⟩ M
    kept => ?_
  dsimp only
  split
  · exact respects_returns (by simp)
  · refine respects_stringOf.bind fun _ N later => ?_
    exact respects_calls.bind fun _ _ _ => respects_returns (by simp)

theorem callRespects_reboot : CallRespects d L (client.reboot timeout) :=
  (callRespects_locked free fun ready => (respects_callPostData ready).forget).bind fun _ _ free =>
    callRespects_returns free

theorem callRespects_setProxy (unasked : d.mutex = false) : CallRespects d L (setProxy serverport userpw) := by
  unfold setProxy
  have ready : Ready d L := fun asked => by simp [unasked] at asked
  refine callRespects_setter free .unixSocketPath ready rfl fun free ready => ?_
  refine callRespects_setter free .proxy ready rfl fun free ready => ?_
  refine callRespects_setter free .proxyUserPwd ready rfl fun free ready => ?_
  exact callRespects_locked free fun _ => respects_calls

theorem callRespects_setUnixEndpoint (unasked : d.mutex = false) :
    CallRespects d L (setUnixEndpoint unixendpoint) := by
  unfold setUnixEndpoint
  have ready : Ready d L := fun asked => by simp [unasked] at asked
  refine callRespects_setter free .proxy ready rfl fun free ready => ?_
  refine callRespects_setter free .proxyUserPwd ready rfl fun free ready => ?_
  refine callRespects_setter free .unixSocketPath ready rfl fun free ready => ?_
  exact callRespects_locked free fun _ => respects_calls

theorem callRespects_setUserAgent (unasked : d.mutex = false) : CallRespects d L (setUserAgent userAgent) := by
  unfold setUserAgent
  have ready : Ready d L := fun asked => by simp [unasked] at asked
  exact callRespects_setter_last free ready rfl

end

/-- A file operation: the destination is prepared with the lock held. -/
theorem callRespects_prepared (free : d.lock = true → L.held = false) {f : Text → Request α}
    (inside : ∀ uri M, Ready d M → Respects d Set.univ false M (f uri)) : CallRespects d L (Request.locked do
      f (← client.prepareDestinationURI rawuri false bEnsureSlash bIsDirectory)) :=
  callRespects_locked free fun ready => respects_prepareDestinationURI.bind fun uri M kept =>
    inside uri M fun asked => kept.held.trans (ready asked)

theorem callRespects_prepared_UTF16 (free : d.lock = true → L.held = false) {f : Text → Request α}
    (inside : ∀ uri M, Ready d M → Respects d Set.univ false M (f uri)) : CallRespects d L (Request.locked do
      f (← client.prepareDestinationURI_UTF16 rawuri false bEnsureSlash bIsDirectory)) :=
  callRespects_locked free fun ready => respects_prepareDestinationURI_UTF16.bind fun uri M kept =>
    inside uri M fun asked => kept.held.trans (ready asked)

theorem respects_uploadData (ready : Ready d L) : Respects d Set.univ false L (client.uploadData data desturi) :=
  respects_demand fun _ => respects_uploadDataViaForm ready

/-- Every operation does what is asked of it. -/
theorem script_respects (client : ControllerClient) (op : Operation) (options : CurlOption → OptionValue) :
    CallRespects (client.demands op) (Ledger.start options) (client.script op) := by
  have free : (client.demands op).lock = true → (Ledger.start options).held = false := fun _ => rfl
  cases op with
  | accessor name => exact callRespects_calls free
  | getBuffer => exact callRespects_access free rfl
  | getVersion => exact (callRespects_getVersion free).drop
  | setCharacterEncoding | setLanguage | setAdditionalHeaders | executeGraphSubscription =>
    exact callRespects_locked free fun _ => respects_calls
  | setProxy serverport userpw => exact callRespects_setProxy free rfl
  | setUnixEndpoint unixendpoint => exact callRespects_setUnixEndpoint free rfl
  | setUserAgent userAgent => exact callRespects_setUserAgent free rfl
  | restartServer timeout => exact callRespects_restartServer free
  | executeGraphQuery_ | executeGraphQuery | executeGraphQueryRaw =>
    exact (callRespects_executeGraphQuery_ free).drop
  | cancelAllJobs | cancelUpgrade | deleteAllITLPrograms | callDelete => exact callRespects_callDelete free rfl
  | deleteAllScenes timeout =>
    exact callRespects_locked_again rfl (callRespects_callDelete (by simp [demands, Operation.locksTwice]) rfl)
  | getRunTimeStatuses options => exact callRespects_getRunTimeStatuses free
  | getScenePrimaryKeys => exact callRespects_getScenePrimaryKeys free
  | registerScene_UTF8 uri scenetype => exact (callRespects_registerScene_UTF8 free).drop
  | registerScene_UTF16 uri scenetype => exact (callRespects_registerScene_UTF16 free).drop
  | importSceneToCOLLADA_UTF8 => exact (callRespects_importSceneToCOLLADA_UTF8 free).drop
  | importSceneToCOLLADA_UTF16 => exact (callRespects_importSceneToCOLLADA_UTF16 free).drop
  | syncUpload_UTF8 sourcefilename destinationdir scenetype wincapsPath listing =>
    refine callRespects_locked free fun ready => ?_
    rw [syncUpload_UTF8_eq]
    refine respects_syncUpload ready fun asked => ?_
    simpa [demands, inheritsKind] using asked
  | syncUpload_UTF16 sourcefilename destinationdir scenetype wincapsPath listing =>
    refine callRespects_locked free fun ready => ?_
    rw [syncUpload_UTF16_eq]
    cases converted : utf16to8 destinationdir with
    | error e => exact respects_throws
    | ok destinationdir_utf8 =>
      refine respects_syncUpload ready fun asked => ?_
      simpa [demands, inheritsKind, converted] using asked
  | uploadFileToController_UTF8 => exact callRespects_prepared free fun _ _ ready => respects_uploadFile ready
  | uploadFileToController_UTF16 =>
    exact callRespects_prepared_UTF16 free fun _ _ ready => respects_uploadFile ready
  | uploadDataToController_UTF8 => exact callRespects_prepared free fun _ _ ready => respects_uploadData ready
  | uploadDataToController_UTF16 =>
    exact callRespects_prepared_UTF16 free fun _ _ ready => respects_uploadData ready
  | uploadDirectoryToController_UTF8 =>
    exact callRespects_prepared free fun _ _ ready => respects_uploadDirectory ready rfl
  | uploadDirectoryToController_UTF16 =>
    exact callRespects_prepared_UTF16 free fun _ _ ready => respects_uploadDirectory ready rfl
  | downloadFileFromController_UTF8 =>
    exact callRespects_prepared free fun _ _ ready => (respects_callGetVector ready).drop
  | downloadFileFromController_UTF16 =>
    exact callRespects_prepared_UTF16 free fun _ _ ready => (respects_callGetVector ready).drop
  | downloadFileFromControllerIfModifiedSince_UTF8 =>
    exact callRespects_prepared free fun _ _ ready => (respects_downloadFile ready).drop
  | downloadFileFromControllerIfModifiedSince_UTF16 =>
    exact callRespects_prepared_UTF16 free fun _ _ ready => (respects_downloadFile ready).drop
  | getModifiedTime uri timeout => exact (callRespects_getModifiedTime free rfl).drop
  | deleteFileOnController_UTF8 => exact callRespects_prepared free fun _ _ ready => respects_deleteFile ready
  | deleteFileOnController_UTF16 =>
    exact callRespects_prepared_UTF16 free fun _ _ ready => respects_deleteFile ready
  | deleteDirectoryOnController_UTF8 =>
    exact callRespects_prepared free fun _ _ ready => respects_deleteDirectory ready rfl rfl
  | deleteDirectoryOnController_UTF16 desturi =>
    refine callRespects_locked free fun ready => ?_
    cases converted : utf16to8 desturi with
    | error e =>
      have prepared : client.prepareDestinationURI_UTF16 desturi false false true = Program.throws e := by
        simp [prepareDestinationURI_UTF16, converted, Program.lift, bind, Program.bind]
      rw [prepared]
      exact respects_throws
    | ok desturi_utf8 =>
      have sinkless : (client.demands (.deleteDirectoryOnController_UTF16 desturi)).sink = false := by
        simp [demands, Operation.lacksSink, converted, Except.isOk, Except.toBool]
      exact respects_prepareDestinationURI_UTF16.bind fun uri M kept =>
        respects_deleteDirectory (fun asked => kept.held.trans (ready asked)) sinkless rfl
  | listFilesInController => exact callRespects_listFilesInController free rfl
  | saveBackup => exact callRespects_saveBackup free
  | restoreBackup => exact callRespects_restoreBackup free
  | upgrade => exact callRespects_upgrade free
  | getUpgradeStatus => exact (callRespects_getUpgradeStatus free).drop
  | reboot => exact callRespects_reboot free
  | modifySceneAddReferenceObjectPK | modifySceneRemoveReferenceObjectPK =>
    exact callRespects_modifySceneReferenceObjectPK free
  | callGetValue => exact (callRespects_callGet free).drop
  | callGetString =>
    exact callRespects_locked free fun ready => respects_access ready (respects_callGetString ready).drop
  | callGetStream =>
    exact callRespects_locked free fun ready => respects_access ready (respects_callGetStream ready).drop
  | callGetVector =>
    exact callRespects_locked free fun ready => respects_access ready (respects_callGetVector ready).drop
  | callPost | callPost_UTF8 => exact (callRespects_callPost free).drop
  | callPost_UTF16 => exact (callRespects_callPost_UTF16 free).drop
  | callPutJSON | callPutSTL => exact (callRespects_callPut free).drop
  | createObjectGeometry => exact (callRespects_createObjectGeometry free).drop
  | createIkParam => exact (callRespects_createIkParam free).drop
  | createLink => exact (callRespects_createLink free).drop
  | setObjectGeometryMesh => exact (callRespects_setObjectGeometryMesh free).drop
  | getDebugInfos => exact callRespects_getDebugInfos free
  | createLogEntries => exact (callRespects_createLogEntries free).drop

end ControllerClient
end MujinClient
