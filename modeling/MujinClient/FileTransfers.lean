import MujinClient.SentRequests

/-! Files on the controller: which file a request names, and what a download gives back of an
upload. -/
namespace MujinClient

inductive FileOperation where
  | uploadFile (filename : Text)
  | uploadData (data : Text)
  | deleteFile
  | deleteDirectory

def FileOperation.call (desturi : Text) : FileOperation → Operation
  | .uploadFile filename => .uploadFileToController_UTF8 filename desturi
  | .uploadData data => .uploadDataToController_UTF8 data desturi
  | .deleteFile => .deleteFileOnController_UTF8 desturi
  | .deleteDirectory => .deleteDirectoryOnController_UTF8 desturi

/-- The text that a form has in its field `filename`. A form without the field names nothing. -/
def formFilename (parts : List FormPart) : Text :=
  match parts.find? (·.name = lit "filename") with
  | some ⟨_, _, _, .bytes t⟩ => t
  | _ => []

theorem formFilename_fileParts (filename : Text) (contents : FormContents) :
    formFilename (ControllerClient.fileParts filename contents) = cString filename := by
  have other : lit "files[]" ≠ lit "filename" := by decide
  by_cases named : filename = []
  · subst named
    simp [formFilename, ControllerClient.fileParts, other, cString]
  · simp [formFilename, ControllerClient.fileParts, other, named]

namespace ControllerClient

open Request

variable (client : ControllerClient)

def destination (desturi : Text) : Text :=
  if (lit "mujin:/").isPrefixOf desturi then client.basewebdavuri ++ client.encodeWithoutSeparator
    (desturi.drop 7) else desturi

def remainder (desturi : Text) : Text := (client.destination desturi).drop client.basewebdavuri.length

def Names (remainder : Text) (request : SentRequest) : FileOperation → Prop
  | .uploadFile _ | .uploadData _ => ∃ parts, request.body = [.form parts] ∧ formFilename parts = remainder
  | .deleteFile => request.url = .text (client.baseuri ++ lit "file/delete/?filename=" ++ remainder)
  | .deleteDirectory =>
    request.url = .text (client.basewebdavuri ++ remainder) ∧ request.verb = .text (lit "DELETE")

def NamesDestination (op : FileOperation) (desturi : Text) (request : SentRequest) : Prop :=
  ∃ remainder, client.destination desturi = client.basewebdavuri ++ remainder ∧ client.Names remainder request op

/-- On every run the requests are for the file that the destination names, and only a call that
throws sends none. -/
def Addresses (op : FileOperation) (desturi : Text) : Prop := ∀ (h : CurlHandle) trace q,
  (client.script (op.call desturi)).Reaches trace q →
    (∀ request ∈ h.requests trace, client.NamesDestination op desturi request) ∧
    (q = .returns () → h.requests trace ≠ [])

/-- What an operation does not check: that the destination is under the root at all, and that no
zero byte cuts its name. -/
def Checked (desturi : Text) : FileOperation → Prop
  | .uploadFile _ => client.basewebdavuri <+: client.destination desturi → NulFree (client.remainder desturi)
  | .uploadData _ => client.basewebdavuri.length ≤ (client.destination desturi).length →
      client.basewebdavuri <+: client.destination desturi ∧ NulFree (client.remainder desturi)
  | .deleteFile => client.basewebdavuri <+: client.destination desturi →
      NulFree client.baseuri ∧ NulFree (client.remainder desturi)
  | .deleteDirectory => client.basewebdavuri <+: client.destination desturi ∧ NulFree (client.destination desturi)

variable {client} {op : FileOperation} {desturi : Text} {h : CurlHandle} {ok : SentRequest → Prop}

theorem prepareDestinationURI_destination (bIsDirectory : Bool) :
    client.prepareDestinationURI desturi false false bIsDirectory = pure (client.destination desturi) := by
  unfold prepareDestinationURI destination
  split <;> rfl

theorem destination_remainder (under : client.basewebdavuri <+: client.destination desturi) :
    client.basewebdavuri ++ client.remainder desturi = client.destination desturi := by
  obtain ⟨rest, shape⟩ := under
  rw [remainder, ← shape, List.drop_left]

theorem namesDestination_iff {request : SentRequest} : client.NamesDestination op desturi request ↔
    client.basewebdavuri <+: client.destination desturi ∧ client.Names (client.remainder desturi) request op := by
  constructor
  · rintro ⟨rest, shape, names⟩
    refine ⟨⟨rest, shape.symm⟩, ?_⟩
    rwa [remainder, shape, List.drop_left]
  · rintro ⟨under, names⟩
    exact ⟨_, (destination_remainder under).symm, names⟩

theorem sends_uploadFile {filename : Text} :
    Sends ok h (client.script (.uploadFileToController_UTF8 filename desturi)) ↔
    (client.basewebdavuri <+: client.destination desturi → ∀ length,
      ok (formOf (h.setopt .readFunction (.function .readIStream))
      (client.baseuri ++ lit "fileupload") (fileParts (client.remainder desturi) (.stream length)))) := by
  rw [script, sends_locked, prepareDestinationURI_destination]
  show Sends ok h (client.uploadFile utf8Paths filename (client.destination desturi)) ↔ _
  rw [uploadFile, sends_demand, List.isPrefixOf_iff_prefix]
  refine imp_congr_right fun _ => ?_
  show Sends ok h (do
    demand (← act (.openFile (cString filename))) _
    client.uploadFileViaForm (client.remainder desturi) _ _) ↔ _
  rw [sends_act (by simp) fun _ => rfl]
  simp only [sends_demand, forall_eq, uploadFileViaForm, sends_contentLength, sends_saveSetter]
  exact forall_congr' fun length => (sends_bind fun _ _ => sends_pure).trans (sends_callPostForm client)

theorem sends_uploadData {data : Text} : Sends ok h (client.script (.uploadDataToController_UTF8 data desturi)) ↔
    (client.basewebdavuri.length ≤ (client.destination desturi).length →
      ok (formOf h (client.baseuri ++ lit "fileupload")
        (fileParts (client.remainder desturi) (.bufferPtr data)))) := by
  rw [script, sends_locked, prepareDestinationURI_destination]
  show Sends ok h (client.uploadData data (client.destination desturi)) ↔ _
  rw [uploadData, sends_demand, decide_eq_true_iff]
  exact imp_congr_right fun _ => (sends_bind fun _ _ => sends_pure).trans (sends_callPostForm client)

theorem sends_deleteFile : Sends ok h (client.script (.deleteFileOnController_UTF8 desturi)) ↔
    (client.basewebdavuri <+: client.destination desturi →
      ok (postOf h (client.baseuri ++ lit "file/delete/?filename=" ++ client.remainder desturi) [])) := by
  rw [script, sends_locked, prepareDestinationURI_destination]
  show Sends ok h (client.deleteFile (client.destination desturi)) ↔ _
  rw [deleteFile, sends_demand, List.isPrefixOf_iff_prefix]
  exact imp_congr_right fun _ => (sends_bind fun _ _ => sends_pure).trans (sends_callPostData client)

theorem sends_deleteDirectory : Sends ok h (client.script (.deleteDirectoryOnController_UTF8 desturi)) ↔
    ok ⟨h.kind, .text (lit "DELETE"), .text (cString (client.destination desturi)), h.sends.body⟩ := by
  rw [script, sends_locked, prepareDestinationURI_destination]
  show Sends ok h (deleteDirectory (client.destination desturi)) ↔ _
  simp only [deleteDirectory, sends_saveSetter]
  rw [sends_reply fun _ _ => sends_pure]
  simp [CurlHandle.sends, CurlHandle.setopt, RequestKind.after]

theorem finishes_call :
    Finishes (fun _ s => s.requested = true) ⟨false, []⟩ (client.script (op.call desturi)) := by
  cases op with
  | uploadFile filename =>
    rw [FileOperation.call, script, prepareDestinationURI_destination]
    refine .locked <| .demand <| .acts fun _ => .demand <| .contentLength fun length => .saveSetter <| ?_
    exact (finishes_callPostForm client).bind fun _ _ sent => finishes_returns sent
  | uploadData data =>
    rw [FileOperation.call, script, prepareDestinationURI_destination]
    exact .locked <| .demand <| (finishes_callPostForm client).bind fun _ _ sent => finishes_returns sent
  | deleteFile =>
    rw [FileOperation.call, script, prepareDestinationURI_destination]
    exact .locked <| .demand <| (finishes_callPostData client).bind fun _ _ sent => finishes_returns sent
  | deleteDirectory =>
    rw [FileOperation.call, script, prepareDestinationURI_destination]
    exact .locked <| .saveSetter <| .saveSetter <| .saveSetter <| .perform <| .infoGetter fun _ =>
      finishes_returns rfl

theorem names_form {h : CurlHandle} {desturi filename remainder : Text} {contents : FormContents} :
    (∃ parts, (formOf h desturi (fileParts filename contents)).body = [.form parts] ∧
      formFilename parts = remainder) ↔
      cString filename = remainder := by
  constructor
  · rintro ⟨parts, body, named⟩
    simp only [formOf, List.cons.injEq, OptionValue.form.injEq, and_true] at body
    rw [← body, formFilename_fileParts] at named
    exact named
  · intro same
    exact ⟨_, rfl, (formFilename_fileParts ..).trans same⟩

/-- What is sent is for the named file exactly where the destination passes. -/
theorem sends_names_iff :
    Sends (client.NamesDestination op desturi) h (client.script (op.call desturi)) ↔
      client.Checked desturi op := by
  cases op with
  | uploadFile filename =>
    rw [FileOperation.call, sends_uploadFile, Checked]
    refine imp_congr_right fun under => ?_
    simp only [namesDestination_iff, under, true_and]
    exact (forall_congr' fun _ => names_form.trans (cString_eq_self_iff _)).trans (forall_const Int)
  | uploadData data =>
    rw [FileOperation.call, sends_uploadData, Checked]
    refine imp_congr_right fun _ => namesDestination_iff.trans (and_congr_right fun _ => ?_)
    exact names_form.trans (cString_eq_self_iff _)
  | deleteFile =>
    rw [FileOperation.call, sends_deleteFile, Checked]
    refine imp_congr_right fun under => namesDestination_iff.trans ((and_iff_right under).trans ?_)
    have endpoint : NulFree (lit "file/delete/?filename=") := by decide
    simp only [Names, postOf, OptionValue.text.injEq, cString_eq_self_iff, nulFree_append, endpoint, and_true]
  | deleteDirectory =>
    rw [FileOperation.call, sends_deleteDirectory, Checked, namesDestination_iff]
    refine and_congr_right fun under => ?_
    simp [Names, destination_remainder under, cString_eq_self_iff]

theorem addresses_iff_sends : client.Addresses op desturi ↔
    ∀ h, Sends (client.NamesDestination op desturi) h (client.script (op.call desturi)) := by
  constructor
  · intro addresses h
    exact sends_iff.mpr fun trace q ran => (addresses h trace q ran).1
  · intro sends h trace q ran
    refine ⟨sends_iff.mp (sends h) trace q ran, fun returned => ?_⟩
    subst returned
    simpa using requests_of_requested h (finishes_call.returned ran)

/-- An operation addresses the file that its destination names, exactly where the destination is
checked or passes by itself. -/
theorem addresses_iff (client : ControllerClient) (op : FileOperation) (desturi : Text) :
    client.Addresses op desturi ↔ client.Checked desturi op :=
  addresses_iff_sends.trans ⟨fun sends => sends_names_iff.mp (sends ⟨fun _ => .null, .get⟩),
    fun checked _ => sends_names_iff.mpr checked⟩

/-- A directory of another server is deleted. -/
theorem deleteDirectory_outside :
    ¬∀ (client : ControllerClient) (op : FileOperation) (desturi : Text), client.Addresses op desturi := by
  intro addresses
  let client : ControllerClient :=
    { (default : ControllerClient) with basewebdavuri := lit "http://controller/u/mujin/" }
  have sends :=
    addresses_iff_sends.mp (addresses client .deleteDirectory (lit "http://other/data"))
      ⟨fun _ => .null, .get⟩
  exact absurd (sends_names_iff.mp sends).1 (by decide)

end ControllerClient

/-- What a part of a form contains. `behind` is the memory after the buffer up to a zero byte. -/
def FormContents.sent (behind : Text) : FormContents → Option Text
  | .stream _ => none
  | .bytes t => some t
  | .bufferPtr data => some (cString (data ++ (behind ++ [0])))

def SentRequest.file (behind : Text) (request : SentRequest) : Option (Text × Text) :=
  match request.body with
  | [.form parts] =>
    match parts.find? (·.name = lit "files[]") with
    | some part => (part.contents.sent behind).map fun content => (formFilename parts, content)
    | none => none
  | _ => none

def writeVectorCallback (writerData data : Text) : Text := writerData ++ data

theorem writeVectorCallback_chunks (chunks : List Text) (writerData : Text) :
    chunks.foldl writeVectorCallback writerData = writerData ++ chunks.flatten := by
  induction chunks generalizing writerData with
  | nil => simp
  | cons chunk chunks ih => simp [writeVectorCallback, ih]

/-- Every transfer of the call gets the file that is stored at its URL, in chunks of any sizes. -/
def Served (files : Text → Option Text) (h : CurlHandle) (trace : List ClientEvent) : Prop :=
  ∀ request ∈ h.requests trace, ∀ url body, request.url = .text url → files url = some body →
    ∀ vector, (⟨.readOutput, vector⟩ : ClientEvent) ∈ trace →
      ∃ chunks : List Text, chunks.flatten = body ∧ vector = chunks.foldl writeVectorCallback []

/-- A text before other bytes is read as it is if it has no zero byte and the next byte is zero. -/
theorem cString_append_eq_iff {t u : Text} : cString (t ++ u) = t ↔ NulFree t ∧ cString u = [] := by
  by_cases nulFree : NulFree t
  · have same := cString_of_nulFree t nulFree
    unfold cString at same
    rw [cString, List.takeWhile_append, same, if_pos rfl, cString]
    simp [nulFree]
  · simp only [nulFree, false_and, iff_false]
    intro same
    exact nulFree (same ▸ cString_nulFree _)

namespace ControllerClient

open Request

variable {client : ControllerClient} {data behind desturi : Text} {h : CurlHandle} {ok : SentRequest → Prop}

def downloadFileFromController (client : ControllerClient) (desturi : Text) : Request (Int × Text) :=
  locked do
  client.callGetVector (← client.prepareDestinationURI desturi false false false) 200 defaultTimeout

/-- Every upload of the data carries exactly the data, and if it is stored under its name, every
download gives it back. -/
def RoundTrips (client : ControllerClient) (data behind desturi : Text) : Prop := ∀ (h : CurlHandle) trace q,
  (client.script (.uploadDataToController_UTF8 data desturi)).Reaches trace q → ∀ request ∈ h.requests trace,
    ∃ name, request.file behind = some (name, data) ∧
      ∀ (files : Text → Option Text) (g : CurlHandle) reads x,
        (client.downloadFileFromController desturi).Reaches reads (.returns x) →
        Served (Function.update files (client.basewebdavuri ++ name) (some data)) g reads → x.2 = data

theorem file_formOf {filename url : Text} : (formOf h url (fileParts filename (.bufferPtr data))).file behind =
    some (cString filename, cString (data ++ (behind ++ [0]))) := by
  rw [← formFilename_fileParts filename (.bufferPtr data)]
  simp [SentRequest.file, formOf, fileParts, FormContents.sent]

theorem sends_download : Sends ok h (client.downloadFileFromController desturi) ↔
    ok ⟨.get, h.options .customRequest, .text (cString (client.destination desturi)), []⟩ := by
  rw [downloadFileFromController, sends_locked, prepareDestinationURI_destination]
  exact sends_callGetVector client

theorem finishes_download : Finishes (fun x s => s.requested = true ∧ x.2 ∈ s.outputs) ⟨false, []⟩
    (client.downloadFileFromController desturi) := by
  rw [downloadFileFromController, prepareDestinationURI_destination]
  exact .locked (finishes_callGetVector client)

theorem download_served {files : Text → Option Text} {reads : List ClientEvent} {x : Int × Text} {body : Text}
    (stored : files (cString (client.destination desturi)) = some body)
    (ran : (client.downloadFileFromController desturi).Reaches reads (.returns x))
    (served : Served files h reads) : x.2 = body := by
  obtain ⟨requested, read⟩ := finishes_download.returned ran
  have sent : h.requests reads ≠ [] := by simpa using requests_of_requested h requested
  obtain ⟨request, rest, shape⟩ := List.exists_cons_of_ne_nil sent
  have member : request ∈ h.requests reads := shape ▸ List.mem_cons_self
  have url : Sends (fun request => request.url = .text (cString (client.destination desturi))) h
      (client.downloadFileFromController desturi) := sends_download.mpr rfl
  have event : (⟨.readOutput, x.2⟩ : ClientEvent) ∈ reads := by simpa using outputs_of_read read
  obtain ⟨chunks, whole, filled⟩ :=
    served request member _ body (sends_iff.mp url reads _ ran request member) stored x.2 event
  rw [filled, writeVectorCallback_chunks, List.nil_append, whole]

/-- What an upload of data needs for the download to give it back. Where the destination is shorter
than the root nothing is sent. -/
def UploadExact (client : ControllerClient) (data behind desturi : Text) : Prop :=
  client.basewebdavuri.length ≤ (client.destination desturi).length →
    NulFree data ∧ (behind ++ [0]).head? = some 0 ∧ client.basewebdavuri <+: client.destination desturi ∧
      NulFree client.basewebdavuri

theorem stored_at_destination :
    cString (client.destination desturi) = client.basewebdavuri ++ cString (client.remainder desturi) ↔
    client.basewebdavuri <+: client.destination desturi ∧ NulFree client.basewebdavuri := by
  constructor
  · intro same
    have cut : cString (client.destination desturi) <+: client.destination desturi := List.takeWhile_prefix _
    have under : client.basewebdavuri <+: client.destination desturi := by
      rw [same] at cut
      exact (List.prefix_append _ _).trans cut
    exact ⟨under, (nulFree_append.mp (same ▸ cString_nulFree (client.destination desturi))).1⟩
  · rintro ⟨under, nulFree⟩
    have whole := cString_of_nulFree _ nulFree
    unfold cString at whole ⊢
    rw [← destination_remainder under, List.takeWhile_append, whole, if_pos rfl]

def downloaded (vector : Text) : (a : ClientAction) → a.Answer
  | .perform => true
  | .readOutput => vector
  | a => unreachable a

theorem download_reaches (vector : Text) : (client.downloadFileFromController desturi).Reaches
    ((client.downloadFileFromController desturi).answered (downloaded vector) 17).1 (.returns (200, vector)) := by
  have ended : ((client.downloadFileFromController desturi).answered (downloaded vector) 17).2 = .returns
      (200, vector) := by
    rw [downloadFileFromController, prepareDestinationURI_destination]
    rfl
  exact (Program.run_answered _ 17 _).trans (congrArg some ended)

theorem cString_eq_nil_iff {t : Text} : cString (t ++ [0]) = [] ↔ (t ++ [0]).head? = some 0 := by
  cases t with
  | nil => simp [cString]
  | cons b t => by_cases zero : b = 0 <;> simp [cString, zero]

/-- An upload carries the data, and the download gives it back, exactly where the data has no zero
byte and is followed by one in memory, and the destination is under the root. -/
theorem round_trips_iff (client : ControllerClient) (data behind desturi : Text) :
    client.RoundTrips data behind desturi ↔ client.UploadExact data behind desturi := by
  constructor
  · intro roundTrips long
    have sent := sends_uploadData.mp (sends_iff.mpr (roundTrips ⟨fun _ => .null, .get⟩)) long
    obtain ⟨name, carried, downloads⟩ := sent
    rw [file_formOf, Option.some.injEq, Prod.mk.injEq, cString_append_eq_iff, cString_eq_nil_iff] at carried
    obtain ⟨rfl, plain, ended⟩ := carried
    refine ⟨plain, ended, stored_at_destination.mp ?_⟩
    -- Anything may come from a URL at which the file is not stored.
    by_contra elsewhere
    have same := downloads (fun _ => none) ⟨fun _ => .null, .get⟩ _ _ (download_reaches (0 :: data)) ?_
    · exact absurd (congrArg List.length same) (by simp)
    · intro request member url body at_url stored
      have sends : Sends (fun request => request.url = .text (cString (client.destination desturi)))
          ⟨fun _ => .null, .get⟩
          (client.downloadFileFromController desturi) := sends_download.mpr rfl
      have destination := sends_iff.mp sends _ _ (download_reaches (0 :: data)) request member
      obtain rfl := OptionValue.text.inj (at_url.symm.trans destination)
      rw [Function.update_of_ne elsewhere] at stored
      cases stored
  · intro exact h
    refine sends_iff.mp (sends_uploadData.mpr fun long => ?_)
    obtain ⟨plain, ended, stored⟩ := exact long
    have carried := cString_append_eq_iff.mpr ⟨plain, cString_eq_nil_iff.mpr ended⟩
    refine ⟨cString (client.remainder desturi), by rw [file_formOf, carried], fun files g reads x ran served => ?_⟩
    refine download_served ?_ ran served
    rw [stored_at_destination.mpr stored, Function.update_self]

/-- Data with a zero byte is cut there. -/
theorem upload_cuts :
    ¬∀ (client : ControllerClient) (data behind desturi : Text), client.RoundTrips data behind desturi := by
  intro roundTrips
  obtain ⟨name, carried, -⟩ :=
    sends_uploadData.mp
      (sends_iff.mpr (roundTrips default [1, 0, 2] [] (lit "mujin:/a") ⟨fun _ => .null, .get⟩))
    (by decide)
  rw [file_formOf] at carried
  have content : cString ([1, 0, 2] ++ ([] ++ [0])) = [1, 0, 2] := congrArg Prod.snd (Option.some.inj carried)
  exact absurd content (by decide)

end ControllerClient
end MujinClient
