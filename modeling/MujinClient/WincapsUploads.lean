import MujinClient.PathSegments
import MujinClient.MarkedTexts

/-! The upload of a WINCAPS project with its paths in UTF-8 and in UTF-16. -/
namespace MujinClient

open MarkedTexts Request ControllerClient

def utf16Code (c : Char) : Wide :=
  if c.toNat < 0x10000 then [c.toNat]
  else [0xD800 + (c.toNat - 0x10000) / 0x400, 0xDC00 + (c.toNat - 0x10000) % 0x400]

def utf16 (s : List Char) : Wide := s.flatMap utf16Code

def utf8Text (s : List Char) : Text := s.flatMap fun c => utf8 c.toNat

theorem scalar (c : Char) : c.toNat < 0xD800 ∨ 0xDFFF < c.toNat ∧ c.toNat < 0x110000 := c.valid

/-- A character outside of the surrogates has a code of its own. -/
theorem keepsMark_utf16 (mark : Char) (plain : mark.toNat < 0xD800) : KeepsMark utf16Code mark mark.toNat where
  mark_eq := if_pos (by omega)
  not_mem := by
    intro c different member
    have apart : c.toNat ≠ mark.toNat := fun same => different (Char.toNat_inj.mp same)
    unfold utf16Code at member
    split at member
    · exact apart (List.mem_singleton.mp member).symm
    · simp only [List.mem_cons, List.not_mem_nil, or_false] at member
      omega
  nonempty := by
    intro c
    unfold utf16Code
    split <;> simp

theorem mem_utf8 {code : Nat} {b : Byte} (high : 0x80 ≤ code) (bounded : code < 0x110000)
    (member : b ∈ utf8 code) : 0x80 ≤ b.val := by
  unfold utf8 at member
  obtain ⟨value, found, rfl⟩ := List.mem_map.mp member
  show 0x80 ≤ value % 256
  split at found
  · omega
  · split at found
    · simp only [List.mem_cons, List.not_mem_nil, or_false] at found
      omega
    · split at found <;> simp only [List.mem_cons, List.not_mem_nil, or_false] at found <;> omega

theorem utf8_ascii {code : Nat} (ascii : code < 0x80) : utf8 code = [Fin.ofNat 256 code] := by
  rw [utf8, if_pos ascii]
  rfl

/-- An ASCII character is one byte, and no byte of another character. -/
theorem keepsMark_utf8 (mark : Char) (ascii : mark.toNat < 0x80) :
    KeepsMark (fun c => utf8 c.toNat) mark (byte mark) where
  mark_eq := utf8_ascii ascii
  not_mem := by
    intro c different member
    have apart : c.toNat ≠ mark.toNat := fun same => different (Char.toNat_inj.mp same)
    have value : (byte mark).val = mark.toNat := Nat.mod_eq_of_lt (by omega)
    by_cases low : c.toNat < 0x80
    · rw [utf8_ascii low, List.mem_singleton] at member
      have same : mark.toNat = c.toNat % 256 := value.symm.trans (congrArg Fin.val member)
      omega
    · have high := mem_utf8 (by omega) (by have := scalar c; omega) member
      omega
  nonempty := by
    intro c
    unfold utf8
    split
    · simp
    · split
      · simp
      · split <;> simp

theorem utf16to8_append_code (c : Char) (rest : Wide) :
    utf16to8 (utf16Code c ++ rest) = (utf16to8 rest).map (utf8 c.toNat ++ ·) := by
  have valid := scalar c
  unfold utf16Code
  split
  · next single =>
    have same : c.toNat % 0x10000 = c.toNat := Nat.mod_eq_of_lt single
    rw [List.singleton_append, utf16to8.eq_def]
    dsimp only
    rw [same, if_neg (by omega), if_neg (by omega)]
  · next pair =>
    have lead : (0xD800 + (c.toNat - 0x10000) / 0x400) % 0x10000 = 0xD800 + (c.toNat - 0x10000) / 0x400 := by omega
    have trail : (0xDC00 + (c.toNat - 0x10000) % 0x400) % 0x10000 = 0xDC00 + (c.toNat - 0x10000) %
        0x400 := by omega
    have value : 0x10000 + (0xD800 + (c.toNat - 0x10000) / 0x400 - 0xD800) *
        0x400 + (0xDC00 + (c.toNat - 0x10000) % 0x400 - 0xDC00) =
        c.toNat := by omega
    rw [List.cons_append, List.singleton_append, utf16to8, lead, if_pos (by omega), trail,
      if_pos (by omega), value]

theorem utf16to8_utf16 (s : List Char) : utf16to8 (utf16 s) = .ok (utf8Text s) := by
  induction s with
  | nil => rfl
  | cons c rest ih =>
    have step := utf16to8_append_code c (utf16 rest)
    rw [ih] at step
    exact step

theorem exists_char {n : Nat} (valid : n < 0xD800 ∨ 0xDFFF < n ∧ n < 0x110000) : ∃ c : Char, c.toNat = n :=
  ⟨Char.ofNat n, by rw [Char.toNat_ofNat, if_pos valid]⟩

/-- A pair of surrogates is a character. -/
theorem exists_utf16_pair (lead_range : 0xD800 ≤ lead ∧ lead ≤ 0xDBFF)
    (trail_range : 0xDC00 ≤ trail ∧ trail ≤ 0xDFFF) : ∃ c, utf16Code c = [lead, trail] := by
  obtain ⟨c, value⟩ := exists_char (n := 0x10000 + (lead - 0xD800) * 0x400 + (trail - 0xDC00)) (by omega)
  have high : 0xD800 + (c.toNat - 0x10000) / 0x400 = lead := by omega
  have low : 0xDC00 + (c.toNat - 0x10000) % 0x400 = trail := by omega
  exact ⟨c, by rw [utf16Code, if_neg (by omega), high, low]⟩

theorem exists_utf16_unit {unit : Nat} (bounded : unit < 0x10000) (single : unit < 0xD800 ∨ 0xDFFF < unit) :
    ∃ c, utf16Code c = [unit] := by
  obtain ⟨c, value⟩ := exists_char (n := unit) (by omega)
  exact ⟨c, by rw [utf16Code, value, if_pos bounded]⟩

/-- The wide strings of 16-bit characters that are converted are the ones of valid Unicode. -/
theorem exists_utf16 (w : Wide) (units : ∀ u ∈ w, u < 0x10000) {t : Text} (converted : utf16to8 w = .ok t) :
    ∃ s, w = utf16 s := by
  induction w using utf16to8.induct generalizing t with
  | case1 => exact ⟨[], rfl⟩
  | case2 lead cp surrogate =>
    rw [utf16to8, if_pos surrogate] at converted
    cases converted
  | case3 lead cp surrogate trail rest low paired =>
    rename_i ih
    rw [utf16to8, if_pos surrogate, if_pos paired] at converted
    cases after : utf16to8 rest with
    | error e =>
      rw [after] at converted
      cases converted
    | ok tail =>
      obtain ⟨s, rfl⟩ :=
        ih (fun u member => units u (List.mem_cons_of_mem _ (List.mem_cons_of_mem _ member))) after
      have first : cp = lead := Nat.mod_eq_of_lt (units lead List.mem_cons_self)
      have second : low = trail := Nat.mod_eq_of_lt (units trail (List.mem_cons_of_mem _ List.mem_cons_self))
      rw [first] at surrogate
      rw [second] at paired
      obtain ⟨c, code⟩ :=
        exists_utf16_pair (show 0xD800 ≤ lead ∧ lead ≤ 0xDBFF by omega)
          (show 0xDC00 ≤ trail ∧ trail ≤ 0xDFFF by omega)
      refine ⟨c :: s, ?_⟩
      show _ = utf16Code c ++ utf16 s
      rw [code]
      rfl
  | case4 lead cp surrogate trail rest low =>
    rename_i unpaired
    rw [utf16to8, if_pos surrogate, if_neg unpaired] at converted
    cases converted
  | case5 lead rest cp plain trailing =>
    rw [utf16to8.eq_def] at converted
    dsimp only at converted
    rw [if_neg plain, if_pos trailing] at converted
    cases converted
  | case6 lead rest cp plain other ih =>
    rw [utf16to8.eq_def] at converted
    dsimp only at converted
    rw [if_neg plain, if_neg other] at converted
    cases after : utf16to8 rest with
    | error e =>
      rw [after] at converted
      cases converted
    | ok tail =>
      obtain ⟨s, rfl⟩ := ih (fun u member => units u (List.mem_cons_of_mem _ member)) after
      have bounded := units lead List.mem_cons_self
      have first : cp = lead := Nat.mod_eq_of_lt bounded
      rw [first] at plain other
      obtain ⟨c, code⟩ := exists_utf16_unit bounded (by omega)
      refine ⟨c :: s, ?_⟩
      show _ = utf16Code c ++ utf16 s
      rw [code]
      rfl

/-- The wide characters of a project file, two bytes for each, without the first byte order mark. -/
def projectCharacters (content : Text) : Wide := (units content).erase 0xFEFF
where
  units : Text → List Nat
    | low :: high :: rest => (low.val + 256 * high.val) :: units rest
    | _ => []

/-- What the path in a project file stands for. -/
def trimWCNPath (data : Wide) : Wide :=
  let strWCNPath := if data.getLast? = some ';'.toNat then data.dropLast else data
  if ['.'.toNat, '\\'.toNat] <+: strWCNPath then strWCNPath.drop 2 else strWCNPath

/-- `ParseWincapsWCNPath`. What the XML reader finds in `clsProject` and `WCNPath` is a parameter,
and so are the files on disk. -/
def parseWincapsWCNPath {β : Type} (encoding : PathEncoding β) (disk : Text → Option Text)
    (readXml : Wide → Except Thrown Wide) (sourcefilename : List β) : Except Thrown Wide := do
  let filename ← encoding.toUtf8 sourcefilename
  match disk (cString filename) with
  | none => throw (.mujin ⟨lit "failed to open file " ++ filename, .invalidArguments⟩)
  | some content => return trimWCNPath (← readXml (projectCharacters content))

theorem parseWincapsWCNPath_utf16 (disk : Text → Option Text) (readXml : Wide → Except Thrown Wide)
    (sourcefilename : List Char) :
    parseWincapsWCNPath utf16Paths disk readXml (utf16 sourcefilename) =
      parseWincapsWCNPath utf8Paths disk readXml (utf8Text sourcefilename) := by
  have converted : utf16Paths.toUtf8 (utf16 sourcefilename) = .ok (utf8Text sourcefilename) :=
    utf16to8_utf16 sourcefilename
  unfold parseWincapsWCNPath
  rw [converted]
  rfl

/-- The path is valid Unicode if the text in the file is. -/
theorem trimWCNPath_utf16 (data : List Char) : ∃ path, trimWCNPath (utf16 data) = utf16 path := by
  have trimmed : ∃ path, (if (utf16 data).getLast? = some ';'.toNat then (utf16 data).dropLast else
      utf16 data) = utf16 path := by
    have semicolon := keepsMark_utf16 ';' (by decide)
    split
    · next ends =>
      have last : data.getLast? = some ';' := (semicolon.getLast?_flatMap data).mp ends
      have parts : data = data.dropLast ++ [';'] := (List.dropLast_append_getLast? ';' last).symm
      refine ⟨data.dropLast, ?_⟩
      rw [parts, utf16, List.flatMap_append, List.flatMap_singleton, semicolon.mark_eq,
        List.dropLast_concat, List.dropLast_concat]
      rfl
    · exact ⟨data, rfl⟩
  obtain ⟨path, same⟩ := trimmed
  unfold trimWCNPath
  dsimp only
  rw [same]
  split
  · next starts =>
    obtain ⟨rest, code⟩ := starts
    obtain ⟨afterDot, rfl, later⟩ := (keepsMark_utf16 '.' (by decide)).flatMap_eq_cons code.symm
    obtain ⟨path, rfl, -⟩ := (keepsMark_utf16 '\\' (by decide)).flatMap_eq_cons later.symm
    exact ⟨path, rfl⟩
  · exact ⟨path, rfl⟩

theorem baseFilename_eq_afterLast {β : Type} [DecidableEq β] (filesep : β) (path : List β) :
    baseFilename filesep path = afterLast filesep path := rfl

theorem directoryPart_eq_throughLast {β : Type} [DecidableEq β] (encoding : PathEncoding β) (path : List β) :
    directoryPart encoding path = throughLast encoding.filesep path := by
  have parts := throughLast_append_afterLast encoding.filesep path
  have lengths : path.length = (throughLast encoding.filesep path).length +
      (afterLast encoding.filesep path).length := by
    rw [← List.length_append, parts]
  rw [directoryPart, baseFilename_eq_afterLast, lengths, Nat.add_sub_cancel]
  calc path.take (throughLast encoding.filesep path).length
      = (throughLast encoding.filesep path ++ afterLast encoding.filesep path).take
        (throughLast encoding.filesep path).length := by rw [parts]
    _ = throughLast encoding.filesep path := List.take_left

theorem upToLastBackslash_eq {β : Type} [DecidableEq β] (backslash separator : β) (path : List β) :
    upToLastBackslash backslash separator path = replace backslash separator (beforeLast backslash path) := rfl

/-- An encoding of valid Unicode for paths. -/
structure EncodesPaths {β : Type} (encoding : PathEncoding β) (encode : Char → List β) : Prop where
  filesep : KeepsMark encode '/' encoding.filesep
  backslash : KeepsMark encode '\\' encoding.backslash
  toUtf8 : ∀ s : List Char, encoding.toUtf8 (s.flatMap encode) = .ok (utf8Text s)
  ofUtf16 : ∀ s : List Char, encoding.ofUtf16 (utf16 s) = .ok (s.flatMap encode)

theorem encodesPaths_utf8 : EncodesPaths utf8Paths fun c => utf8 c.toNat :=
  ⟨keepsMark_utf8 '/' (by decide), keepsMark_utf8 '\\' (by decide), fun _ => rfl, utf16to8_utf16⟩

theorem encodesPaths_utf16 : EncodesPaths utf16Paths utf16Code :=
  ⟨keepsMark_utf16 '/' (by decide), keepsMark_utf16 '\\' (by decide), utf16to8_utf16, fun _ => rfl⟩

namespace ControllerClient

/-- What an upload of a WINCAPS project uploads, and to which URIs. -/
structure WincapsUpload (β : Type) where
  /-- `sCopyDir` with its URI, if the project points to a directory. -/
  directory : Option (List β × Text)
  uploadfileuri : Text
  deriving DecidableEq

namespace WincapsUpload

def converted (upload : WincapsUpload Nat) : Except Thrown (WincapsUpload Byte) :=
  match upload.directory with
  | none => .ok ⟨none, upload.uploadfileuri⟩
  | some (sCopyDir_utf16, uri) =>
    (utf16to8 sCopyDir_utf16).map fun sCopyDir => ⟨some (sCopyDir, uri), upload.uploadfileuri⟩

end WincapsUpload

variable (client : ControllerClient) {β : Type} [DecidableEq β] (encoding : PathEncoding β)

/-- What the uploads of a WINCAPS project come to. -/
def wincapsUpload (sourcefilename : List β) (destinationdir : Text) (strWCNPath_utf16 : Wide) :
    Except Thrown (WincapsUpload β) := do
  let strWCNURI ← utf16to8 strWCNPath_utf16
  let strWCNPath ← encoding.ofUtf16 strWCNPath_utf16
  let sourcefilenamebase ← encoding.toUtf8 (baseFilename encoding.filesep sourcefilename)
  let baseuploaduri := client.syncUploadUri destinationdir
  return {
    directory := if strWCNPath_utf16 = [] then none else some
      (directoryPart encoding sourcefilename ++ upToLastBackslash encoding.backslash encoding.filesep strWCNPath,
        baseuploaduri ++ client.encodeWithoutSeparator (upToLastBackslash (byte '\\') (byte '/') strWCNURI))
    uploadfileuri := baseuploaduri ++ client.escapeString sourcefilenamebase }

/-- The strings that `SyncUpload_UTF8` computes, from its one loop. -/
def wincapsUpload_UTF8 (sourcefilename destinationdir : Text) (strWCNPath_utf16 : Wide) :
    Except Thrown (WincapsUpload Byte) := do
  let strWCNPath ← utf16to8 strWCNPath_utf16
  let (strWCNURI, strWCNPath, lastindex) := separatorsLoop 0 0 strWCNPath
  let baseuploaduri := client.syncUploadUri destinationdir
  return {
    directory := if strWCNPath_utf16 = [] then none else some
      (directoryPart utf8Paths sourcefilename ++ strWCNPath.take lastindex,
        baseuploaduri ++ client.encodeWithoutSeparator (strWCNURI.take lastindex))
    uploadfileuri := baseuploaduri ++ client.escapeString (baseFilename utf8Paths.filesep sourcefilename) }

/-- The strings that `SyncUpload_UTF16` computes, from its two loops, with the destination as UTF-8. -/
def wincapsUpload_UTF16 (sourcefilename_utf16 : Wide) (destinationdir_utf8 : Text) (strWCNPath_utf16 : Wide) :
    Except Thrown (WincapsUpload Nat) := do
  let strWCNURI ← utf16to8 strWCNPath_utf16
  let (strWCNURI, lastindex_utf8) := separatorLoop (byte '\\') (byte '/') 0 0 strWCNURI
  let (strWCNPath, lastindex_utf16) := separatorLoop utf16Paths.backslash utf16Paths.filesep 0 0 strWCNPath_utf16
  let sourcefilenamedir_utf8 ← utf16to8 (baseFilename utf16Paths.filesep sourcefilename_utf16)
  let baseuploaduri := client.syncUploadUri destinationdir_utf8
  return {
    directory := if strWCNPath_utf16 = [] then none else some
      (directoryPart utf16Paths sourcefilename_utf16 ++ strWCNPath.take lastindex_utf16,
        baseuploaduri ++ client.encodeWithoutSeparator (strWCNURI.take lastindex_utf8))
    uploadfileuri := baseuploaduri ++ client.escapeString sourcefilenamedir_utf8 }

theorem wincapsUpload_UTF8_eq (sourcefilename destinationdir : Text) (strWCNPath_utf16 : Wide) :
    client.wincapsUpload_UTF8 sourcefilename destinationdir strWCNPath_utf16 =
      client.wincapsUpload utf8Paths sourcefilename destinationdir strWCNPath_utf16 := by
  have narrow : utf8Paths.ofUtf16 strWCNPath_utf16 = utf16to8 strWCNPath_utf16 := rfl
  unfold wincapsUpload_UTF8 wincapsUpload
  rw [narrow]
  cases utf16to8 strWCNPath_utf16 with
  | error e => rfl
  | ok strWCNPath =>
    simp only [bind, Except.bind, separatorsLoop_eq, take_separatorLoop]
    rfl

theorem wincapsUpload_UTF16_eq (sourcefilename_utf16 : Wide) (destinationdir_utf8 : Text)
    (strWCNPath_utf16 : Wide) :
    client.wincapsUpload_UTF16 sourcefilename_utf16 destinationdir_utf8 strWCNPath_utf16 =
      client.wincapsUpload utf16Paths sourcefilename_utf16 destinationdir_utf8 strWCNPath_utf16 := by
  unfold wincapsUpload_UTF16 wincapsUpload
  cases utf16to8 strWCNPath_utf16 with
  | error e => rfl
  | ok strWCNURI =>
    simp only [bind, Except.bind, take_separatorLoop]
    rfl

def sendDirectory (listing : Listing β) : Option (List β × Text) → Request Unit
  | none => return
  | some (sCopyDir, uri) => client.uploadDirectory encoding sCopyDir uri listing

def sendWincapsUpload (sourcefilename : List β) (destinationdir : Text) (listing : Listing β)
    (upload : WincapsUpload β) : Request Unit := do
  client.ensureDestination destinationdir
  client.sendDirectory encoding listing upload.directory
  client.uploadFile encoding sourcefilename upload.uploadfileuri

/-- Where all paths can be converted, an upload sends what it has computed. -/
theorem syncUpload_wincaps {sourcefilename : List β} {destinationdir : Text} {strWCNPath : Wide}
    {upload : WincapsUpload β}
    (computed : client.wincapsUpload encoding sourcefilename destinationdir strWCNPath = .ok upload)
    (listing : Listing β) :
    client.syncUpload encoding sourcefilename destinationdir (lit "wincaps") (.ok strWCNPath) listing =
      client.sendWincapsUpload encoding sourcefilename destinationdir listing upload := by
  have scene : ¬(lit "wincaps" = lit "rttoolbox" ∨ lit "wincaps" = lit "cecrobodiaxml") := by decide
  unfold wincapsUpload at computed
  cases uri : utf16to8 strWCNPath with
  | error e =>
    rw [uri] at computed
    cases computed
  | ok strWCNURI =>
    cases path : encoding.ofUtf16 strWCNPath with
    | error e =>
      rw [uri, path] at computed
      cases computed
    | ok strWCNPath_native =>
      cases name : encoding.toUtf8 (baseFilename encoding.filesep sourcefilename) with
      | error e =>
        rw [uri, path, name] at computed
        cases computed
      | ok base =>
        rw [uri, path, name] at computed
        obtain rfl := (Except.ok.inj computed).symm
        have directory : client.uploadSceneDirectory encoding sourcefilename
            (client.syncUploadUri destinationdir) (lit "wincaps")
            (.ok strWCNPath) listing = client.uploadWincapsDirectory encoding sourcefilename
              (client.syncUploadUri destinationdir)
              strWCNPath listing := by
          rw [uploadSceneDirectory, if_pos rfl]
          rfl
        unfold syncUpload sendWincapsUpload
        rw [if_neg scene, name]
        show (client.ensureDestination destinationdir >>= fun _ => client.uploadSceneDirectory encoding
            sourcefilename
          (client.syncUploadUri destinationdir) (lit "wincaps") (.ok strWCNPath) listing >>= _) = _
        rw [directory, uploadWincapsDirectory, uri, path]
        by_cases empty : strWCNPath = []
        · simp only [if_pos empty]
          rfl
        · simp only [if_neg empty]
          rfl

/-- What is computed for the encodings of the same texts, with the directory as a text. -/
theorem wincapsUpload_eq {encode : Char → List β} (encodes : EncodesPaths encoding encode)
    (source : List Char) (destinationdir : Text) (path : List Char) :
    client.wincapsUpload encoding (source.flatMap encode) destinationdir (utf16 path) = .ok {
      directory := if path = [] then none else some
        ((throughLast '/' source ++ replace '\\' '/' (beforeLast '\\' path)).flatMap encode,
          client.syncUploadUri destinationdir ++ client.encodeWithoutSeparator
            (utf8Text (replace '\\' '/' (beforeLast '\\' path))))
      uploadfileuri :=
        client.syncUploadUri destinationdir ++ client.escapeString (utf8Text (afterLast '/' source)) } := by
  have name : encoding.toUtf8 (baseFilename encoding.filesep (source.flatMap encode)) =
      .ok (utf8Text (afterLast '/' source)) := by
    rw [baseFilename_eq_afterLast, encodes.filesep.afterLast_flatMap, encodes.toUtf8]
  have folder : directoryPart encoding (source.flatMap encode) = (throughLast '/' source).flatMap encode := by
    rw [directoryPart_eq_throughLast, encodes.filesep.throughLast_flatMap]
  have below : upToLastBackslash encoding.backslash encoding.filesep (path.flatMap encode) =
      (replace '\\' '/' (beforeLast '\\' path)).flatMap encode := by
    rw [upToLastBackslash_eq, encodes.backslash.beforeLast_flatMap, encodes.backslash.replace_flatMap
      encodes.filesep.mark_eq]
  have behind : upToLastBackslash (byte '\\') (byte '/') (utf8Text path) = utf8Text
      (replace '\\' '/' (beforeLast '\\' path)) := by
    have backslash := keepsMark_utf8 '\\' (by decide)
    have slash := keepsMark_utf8 '/' (by decide)
    rw [upToLastBackslash_eq, utf8Text, backslash.beforeLast_flatMap,
      backslash.replace_flatMap slash.mark_eq, utf8Text]
  have empty : utf16 path = [] ↔ path = [] := encodesPaths_utf16.filesep.flatMap_eq_nil
  unfold wincapsUpload
  rw [utf16to8_utf16, encodes.ofUtf16, name]
  show Except.ok _ = _
  simp only [empty, folder, below, behind, List.flatMap_append]

/-- The UTF-16 upload computes what the UTF-8 upload computes, and both send it. -/
def UploadsAgree (source destination : List Char) (strWCNPath : Wide) : Prop :=
  ∃ wide narrow,
    client.wincapsUpload_UTF16 (utf16 source) (utf8Text destination) strWCNPath = .ok wide ∧
    client.wincapsUpload_UTF8 (utf8Text source) (utf8Text destination) strWCNPath = .ok narrow ∧
    wide.converted = .ok narrow ∧
    (∀ listing, client.script
      (.syncUpload_UTF16 (utf16 source) (utf16 destination) (lit "wincaps") (.ok strWCNPath) listing) =
      locked (client.sendWincapsUpload utf16Paths (utf16 source) (utf8Text destination) listing wide)) ∧
    ∀ listing, client.script (.syncUpload_UTF8 (utf8Text source) (utf8Text destination) (lit "wincaps")
      (.ok strWCNPath) listing) =
      locked (client.sendWincapsUpload utf8Paths (utf8Text source) (utf8Text destination) listing narrow)

/-- The UTF-16 upload of a WINCAPS project goes where the UTF-8 upload of the same texts goes, and
reads the same project file. -/
theorem syncUpload_agrees (disk : Text → Option Text) (readXml : Wide → Except Thrown Wide)
    (source destination data : List Char) :
    parseWincapsWCNPath utf16Paths disk readXml (utf16 source) = parseWincapsWCNPath utf8Paths disk readXml
      (utf8Text source) ∧
      client.UploadsAgree source destination (trimWCNPath (utf16 data)) := by
  refine ⟨parseWincapsWCNPath_utf16 disk readXml source, ?_⟩
  obtain ⟨path, trimmed⟩ := trimWCNPath_utf16 data
  have wide := client.wincapsUpload_eq utf16Paths encodesPaths_utf16 source (utf8Text destination) path
  have narrow := client.wincapsUpload_eq utf8Paths encodesPaths_utf8 source (utf8Text destination) path
  rw [trimmed]
  refine ⟨_, _, (client.wincapsUpload_UTF16_eq ..).trans wide, (client.wincapsUpload_UTF8_eq ..).trans
    narrow, ?_, ?_, ?_⟩
  · by_cases empty : path = []
    · simp only [if_pos empty]
      rfl
    · simp only [if_neg empty, WincapsUpload.converted]
      rw [show List.flatMap utf16Code _ = utf16 _ from rfl, utf16to8_utf16]
      rfl
  · intro listing
    show locked (client.syncUpload_UTF16 (utf16 source) (utf16 destination) (lit "wincaps") _ listing) = _
    rw [client.syncUpload_UTF16_eq, utf16to8_utf16]
    exact congrArg locked (client.syncUpload_wincaps utf16Paths wide listing)
  · intro listing
    show locked (client.syncUpload_UTF8 (utf8Text source) (utf8Text destination) (lit "wincaps") _ listing) = _
    rw [client.syncUpload_UTF8_eq]
    exact congrArg locked (client.syncUpload_wincaps utf8Paths narrow listing)

end ControllerClient

end MujinClient
