import MujinClient.FileTransfers

/-! Paths on the controller, segment by segment: the path of an upload, whose separators are kept, and
the directories that are made for it. The two loops go through the path on their own. -/
namespace MujinClient

open Transition Request

def unreserved (b : Byte) : Bool :=
  isDigit b || (65 ≤ b.val && b.val ≤ 90) || (97 ≤ b.val && b.val ≤ 122) ||
    [byte '-', byte '.', byte '_', byte '~'].contains b

def percentEncodeByte (b : Byte) : Text :=
  if unreserved b then [b] else [byte '%', hexDigit (b.val / 16), hexDigit (b.val % 16)]

/-- `curl_easy_escape`. -/
def percentEncode (raw : Text) : Text := raw.flatMap percentEncodeByte

@[simp] theorem percentEncode_nil : percentEncode [] = [] := rfl

@[simp] theorem percentEncode_cons : percentEncode (b :: raw) = percentEncodeByte b ++ percentEncode raw :=
  List.flatMap_cons

@[simp] theorem percentEncode_append : percentEncode (s ++ t) = percentEncode s ++ percentEncode t :=
  List.flatMap_append

theorem length_percentEncodeByte_pos (b : Byte) : 0 < (percentEncodeByte b).length := by
  unfold percentEncodeByte
  split <;> simp

theorem length_percentEncodeByte_slash : (percentEncodeByte (byte '/')).length = 3 := rfl

theorem percentEncode_eq_nil : percentEncode raw = [] ↔ raw = [] := by
  cases raw with
  | nil => simp
  | cons b raw =>
    have positive := length_percentEncodeByte_pos b
    simp only [percentEncode_cons, List.append_eq_nil_iff, reduceCtorEq, iff_false, not_and]
    intro none
    simp [none] at positive

theorem percentEncodeByte_inj {b c : Byte} {x y : Text}
    (same : percentEncodeByte b ++ x = percentEncodeByte c ++ y) : b = c ∧ x = y := by
  have percent : unreserved (byte '%') = false := rfl
  have digits : ∀ d < 16, ∀ e < 16, hexDigit d = hexDigit e → d = e := by decide
  unfold percentEncodeByte at same
  have bBound := b.isLt
  have cBound := c.isLt
  split at same
  · rename_i plain
    split at same
    · exact List.cons.inj same
    · obtain ⟨rfl, -⟩ := List.cons.inj same
      rw [percent] at plain
      cases plain
  · split at same
    · rename_i plain
      obtain ⟨rfl, -⟩ := List.cons.inj same
      rw [percent] at plain
      cases plain
    · obtain ⟨-, same⟩ := List.cons.inj same
      obtain ⟨high, same⟩ := List.cons.inj same
      obtain ⟨low, same⟩ := List.cons.inj same
      have quotients := digits _ (by omega) _ (by omega) high
      have remainders := digits _ (by omega) _ (by omega) low
      exact ⟨Fin.ext (by omega), same⟩

theorem percentEncode_injective : Function.Injective percentEncode := by
  intro s t same
  induction s generalizing t with
  | nil =>
    symm
    exact percentEncode_eq_nil.mp same.symm
  | cons b s ih =>
    cases t with
    | nil => exact absurd (percentEncode_eq_nil.mp same) (by simp)
    | cons c t =>
      rw [percentEncode_cons, percentEncode_cons] at same
      obtain ⟨rfl, later⟩ := percentEncodeByte_inj same
      rw [ih later]

/-- What is encoded has neither separators nor zero bytes. -/
theorem not_mem_percentEncode {b : Byte} (special : b = byte '/' ∨ b = 0) (raw : Text) :
    b ∉ percentEncode raw := by
  have digits : ∀ d < 16, hexDigit d ≠ byte '/' ∧ hexDigit d ≠ 0 := by decide
  have percent : b ≠ byte '%' := by rcases special with rfl | rfl <;> decide
  have apart : ∀ d < 16, b ≠ hexDigit d := by
    intro d small same
    rcases special with rfl | rfl
    · exact (digits d small).1 same.symm
    · exact (digits d small).2 same.symm
  intro member
  obtain ⟨c, -, inside⟩ := List.mem_flatMap.mp member
  unfold percentEncodeByte at inside
  have bound := c.isLt
  split at inside
  · rename_i plain
    obtain rfl := List.mem_singleton.mp inside
    rcases special with rfl | rfl <;> exact absurd plain (by decide)
  · simp only [List.mem_cons, List.not_mem_nil, or_false] at inside
    rcases inside with same | same | same
    · exact percent same
    · exact apart _ (by omega) same
    · exact apart _ (by omega) same

/-- The segments where `current` has been read of the first one. -/
def segments (current raw : Text) : List Text := (raw.splitOn (byte '/')).modifyHead (current ++ ·)

@[simp] theorem segments_start (raw : Text) : segments [] raw = raw.splitOn (byte '/') := by
  unfold segments
  cases raw.splitOn (byte '/') <;> rfl

@[simp] theorem segments_nil (current : Text) : segments current [] = [current] := by
  simp [segments]

@[simp] theorem segments_slash (current raw : Text) :
    segments current (byte '/' :: raw) = current :: raw.splitOn (byte '/') := by
  simp [segments, List.splitOn_cons_eq_if_modifyHead]

theorem segments_cons (other : c ≠ byte '/') (current raw : Text) :
    segments current (c :: raw) = segments (current ++ [c]) raw := by
  unfold segments
  rw [List.splitOn_cons_eq_if_modifyHead, if_neg (by simpa using other)]
  cases raw.splitOn (byte '/') <;> simp

/-- Only the last segment may be empty. -/
def FullFrom (current raw : Text) : Prop := ∀ s ∈ (segments current raw).dropLast, s ≠ []

def FullSegments (raw : Text) : Prop := ∀ s ∈ (raw.splitOn (byte '/')).dropLast, s ≠ []

theorem fullFrom_start {raw : Text} : FullFrom [] raw ↔ FullSegments raw := by
  rw [FullFrom, segments_start, FullSegments]

theorem fullFrom_slash {current raw : Text} :
    FullFrom current (byte '/' :: raw) ↔ current ≠ [] ∧ FullFrom [] raw := by
  rw [FullFrom, segments_slash, fullFrom_start, FullSegments,
    List.dropLast_cons_of_ne_nil (List.splitOn_ne_nil _ _),
    List.forall_mem_cons]

theorem fullFrom_cons {current raw : Text} (other : c ≠ byte '/') :
    FullFrom current (c :: raw) ↔ FullFrom (current ++ [c]) raw := by
  rw [FullFrom, segments_cons other, FullFrom]

/-- The length that each separator and each encoded byte adds. -/
def encodedLength (separator : Nat) (raw : Text) : Nat :=
  (raw.map fun b => if b = byte '/' then separator else (percentEncodeByte b).length).sum

@[simp] theorem encodedLength_slash {separator : Nat} {raw : Text} :
    encodedLength separator (byte '/' :: raw) = separator + encodedLength separator raw := by
  simp [encodedLength]

theorem encodedLength_cons {separator : Nat} {raw : Text} (other : c ≠ byte '/') :
    encodedLength separator (c :: raw) = (percentEncodeByte c).length + encodedLength separator raw := by
  simp [encodedLength, other]

namespace ControllerClient

variable (client : ControllerClient)

/-- The encoded path has the encoded segments, with the separators of the path between them. -/
def EncodesSegments (raw : Text) : Prop :=
  client.encodeWithoutSeparator raw = [byte '/'].intercalate ((raw.splitOn (byte '/')).map percentEncode) ∧
    (client.encodeWithoutSeparator raw).splitOn (byte '/') = (raw.splitOn (byte '/')).map percentEncode

variable {client} {current raw : Text}

theorem encodeFrom_nil (escapes : client.escapeString = percentEncode) :
    client.encodeFrom current [] = percentEncode current := by
  rw [encodeFrom, escapes]
  split
  · rfl
  · rename_i empty
    rw [not_not.mp empty, percentEncode_nil]

theorem encodeFrom_full (escapes : client.escapeString = percentEncode) (full : FullFrom current raw) :
    client.encodeFrom current raw = [byte '/'].intercalate ((segments current raw).map percentEncode) := by
  induction raw generalizing current with
  | nil => simp [encodeFrom_nil escapes]
  | cons c raw ih =>
    by_cases slash : c = byte '/'
    · subst slash
      obtain ⟨nonempty, rest⟩ := fullFrom_slash.mp full
      have later : (raw.splitOn (byte '/')).map percentEncode ≠ [] := by simp
      rw [encodeFrom, if_pos rfl, if_pos nonempty, escapes, ih rest, segments_start, segments_slash, List.map_cons,
        List.intercalate_cons_of_ne_nil later]
      simp
    · rw [encodeFrom, if_neg slash, ih ((fullFrom_cons slash).mp full), segments_cons slash]

/-- An empty segment leaves its separator in the next one, where it is encoded. -/
theorem length_encodeFrom (escapes : client.escapeString = percentEncode) (current raw : Text) :
    (percentEncode current).length + encodedLength 1 raw ≤ (client.encodeFrom current raw).length ∧
      (¬FullFrom current raw → (percentEncode current).length + encodedLength 1 raw <
        (client.encodeFrom current raw).length) := by
  induction raw generalizing current with
  | nil => simp [encodeFrom_nil escapes, encodedLength, FullFrom]
  | cons c raw ih =>
    by_cases slash : c = byte '/'
    · subst slash
      rw [encodeFrom, if_pos rfl, encodedLength_slash, fullFrom_slash, escapes]
      by_cases empty : current = []
      · subst empty
        have swallowed := (ih [byte '/']).1
        rw [percentEncode_cons, List.length_append, length_percentEncodeByte_slash] at swallowed
        rw [if_neg (by simp), List.length_cons, percentEncode_nil, List.length_nil]
        omega
      · obtain ⟨least, more⟩ := ih []
        rw [if_pos empty, List.length_append, List.length_cons]
        simp only [percentEncode_nil, List.length_nil] at least more
        refine ⟨by omega, fun partly => ?_⟩
        have rest := more fun full => partly ⟨empty, full⟩
        omega
    · obtain ⟨least, more⟩ := ih (current ++ [c])
      rw [percentEncode_append, List.length_append, percentEncode_cons, List.length_append,
        percentEncode_nil, List.length_nil] at least more
      rw [encodeFrom, if_neg slash, encodedLength_cons slash, fullFrom_cons slash]
      exact ⟨by omega, fun partly => by have := more partly; omega⟩

theorem length_joined (current raw : Text) :
    ([byte '/'].intercalate ((segments current raw).map percentEncode)).length =
      (percentEncode current).length + encodedLength 1 raw := by
  induction raw generalizing current with
  | nil => simp [encodedLength]
  | cons c raw ih =>
    by_cases slash : c = byte '/'
    · subst slash
      have later : (raw.splitOn (byte '/')).map percentEncode ≠ [] := by simp
      have rest := ih []
      rw [segments_start, percentEncode_nil, List.length_nil] at rest
      rw [segments_slash, List.map_cons, List.intercalate_cons_of_ne_nil later, List.length_append,
        List.length_append, rest,
        encodedLength_slash, List.length_singleton]
      omega
    · rw [segments_cons slash, ih, percentEncode_append, List.length_append, percentEncode_cons,
        List.length_append,
        percentEncode_nil, List.length_nil, encodedLength_cons slash]
      omega

/-- Exactly where only the last segment is empty, no separator is encoded. -/
theorem encodesSegments_iff (client : ControllerClient) (escapes : client.escapeString = percentEncode)
    (raw : Text) :
    client.EncodesSegments raw ↔ FullSegments raw := by
  constructor
  · rintro ⟨joined, -⟩
    by_contra partly
    have longer := (length_encodeFrom escapes [] _).2 (mt fullFrom_start.mp partly)
    have length := length_joined [] raw
    rw [segments_start, ← joined] at length
    exact absurd length (ne_of_gt longer)
  · intro full
    have joined := encodeFrom_full escapes (fullFrom_start.mpr full)
    rw [segments_start] at joined
    refine ⟨joined, ?_⟩
    rw [encodeWithoutSeparator, joined]
    refine List.splitOn_intercalate _ (fun s member => ?_) (by simp)
    obtain ⟨t, -, rfl⟩ := List.mem_map.mp member
    exact not_mem_percentEncode (.inl rfl) t

/-- A file in a directory. -/
theorem encodesSegments_iff_file :
    { (default : ControllerClient) with escapeString := percentEncode }.EncodesSegments
      [byte 'a', byte '/', byte 'b'] :=
  (encodesSegments_iff _ rfl _).mpr (by simp [FullSegments, List.splitOn_cons_eq_if_modifyHead, byte])

/-- The separator in front of a path is encoded together with the first segment. -/
theorem encodes_separator :
    ¬∀ (client : ControllerClient) (raw : Text), client.escapeString = percentEncode →
      client.EncodesSegments raw := by
  intro each
  have joined :=
    (each { (default : ControllerClient) with escapeString := percentEncode } [byte '/', byte 'a'] rfl).1
  exact absurd (congrArg List.length joined) (by decide)

theorem createDirsFrom_nil (escapes : client.escapeString = percentEncode) :
    client.createDirsFrom current [] = ([current].filter (· ≠ [])).map percentEncode := by
  unfold createDirsFrom
  rw [escapes]
  split <;> simp_all

theorem createDirsFrom_full (escapes : client.escapeString = percentEncode) (full : FullFrom current raw) :
    client.createDirsFrom current raw = ((segments current raw).filter (· ≠ [])).map percentEncode := by
  induction raw generalizing current with
  | nil => rw [createDirsFrom_nil escapes, segments_nil]
  | cons c raw ih =>
    by_cases slash : c = byte '/'
    · subst slash
      obtain ⟨nonempty, rest⟩ := fullFrom_slash.mp full
      rw [createDirsFrom, if_pos rfl, if_pos nonempty, escapes, ih rest, segments_start, segments_slash,
        List.filter_cons_of_pos (by simpa using nonempty), List.map_cons]
    · rw [createDirsFrom, if_neg slash, ih ((fullFrom_cons slash).mp full), segments_cons slash]

/-- The directories have at least the encoded bytes of the path, and more after an empty segment. -/
theorem length_createDirsFrom (escapes : client.escapeString = percentEncode) (current raw : Text) :
    (percentEncode current).length + encodedLength 0 raw ≤ (client.createDirsFrom current raw).flatten.length ∧
      (¬FullFrom current raw → (percentEncode current).length + encodedLength 0 raw <
        (client.createDirsFrom current raw).flatten.length) := by
  induction raw generalizing current with
  | nil =>
    rw [createDirsFrom_nil escapes]
    by_cases empty : current = [] <;> simp [empty, encodedLength, FullFrom]
  | cons c raw ih =>
    by_cases slash : c = byte '/'
    · subst slash
      rw [createDirsFrom, if_pos rfl, encodedLength_slash, fullFrom_slash, escapes]
      by_cases empty : current = []
      · subst empty
        have swallowed := (ih [byte '/']).1
        rw [percentEncode_cons, List.length_append, length_percentEncodeByte_slash] at swallowed
        rw [if_neg (by simp), percentEncode_nil, List.length_nil]
        omega
      · obtain ⟨least, more⟩ := ih []
        rw [if_pos empty, List.flatten_cons, List.length_append]
        simp only [percentEncode_nil, List.length_nil] at least more
        refine ⟨by omega, fun partly => ?_⟩
        have rest := more fun full => partly ⟨empty, full⟩
        omega
    · obtain ⟨least, more⟩ := ih (current ++ [c])
      rw [percentEncode_append, List.length_append, percentEncode_cons, List.length_append,
        percentEncode_nil, List.length_nil] at least more
      rw [createDirsFrom, if_neg slash, encodedLength_cons slash, fullFrom_cons slash]
      exact ⟨by omega, fun partly => by have := more partly; omega⟩

theorem length_encodedSegments (current raw : Text) :
    (((segments current raw).filter (· ≠ [])).map percentEncode).flatten.length =
      (percentEncode current).length + encodedLength 0 raw := by
  induction raw generalizing current with
  | nil => by_cases empty : current = [] <;> simp [empty, encodedLength]
  | cons c raw ih =>
    by_cases slash : c = byte '/'
    · subst slash
      have rest := ih []
      rw [segments_start, percentEncode_nil, List.length_nil] at rest
      rw [segments_slash, encodedLength_slash]
      by_cases empty : current = []
      · subst empty
        rw [List.filter_cons_of_neg (by simp), rest]
        simp
      · rw [List.filter_cons_of_pos (by simpa using empty), List.map_cons, List.flatten_cons,
          List.length_append, rest]
    · rw [segments_cons slash, ih, percentEncode_append, List.length_append, percentEncode_cons,
        List.length_append,
        percentEncode_nil, List.length_nil, encodedLength_cons slash]
      omega

/-- What is made of a path are encoded nonempty pieces of it. -/
theorem mem_createDirsFrom (escapes : client.escapeString = percentEncode)
    (member : d ∈ client.createDirsFrom current raw) :
    ∃ piece, piece ≠ [] ∧ d = percentEncode piece := by
  induction raw generalizing current with
  | nil =>
    rw [createDirsFrom_nil escapes] at member
    obtain ⟨piece, inside, rfl⟩ := List.mem_map.mp member
    exact ⟨piece, by simpa using (List.mem_filter.mp inside).2, rfl⟩
  | cons c raw ih =>
    unfold createDirsFrom at member
    split at member
    · split at member
      · rename_i nonempty
        rcases List.mem_cons.mp member with rfl | later
        · exact ⟨current, nonempty, congrFun escapes current⟩
        · exact ih later
      · exact ih member
    · exact ih member

theorem createDirsFrom_nonempty (some : current ≠ [] ∨ raw ≠ []) : client.createDirsFrom current raw ≠ [] := by
  induction raw generalizing current with
  | nil => simpa [createDirsFrom] using some
  | cons c raw ih =>
    unfold createDirsFrom
    split
    · split
      · simp
      · exact ih (.inl (by simp))
    · exact ih (.inl (by simp))

end ControllerClient

/-- The segments of a path, up to repeated and trailing separators. -/
def nonemptySegments (path : Text) : List Text := (path.splitOn (byte '/')).filter (· ≠ [])

/-- The directories that lead to a path, parents before children. -/
def directoriesOf (dirs : List Text) : List Text := dirs.inits.tail.map [byte '/'].intercalate

def directoryPaths (path : Text) : List Text := directoriesOf ((nonemptySegments path).map percentEncode)

theorem inits_eq_cons (l : List α) : l.inits = [] :: l.inits.tail := by
  cases l <;> simp

theorem length_directoriesOf (dirs : List Text) : (directoriesOf dirs).length = dirs.length := by
  simp [directoriesOf]

theorem getLast?_directoriesOf {dirs : List Text} (nonempty : dirs ≠ []) :
    (directoriesOf dirs).getLast? = some ([byte '/'].intercalate dirs) := by
  obtain ⟨front, d, rfl⟩ := (List.eq_nil_or_concat' dirs).resolve_left nonempty
  rw [directoriesOf, List.inits_append, inits_eq_cons front]
  simp

theorem length_intercalate (dirs : List Text) :
    ([byte '/'].intercalate dirs).length = dirs.flatten.length + (dirs.length - 1) := by
  induction dirs with
  | nil => rfl
  | cons d rest ih =>
    cases rest with
    | nil => simp
    | cons e rest =>
      rw [List.intercalate_cons_cons, List.length_append, List.length_append, ih]
      simp
      omega

theorem intercalate_concat {dirs : List Text} (some : dirs ≠ []) (d : Text) :
    [byte '/'].intercalate (dirs ++ [d]) = [byte '/'].intercalate dirs ++ [byte '/'] ++ d := by
  induction dirs with
  | nil => exact absurd rfl some
  | cons e rest ih =>
    cases rest with
    | nil => simp
    | cons f rest =>
      have later := ih (by simp)
      rw [List.cons_append, List.cons_append, List.intercalate_cons_cons, ← List.cons_append, later,
        List.intercalate_cons_cons]
      simp

theorem nonemptySegments_append_slash (path : Text) :
    nonemptySegments (path ++ [byte '/']) = nonemptySegments path := by
  rw [nonemptySegments, List.splitOn_append_cons_self]
  simp [nonemptySegments]

namespace ControllerClient

open Request

variable (client : ControllerClient)

/-- The URIs of the loop of `_EnsureWebDAVDirectories`. -/
def totalUris (totaluri : Text) : List Text → List Text
  | [] => []
  | dir :: rest =>
    let totaluri := (if totaluri ≠ [] then totaluri ++ [byte '/'] else totaluri) ++ dir
    totaluri :: totalUris totaluri rest

theorem totalUris_eq {dirs : List Text} (each : ∀ d ∈ dirs, d ≠ []) : totalUris [] dirs = directoriesOf dirs := by
  have further : ∀ done : List Text, (∀ d ∈ done, d ≠ []) →
      totalUris ([byte '/'].intercalate done) dirs = dirs.inits.tail.map fun more =>
        [byte '/'].intercalate (done ++ more) := by
    induction dirs with
    | nil => simp [totalUris]
    | cons dir rest ih =>
      intro done nonempty
      have next : (if [byte '/'].intercalate done ≠ [] then [byte '/'].intercalate done ++ [byte '/'] else
          [byte '/'].intercalate done) ++ dir = [byte '/'].intercalate (done ++ [dir]) := by
        cases done with
        | nil => simp
        | cons d done =>
          have first := nonempty d List.mem_cons_self
          have joined : [byte '/'].intercalate (d :: done) ≠ [] := by cases done <;> simp [first]
          rw [if_pos joined, intercalate_concat (by simp)]
      have both : ∀ d ∈ done ++ [dir], d ≠ [] := by
        simpa [or_imp, forall_and] using ⟨nonempty, each dir List.mem_cons_self⟩
      rw [totalUris, next, ih (fun d later => each d (List.mem_cons_of_mem _ later)) _ both,
        List.inits_cons, List.tail_cons,
        inits_eq_cons rest]
      simp [Function.comp_def]
  simpa [directoriesOf] using further [] (by simp)

/-- The statuses that `_EnsureWebDAVDirectories` accepts. -/
def madeDirectory (http_code : Int) : Bool := http_code = 201 || http_code = 301

def mkcolOf (uri : Text) : OptionValue × OptionValue := (.text (lit "MKCOL"), .text uri)

/-- With a server that makes every directory, the directories of the path are made one after the other,
and nothing else is asked for. -/
def MakesDirectories (relativeuri : Text) (timeout : Double) : Prop :=
  ∀ (h : CurlHandle) trace q, (client.ensureWebDAVDirectories relativeuri timeout).Reaches trace q →
    (∀ event ∈ trace, Obliging madeDirectory event) →
      (h.requests trace).map SentRequest.asked <+: (directoryPaths relativeuri).map
        (fun d => mkcolOf (client.basewebdavuri ++ d)) ∧ (q.Ended → q = .returns () ∧
        (h.requests trace).map SentRequest.asked = (directoryPaths relativeuri).map fun d =>
          mkcolOf (client.basewebdavuri ++ d))

/-- `baseuploaduri` of `SyncUpload_UTF8`. -/
def syncUploadUri (destinationdir : Text) : Text := ensureSlash (client.destination destinationdir)

/-- An upload looks at its destination for the directories it ensures and for this URI. -/
theorem syncUpload_destination {β : Type} [DecidableEq β] (encoding : PathEncoding β)
    (sourcefilename : List β) (scenetype : Text)
    (wincapsPath : Except Thrown Wide) (listing : Listing β) : ∃ upload : Text → Request Unit, ∀ destinationdir,
      client.syncUpload encoding sourcefilename destinationdir scenetype wincapsPath listing =
        (do client.ensureDestination destinationdir; upload (client.syncUploadUri destinationdir)) :=
  ⟨fun baseuploaduri => do
    if scenetype = lit "rttoolbox" ∨ scenetype = lit "cecrobodiaxml" then
      if directoryPart encoding sourcefilename ≠ [] then
        client.uploadDirectory encoding (directoryPart encoding sourcefilename) baseuploaduri listing
    else
      client.uploadSceneDirectory encoding sourcefilename baseuploaduri scenetype wincapsPath listing
      let base ← Program.lift (encoding.toUtf8 (baseFilename encoding.filesep sourcefilename))
      client.uploadFile encoding sourcefilename (baseuploaduri ++ client.escapeString base), fun _ => rfl⟩

/-- The directory that is made last is the one that an upload to the path goes into. -/
def UploadsIntoLast (relativeuri : Text) : Prop := ∀ directory ∈ (directoryPaths relativeuri).getLast?,
  ∃ rest, client.syncUploadUri (lit "mujin:/" ++ relativeuri) = client.basewebdavuri ++ rest ∧
    nonemptySegments rest = nonemptySegments directory

/-- The directories are made before an upload, and no run goes on for ever. -/
def EnsuresDirectories (relativeuri : Text) (timeout : Double) : Prop :=
  client.MakesDirectories relativeuri timeout ∧ client.UploadsIntoLast relativeuri ∧
    ∀ events : Nat → ClientEvent, ∃ n, ∀ q,
      (client.ensureWebDAVDirectories relativeuri timeout).Reaches ((List.range n).map events) q → q.Ended

variable {client} {h : CurlHandle} {relativeuri : Text} {timeout : Double}

/-- One directory is asked for, whatever is restored afterwards. -/
theorem follows_makeDirectory {totaluri : Text} {later : List (OptionValue × OptionValue)}
    (verb : h.options .customRequest = .text (lit "MKCOL")) :
    Follows madeDirectory (fun _ f => f.handle.options .customRequest = .text (lit "MKCOL") ∧ f.asked = later)
      ⟨h, mkcolOf (cString (client.basewebdavuri ++ totaluri)) :: later⟩
      (saveSetter .httpHeader .null (.headers .json) <|
        saveSetter .url .null (.text (cString (client.basewebdavuri ++ totaluri))) do
          act .clearBuffer
          perform
          let http_code ← infoGetter .responseCode
          demand (http_code = 201 || http_code = 301) (mkcolError http_code [])) := by
  have restores : ∀ (o : CurlOption) (f : Following) (ok : Bool), o ≠ .customRequest →
      f.handle.options .customRequest = .text (lit "MKCOL") ∧ f.asked = later →
        (f.handle.step ⟨.restore o .null, ok⟩).options .customRequest = .text (lit "MKCOL") ∧ f.asked = later := by
    intro o f ok other held
    cases ok with
    | false => exact held
    | true => simpa [CurlHandle.step, CurlHandle.setopt, Ne.symm other] using held
  refine Follows.saveSetter (Follows.saveSetter ?_ fun _ f ok held => restores .url f ok (by simp) held)
    fun _ f ok held => restores .httpHeader f ok (by simp) held
  refine Follows.act (by simp) fun _ _ => Follows.reply (show _ = _ :: later from ?_) fun code wanted => ?_
  · simp [CurlHandle.step, CurlHandle.setopt, CurlHandle.sends, SentRequest.asked, mkcolOf, verb]
  · have accepted : (decide (code = 201) || decide (code = 301)) = true := wanted
    rw [accepted]
    exact follows_returns ⟨by simpa [CurlHandle.step, CurlHandle.setopt] using verb, rfl⟩

theorem follows_makeDirectories (dirs : List Text) (totaluri : Text)
    (verb : h.options .customRequest = .text (lit "MKCOL")) :
    Follows madeDirectory (fun _ f => f.asked = [])
      ⟨h, (totalUris totaluri dirs).map fun u => mkcolOf (cString (client.basewebdavuri ++ u))⟩
        (client.makeDirectories totaluri dirs) := by
  induction dirs generalizing h totaluri with
  | nil => exact follows_returns rfl
  | cons dir rest ih =>
    refine Follows.act (by simp) fun _ _ => Follows.bind (follows_makeDirectory verb) fun _ f held => ?_
    obtain ⟨h, asked⟩ := f
    obtain ⟨kept, rfl⟩ := held
    exact ih _ kept

/-- What the client asks for, whatever the handle was. -/
theorem follows_ensureWebDAVDirectories (client : ControllerClient) (h : CurlHandle) (relativeuri : Text)
    (timeout : Double) :
    Follows madeDirectory (fun _ f => f.asked = [])
      ⟨h, (totalUris [] (client.listCreateDirs relativeuri)).map fun u =>
        mkcolOf (cString (client.basewebdavuri ++ u))⟩
      (client.ensureWebDAVDirectories relativeuri timeout) := by
  unfold ensureWebDAVDirectories
  split
  · rename_i empty
    subst empty
    exact follows_returns rfl
  · have leaves : ∀ (x : Unit) (f : Following), f.asked = [] → f.asked = [] := fun _ _ same => same
    refine Follows.saveSetter
      (Follows.saveSetter (Follows.saveSetter (Follows.saveSetter ?_ fun x f _ => leaves x f)
      fun x f _ => leaves x f) fun x f _ => leaves x f) fun x f _ => leaves x f
    exact follows_makeDirectories _ _ (by simp [CurlHandle.setopt])

def makingServer : (a : ClientAction) → a.Answer
  | .setopt _ _ | .restore _ _ | .perform | .seek | .openFile _ | .calls => true
  | .getinfo _ | .tell => some (201 : Int)
  | .readBuffer | .readOutput => ([] : Text)
  | .profile => Json.null
  | .lock | .unlock | .access _ | .clearBuffer => ()

theorem makingServer_obliging (a : ClientAction) : Obliging madeDirectory ⟨a, makingServer a⟩ := by
  cases a <;> simp [Obliging, makingServer, madeDirectory]

/-- Which directories the requests make is read from two lists. -/
theorem makesDirectories_iff : client.MakesDirectories relativeuri timeout ↔
    (totalUris [] (client.listCreateDirs relativeuri)).map
      (fun u => mkcolOf (cString (client.basewebdavuri ++ u))) =
      (directoryPaths relativeuri).map fun d => mkcolOf (client.basewebdavuri ++ d) := by
  constructor
  · intro makes
    let h : CurlHandle := ⟨fun _ => .null, .get⟩
    obtain ⟨n, ended⟩ := Program.answered_ends makingServer (client.ensureWebDAVDirectories relativeuri timeout)
    have ran := Program.run_answered makingServer n (client.ensureWebDAVDirectories relativeuri timeout)
    have obliging : ∀ event ∈ ((client.ensureWebDAVDirectories relativeuri timeout).answered makingServer n).1,
        Obliging madeDirectory event := by
      rintro ⟨a, r⟩ member
      rw [show r = makingServer a from Program.answered_answer member]
      exact makingServer_obliging a
    obtain ⟨rest, asked, follows⟩ :=
      (follows_ensureWebDAVDirectories client h relativeuri timeout).run ran obliging
    obtain ⟨_, -, none⟩ := follows.ended ended
    obtain rfl : rest = [] := none
    rw [List.append_nil] at asked
    exact asked.trans ((makes h _ _ ran obliging).2 ended).2
  · intro same h trace q ran obliging
    obtain ⟨rest, asked, follows⟩ :=
      (follows_ensureWebDAVDirectories client h relativeuri timeout).run ran obliging
    rw [← same]
    refine ⟨⟨rest, asked.symm⟩, fun ended => ?_⟩
    obtain ⟨_, returned, none⟩ := follows.ended ended
    obtain rfl : rest = [] := none
    rw [List.append_nil] at asked
    exact ⟨returned, asked.symm⟩

theorem listCreateDirs_nonempty (client : ControllerClient) (some : relativeuri ≠ []) :
    client.listCreateDirs relativeuri ≠ [] :=
  createDirsFrom_nonempty (.inr some)

theorem listCreateDirs_each (escapes : client.escapeString = percentEncode) :
    ∀ d ∈ client.listCreateDirs relativeuri, d ≠ [] := by
  intro d member
  obtain ⟨piece, nonempty, rfl⟩ := mem_createDirsFrom escapes member
  exact mt percentEncode_eq_nil.mp nonempty

theorem listCreateDirs_full (escapes : client.escapeString = percentEncode) (full : FullSegments relativeuri) :
    client.listCreateDirs relativeuri = (nonemptySegments relativeuri).map percentEncode := by
  rw [listCreateDirs, createDirsFrom_full escapes (fullFrom_start.mpr full), segments_start, nonemptySegments]

/-- With an empty segment the directories are too long. -/
theorem length_listCreateDirs (escapes : client.escapeString = percentEncode)
    (partly : ¬FullSegments relativeuri) :
    ((nonemptySegments relativeuri).map percentEncode).flatten.length <
      (client.listCreateDirs relativeuri).flatten.length := by
  have longer := (length_createDirsFrom escapes [] _).2 (mt fullFrom_start.mp partly)
  have length := length_encodedSegments [] relativeuri
  rw [segments_start] at length
  rw [listCreateDirs, nonemptySegments, length]
  exact longer

theorem nulFree_intercalate {dirs : List Text} (each : ∀ d ∈ dirs, NulFree d) :
    NulFree ([byte '/'].intercalate dirs) := by
  induction dirs with
  | nil => simp [NulFree]
  | cons d rest ih =>
    obtain ⟨first, later⟩ := List.forall_mem_cons.mp each
    cases rest with
    | nil => simpa using first
    | cons e rest =>
      rw [List.intercalate_cons_cons]
      exact nulFree_append.mpr ⟨nulFree_append.mpr ⟨first, by decide⟩, ih later⟩

theorem nulFree_directoriesOf {dirs : List Text} (each : ∀ d ∈ dirs, NulFree d) :
    ∀ u ∈ directoriesOf dirs, NulFree u := by
  intro u member
  obtain ⟨front, inside, rfl⟩ := List.mem_map.mp member
  exact nulFree_intercalate fun d there =>
    each d ((List.mem_inits _ _).mp (List.mem_of_mem_tail inside) |>.subset there)

theorem makesDirectories_full (escapes : client.escapeString = percentEncode) (full : FullSegments relativeuri)
    (nulFree : NulFree client.basewebdavuri) : client.MakesDirectories relativeuri timeout := by
  rw [makesDirectories_iff, totalUris_eq (listCreateDirs_each escapes), listCreateDirs_full escapes full,
    ← directoryPaths]
  refine List.map_congr_left fun u member => ?_
  have clean : NulFree u := by
    refine nulFree_directoriesOf (fun d inside => ?_) u member
    obtain ⟨piece, -, rfl⟩ := List.mem_map.mp inside
    exact not_mem_percentEncode (.inr rfl) piece
  rw [cString_of_nulFree _ (nulFree_append.mpr ⟨nulFree, clean⟩)]

theorem full_of_makesDirectories (escapes : client.escapeString = percentEncode) (some : relativeuri ≠ [])
    (makes : client.MakesDirectories relativeuri timeout) :
    FullSegments relativeuri ∧ NulFree client.basewebdavuri := by
  have same := makesDirectories_iff.mp makes
  rw [totalUris_eq (listCreateDirs_each escapes), directoryPaths] at same
  have dirs := listCreateDirs_nonempty client some
  have sizes := congrArg List.length same
  simp only [List.length_map, length_directoriesOf] at sizes
  have others : (nonemptySegments relativeuri).map percentEncode ≠ [] := by
    intro none
    rw [List.map_eq_nil_iff.mp none, List.length_nil, List.length_eq_zero_iff] at sizes
    exact dirs sizes
  have last := congrArg List.getLast? same
  rw [List.getLast?_map, List.getLast?_map, getLast?_directoriesOf dirs, getLast?_directoriesOf others,
    Option.map_some, Option.map_some,
    Option.some.injEq] at last
  have url := OptionValue.text.inj (Prod.mk.inj last).2
  have clean : NulFree
      (client.basewebdavuri ++ [byte '/'].intercalate ((nonemptySegments relativeuri).map percentEncode)) :=
    url ▸ cString_nulFree _
  have base := (nulFree_append.mp clean).1
  refine ⟨by_contra fun partly => ?_, base⟩
  have plain : NulFree ([byte '/'].intercalate (client.listCreateDirs relativeuri)) := by
    refine nulFree_intercalate fun d inside => ?_
    obtain ⟨piece, -, rfl⟩ := mem_createDirsFrom escapes inside
    exact not_mem_percentEncode (.inr rfl) piece
  rw [cString_of_nulFree _ (nulFree_append.mpr ⟨base, plain⟩)] at url
  have lengths := congrArg List.length (List.append_cancel_left url)
  rw [length_intercalate, length_intercalate, List.length_map] at lengths
  have longer := length_listCreateDirs escapes partly
  omega

theorem nonemptySegments_intercalate {dirs : List Text} (each : ∀ d ∈ dirs, byte '/' ∉ d) :
    nonemptySegments ([byte '/'].intercalate dirs) = dirs.filter (· ≠ []) := by
  cases dirs with
  | nil => rfl
  | cons d rest => rw [nonemptySegments, List.splitOn_intercalate _ each (by simp)]

theorem nonemptySegments_ensureSlash (base path : Text) :
    ∃ rest, ensureSlash (base ++ path) = base ++ rest ∧ nonemptySegments rest = nonemptySegments path := by
  unfold ensureSlash
  split
  · exact ⟨path ++ [byte '/'], by simp, nonemptySegments_append_slash path⟩
  · exact ⟨path, rfl, rfl⟩

theorem uploadsIntoLast_full (escapes : client.escapeString = percentEncode) (full : FullSegments relativeuri) :
    client.UploadsIntoLast relativeuri := by
  intro directory member
  have encoded := encodeFrom_full escapes (fullFrom_start.mpr full)
  rw [segments_start] at encoded
  have clean : ∀ (l : List Text), ∀ d ∈ l.map percentEncode, byte '/' ∉ d := by
    intro l d inside
    obtain ⟨piece, -, rfl⟩ := List.mem_map.mp inside
    exact not_mem_percentEncode (.inl rfl) piece
  have some : (nonemptySegments relativeuri).map percentEncode ≠ [] := by
    intro none
    rw [directoryPaths, none] at member
    cases member
  rw [directoryPaths, getLast?_directoriesOf some, Option.mem_some_iff] at member
  obtain ⟨rest, uri, segments⟩ :=
    nonemptySegments_ensureSlash client.basewebdavuri (client.encodeWithoutSeparator relativeuri)
  refine ⟨rest, ?_, ?_⟩
  · rw [← uri]
    rfl
  · rw [segments, encodeWithoutSeparator, encoded, nonemptySegments_intercalate (clean _), ← member,
      nonemptySegments_intercalate (clean _), nonemptySegments, List.filter_map, List.filter_map,
        List.filter_filter]
    congr 2
    funext segment
    simp [percentEncode_eq_nil]

/-- Exactly where only the last segment is empty, the directories of an upload are there before it. -/
theorem ensuresDirectories_iff (client : ControllerClient) (escapes : client.escapeString = percentEncode)
    (relativeuri : Text)
    (timeout : Double) : client.EnsuresDirectories relativeuri timeout ↔
      relativeuri = [] ∨ FullSegments relativeuri ∧ NulFree client.basewebdavuri := by
  have ends : ∀ events : Nat → ClientEvent, ∃ n, ∀ q,
      (client.ensureWebDAVDirectories relativeuri timeout).Reaches ((List.range n).map events) q → q.Ended := by
    intro events
    obtain ⟨n, stuck | ⟨q, ran, ended⟩⟩ :=
      Program.run_ends (client.ensureWebDAVDirectories relativeuri timeout) events
    · exact ⟨n, fun q ran => by cases stuck.symm.trans ran⟩
    · exact ⟨n, fun p other => Option.some.inj (ran.symm.trans other) ▸ ended⟩
  constructor
  · rintro ⟨makes, -, -⟩
    by_cases empty : relativeuri = []
    · exact .inl empty
    · exact .inr (full_of_makesDirectories escapes empty makes)
  · rintro (rfl | ⟨full, nulFree⟩)
    · refine ⟨makesDirectories_iff.mpr rfl, fun directory member => ?_, ends⟩
      cases member
    · exact ⟨makesDirectories_full escapes full nulFree, uploadsIntoLast_full escapes full, ends⟩

/-- A directory in a directory. -/
theorem ensuresDirectories_nested :
    { (default : ControllerClient) with escapeString := percentEncode }.EnsuresDirectories
    [byte 'a', byte '/', byte 'b'] (Double.ofInt 3) :=
  (ensuresDirectories_iff _ rfl _ _).mpr
    (.inr ⟨by simp [FullSegments, List.splitOn_cons_eq_if_modifyHead, byte], List.not_mem_nil⟩)

/-- The second separator in a row becomes part of the name of a directory. -/
theorem makes_separator :
    ¬∀ (client : ControllerClient) (relativeuri : Text) (timeout : Double),
      client.escapeString = percentEncode → client.EnsuresDirectories relativeuri timeout := by
  intro each
  have makes :=
    (each { (default : ControllerClient) with escapeString := percentEncode }
      [byte 'a', byte '/', byte '/', byte 'b'] (Double.ofInt 3) rfl).1
  have full := (full_of_makesDirectories rfl (by simp) makes).1
  exact absurd rfl (full [] (by simp [List.splitOn_cons_eq_if_modifyHead, byte]))

end ControllerClient

end MujinClient
