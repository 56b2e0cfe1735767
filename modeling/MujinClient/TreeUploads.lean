import MujinClient.PathSegments
import MujinClient.Plans

/-! A directory on disk and what its upload asks for. -/
namespace MujinClient

open Transition Request

abbrev EntryName := { name : Text // name ≠ [] ∧ byte '/' ∉ name ∧ NulFree name }

/-- The entries of a directory in the order in which they are enumerated. -/
inductive DirectoryTree where
  | ended
  | directory (name : EntryName) (inside rest : DirectoryTree)
  | file (name : EntryName) (rest : DirectoryTree)
  /-- Neither a directory nor a regular file. -/
  | other (name : EntryName) (rest : DirectoryTree)

namespace DirectoryTree

def names : DirectoryTree → List EntryName
  | ended => []
  | directory name _ rest | file name rest | other name rest => name :: rest.names

/-- A directory has one entry of a name. -/
def Distinct : DirectoryTree → Prop
  | ended => True
  | directory name inside rest => name ∉ rest.names ∧ inside.Distinct ∧ rest.Distinct
  | file name rest | other name rest => name ∉ rest.names ∧ rest.Distinct

def HasDirectory : DirectoryTree → List EntryName → Prop
  | ended, _ => False
  | directory name inside rest, path =>
    path = [name] ∨ (∃ below, path = name :: below ∧ inside.HasDirectory below) ∨ rest.HasDirectory path
  | file _ rest, path | other _ rest, path => rest.HasDirectory path

def HasFile : DirectoryTree → List EntryName → Prop
  | ended, _ => False
  | directory name inside rest, path => (∃ below, path = name :: below ∧ inside.HasFile below) ∨ rest.HasFile path
  | file name rest, path => path = [name] ∨ rest.HasFile path
  | other _ rest, path => rest.HasFile path

/-- `path / filename` of `boost::filesystem`. -/
def joinPath (directory filename : Text) : Text :=
  if directory.getLast? = some (byte '/') then directory ++ filename else directory ++ byte '/' :: filename

def listing (copydir : Text) : DirectoryTree → ControllerClient.Listing Byte
  | ended => .ended
  | directory name inside rest =>
    .directory (joinPath copydir name) name (inside.listing (joinPath copydir name)) (rest.listing copydir)
  | file name rest => .file (joinPath copydir name) name (rest.listing copydir)
  | other name rest => .other name (rest.listing copydir)

end DirectoryTree

/-- What a request of an upload is for. -/
inductive TreeRequest where
  | makesDirectory (uri : Text)
  /-- A form with the file that was opened last, for this URI under the root. -/
  | uploads (filename uri : Text)
  | other
  deriving DecidableEq

namespace ControllerClient

variable (client : ControllerClient)

def treeRequest (opened : Text) (request : SentRequest) : TreeRequest :=
  if request.verb = .text (lit "MKCOL") then
    match request.url with
    | .text uri => .makesDirectory uri
    | _ => .other
  else if request.kind = .multipart ∧ request.verb = .null ∧
    request.url = .text (cString (client.baseuri ++ lit "fileupload")) then
    match request.body with
    | [.form parts] => .uploads opened (client.basewebdavuri ++ formFilename parts)
    | _ => .other
  else .other

/-- An answer of a disk that can be read and a server that does what it is asked. -/
def Cooperates (h : CurlHandle) : (a : ClientAction) → a.Answer → Prop
  | .setopt _ _, ok | .restore _ _, ok | .perform, ok | .seek, ok | .openFile _, ok => ok = true
  | .getinfo _, value => ∃ code, value = some code ∧
      if h.options .customRequest = .text (lit "MKCOL") then code = 201 ∨ code = 301 else code = 200
  | .tell, length => length.isSome
  | .readBuffer, body => body = [] ∨ (readJson clientToken (cString body)).isSome
  | _, _ => True

/-- The handle, and the file that was opened last. -/
structure Uploading where
  handle : CurlHandle
  opened : Text

/-- What is asked for, while the answers are good. -/
def uploader : Program.Reporter ClientAction.Answer Uploading TreeRequest where
  next s a r := ⟨s.handle.step ⟨a, r⟩, match a with | .openFile filename => filename | _ => s.opened⟩
  good s := Cooperates s.handle
  report s a := if a = .perform then some (client.treeRequest s.opened s.handle.sends) else none

/-- The directory that an upload makes. Behind a separator it keeps its name. -/
def uploadTarget (copydir rawuri : Text) : Text :=
  if rawuri.getLast? = some (byte '/') then
    if copydir.getLast? = some (byte '/') then rawuri.dropLast
    else rawuri ++ percentEncode (baseFilename (byte '/') copydir)
  else rawuri

/-- A directory with a separator behind its name goes into one with a separator only. -/
def AcceptsUpload (copydir rawuri : Text) : Prop :=
  rawuri ≠ [] ∧ copydir ≠ [] ∧ (copydir.getLast? = some (byte '/') → rawuri.getLast? = some (byte '/'))

/-- Where a path under a directory is on disk. -/
def localPath (copydir : Text) (path : List EntryName) : Text :=
  path.foldl (fun directory (name : EntryName) => DirectoryTree.joinPath directory name.val) copydir

/-- Where it is on the controller. -/
def uriOf (uri : Text) (path : List EntryName) : Text :=
  uri ++ path.flatMap fun (name : EntryName) => byte '/' :: percentEncode name.val

/-- The requests are those of the tree. -/
structure UploadsRequests (copydir uri : Text) (tree : DirectoryTree) (sent : List TreeRequest) : Prop where
  /-- Every directory is made once, the root among them. -/
  directories : ∀ path, path = [] ∨ tree.HasDirectory path → sent.count (.makesDirectory (uriOf uri path)) = 1
  files : ∀ path, tree.HasFile path → sent.count (.uploads (localPath copydir path) (uriOf uri path)) = 1
  nothingElse : ∀ request ∈ sent,
    (∃ path, (path = [] ∨ tree.HasDirectory path) ∧ request = .makesDirectory (uriOf uri path)) ∨
    ∃ path, tree.HasFile path ∧ request = .uploads (localPath copydir path) (uriOf uri path)
  /-- What is in a directory comes after it. -/
  inside : ∀ before after request, sent = before ++ request :: after → ∀ directory name below,
    request = .makesDirectory (uriOf uri (directory ++ name :: below)) ∨
      request = .uploads (localPath copydir (directory ++ name :: below))
        (uriOf uri (directory ++ name :: below)) →
        .makesDirectory (uriOf uri directory) ∈ before
  distinct : ∀ path other, tree.HasFile path → tree.HasFile other → uriOf uri path = uriOf uri other → path = other

/-- Every run with good answers returns and has asked for the tree, and no run goes on for ever. -/
def UploadsTree (copydir rawuri : Text) (tree : DirectoryTree) : Prop :=
  (∀ s trace q, (client.uploadDirectory utf8Paths copydir rawuri (tree.listing copydir)).Reaches trace q →
    client.uploader.Good s trace → q.Ended →
      q = .returns () ∧ UploadsRequests copydir (uploadTarget copydir rawuri) tree
        (client.uploader.reports s trace)) ∧ ∀ events : Nat → ClientEvent, ∃ n, ∀ q,
      (client.uploadDirectory utf8Paths copydir rawuri (tree.listing copydir)).Reaches
        ((List.range n).map events) q → q.Ended

section Requests

variable {client} {α : Type} {s : Uploading} {plan : List TreeRequest} {post : α → Uploading → Prop}

theorem uploader_quiet {a : ClientAction} (quiet : a ≠ .perform) (s : Uploading) :
    client.uploader.report s a = none := if_neg quiet

def PlainVerb (s : Uploading) : Prop := s.handle.options .customRequest = .null

theorem fulfils_act {a : ClientAction} {f : a.Answer → Request α} (quiet : a ≠ .perform)
    (rest : ∀ r, Cooperates s.handle a r → Program.Fulfils client.uploader post (client.uploader.next s a r)
      plan (f r)) :
    Program.Fulfils client.uploader post s plan (act a >>= f) :=
  Program.Fulfils.silent (uploader_quiet quiet s) rest

theorem fulfils_setter {o : CurlOption} {v : OptionValue} {f : Unit → Request α}
    (rest : Program.Fulfils client.uploader post ⟨s.handle.setopt o v, s.opened⟩ plan (f ())) :
    Program.Fulfils client.uploader post s plan (setter o v >>= f) := by
  refine Program.Fulfils.silent (uploader_quiet (by simp) s) fun ok good => ?_
  obtain rfl : ok = true := good
  exact rest

theorem fulfils_saveSetter {o : CurlOption} {curvalue newvalue : OptionValue} {p : Request α}
    {mid : α → Uploading → Prop}
    (scope : Program.Fulfils client.uploader mid ⟨s.handle.setopt o newvalue, s.opened⟩ plan p)
    (leaves : ∀ x t, mid x t → post x ⟨t.handle.setopt o curvalue, t.opened⟩) :
    Program.Fulfils client.uploader post s plan (saveSetter o curvalue newvalue p) := by
  refine (fulfils_setter scope).guarded (uploader_quiet (by simp)) fun x t ok held good => ?_
  obtain rfl : ok = true := good
  exact leaves x t held

/-- A transfer and its status. -/
theorem fulfils_reply {f : Int → Request α} {request : TreeRequest}
    (sent : client.treeRequest s.opened s.handle.sends = request)
    (rest : ∀ code, (if s.handle.options .customRequest = .text (lit "MKCOL") then code = 201 ∨
      code = 301 else code = 200) →
      Program.Fulfils client.uploader post s plan (f code)) :
    Program.Fulfils client.uploader post s (request :: plan)
    (do perform; let code ← infoGetter .responseCode; f code) := by
  have said : client.uploader.report s .perform = some request := by
    rw [← sent]
    rfl
  refine Program.Fulfils.reported said fun ok good => ?_
  obtain rfl : ok = true := good
  refine Program.Fulfils.silent (uploader_quiet (by simp) _) fun value good => ?_
  obtain ⟨code, rfl, wanted⟩ := good
  exact rest code wanted

theorem fulfils_saveSetter_plain {o : CurlOption} {curvalue newvalue : OptionValue} {p : Request α}
    (other : o ≠ .customRequest)
    (scope : Program.Fulfils client.uploader (fun _ t => PlainVerb t) ⟨s.handle.setopt o newvalue, s.opened⟩
      plan p) :
    Program.Fulfils client.uploader (fun _ t => PlainVerb t) s plan (saveSetter o curvalue newvalue p) := by
  refine fulfils_saveSetter scope fun _ t plain => ?_
  unfold PlainVerb at plain ⊢
  simpa [CurlHandle.setopt, Ne.symm other] using plain

theorem plainVerb_setopt {o : CurlOption} {v : OptionValue} (other : o ≠ .customRequest) (plain : PlainVerb s) :
    PlainVerb ⟨s.handle.setopt o v, s.opened⟩ := by
  unfold PlainVerb at plain ⊢
  simpa [CurlHandle.setopt, Ne.symm other] using plain

theorem fulfils_saveSetter_any {o : CurlOption} {curvalue newvalue : OptionValue} {p : Request α}
    (scope : Program.Fulfils client.uploader (fun _ _ => True) ⟨s.handle.setopt o newvalue, s.opened⟩ plan p)
    (leaves : ∀ x (t : Uploading), post x ⟨t.handle.setopt o curvalue, t.opened⟩) :
    Program.Fulfils client.uploader post s plan (saveSetter o curvalue newvalue p) :=
  fulfils_saveSetter scope fun x t _ => leaves x t

theorem fulfils_mkcol (s : Uploading) (uri : Text) :
    Program.Fulfils client.uploader (fun _ t => PlainVerb t) s [.makesDirectory (cString uri)]
      (saveSetter .customRequest .null (.text (lit "MKCOL")) <|
        saveSetter .httpHeader .null (.headers .json) <|
          saveSetter .url .null (.text (cString uri)) do
            perform
            let http_code ← infoGetter .responseCode
            demand (http_code = 201 || http_code = 301) (mkcolError http_code (lit " for " ++ uri))) := by
  refine fulfils_saveSetter_any ?_ fun _ t => by simp [PlainVerb, CurlHandle.setopt]
  refine fulfils_saveSetter_any (fulfils_saveSetter_any ?_ fun _ _ => trivial) fun _ _ => trivial
  refine fulfils_reply ?_ fun code wanted => ?_
  · simp [treeRequest, CurlHandle.sends, CurlHandle.setopt]
  · rw [if_pos (by simp [CurlHandle.setopt])] at wanted
    have accepted : (decide (code = 201) || decide (code = 301)) = true := by simpa using wanted
    rw [accepted]
    exact Program.fulfils_returns trivial

/-- The directory is made first, then what is in it. -/
theorem fulfils_createAndFill {copydir rawuri uri : Text} {fill : Text → Request Unit}
    (known : client.uploadedDirectory utf8Paths copydir rawuri = .ok uri)
    (filled : ∀ t, PlainVerb t → Program.Fulfils client.uploader (fun _ t => PlainVerb t) t plan (fill uri)) :
    Program.Fulfils client.uploader (fun _ t => PlainVerb t) s (.makesDirectory (cString uri) :: plan)
      (client.createAndFill utf8Paths copydir rawuri fill) := by
  rw [createAndFill, known]
  refine fulfils_saveSetter_plain (o := .writeFunction) (by simp) ?_
  refine fulfils_saveSetter_plain (by simp) ?_
  exact (fulfils_mkcol _ uri).bind fun _ t plain => filled t plain

theorem fulfils_contentLength {f : Int → Request α}
    (rest : ∀ n, Program.Fulfils client.uploader post s plan (f n)) :
    Program.Fulfils client.uploader post s plan (contentLength >>= f) := by
  refine Program.Fulfils.silent (uploader_quiet (by simp) s) fun ready good => ?_
  obtain rfl : ready = true := good
  refine Program.Fulfils.silent (uploader_quiet (by simp) _) fun length good => ?_
  obtain ⟨n, rfl⟩ := Option.isSome_iff_exists.mp good
  refine Program.Fulfils.silent (uploader_quiet (by simp) _) fun again good => ?_
  obtain rfl : again = true := good
  exact rest n

theorem replyToPost_good {platform : Platform} {desturi body : Text}
    (good : body = [] ∨ (readJson clientToken (cString body)).isSome) :
    ∃ v, replyToPost platform desturi 200 200 body = .ok v := by
  unfold replyToPost parseJsonStream
  by_cases empty : body = []
  · exact ⟨(200, .object []), by simp [empty]; rfl⟩
  · obtain ⟨v, read⟩ := Option.isSome_iff_exists.mp (good.resolve_left empty)
    exact ⟨(200, v), by simp [empty, read]⟩

theorem fulfils_callPostForm {desturi : Text} {data : List FormPart} {timeout : Double} (plain : PlainVerb s) :
    Program.Fulfils client.uploader (fun _ t => PlainVerb t) s
      [client.treeRequest s.opened (formOf s.handle desturi data)]
      (client.callPostForm desturi data 200 timeout) := by
  unfold callPostForm
  refine fulfils_saveSetter_plain (by simp)
    (fulfils_saveSetter_plain (by simp) (fulfils_act (by simp) fun _ _ => ?_))
  refine fulfils_saveSetter_plain (by simp) (fulfils_saveSetter_plain (by simp) (fulfils_saveSetter_plain (by simp)
    (fulfils_saveSetter_plain (by simp) ?_)))
  refine fulfils_reply ?_ fun code wanted => ?_
  · simp [formOf, CurlHandle.sends, CurlHandle.setopt, RequestKind.after, uploader, CurlHandle.step]
  · unfold PlainVerb at plain
    have success : code = 200 := by simpa [CurlHandle.setopt, uploader, CurlHandle.step, plain] using wanted
    subst success
    refine fulfils_act (by simp) fun (body : Text) good => ?_
    obtain ⟨v, read⟩ : ∃ v, replyToPost client.platform desturi 200 200 body = .ok v := replyToPost_good good
    rw [read]
    exact Program.fulfils_returns (by simpa [PlainVerb, CurlHandle.setopt, uploader, CurlHandle.step] using plain)

theorem fulfils_uploadFile {filename uri : Text} (under : client.basewebdavuri <+: uri) (plain : PlainVerb s) :
    Program.Fulfils client.uploader (fun _ t => PlainVerb t) s
      [.uploads (cString filename) (client.basewebdavuri ++ cString (uri.drop client.basewebdavuri.length))]
      (client.uploadFile utf8Paths filename uri) := by
  have inside : client.basewebdavuri.isPrefixOf uri = true := List.isPrefixOf_iff_prefix.mpr under
  rw [uploadFile, inside]
  refine fulfils_act (a := .openFile (cString filename)) (by simp) fun ok good => ?_
  obtain rfl : ok = true := good
  refine fulfils_contentLength fun length => ?_
  refine fulfils_saveSetter_plain (by simp) ?_
  have opened : PlainVerb ⟨s.handle, cString filename⟩ := plain
  have kept : PlainVerb ⟨s.handle.setopt .readFunction (.function .readIStream), cString filename⟩ :=
    plainVerb_setopt (by simp) opened
  have sent : Program.Fulfils client.uploader (fun _ t => PlainVerb t) _ _
      (client.callPostForm (client.baseuri ++ lit "fileupload")
    (fileParts (uri.drop client.basewebdavuri.length) (.stream length)) 200 (Double.ofInt 0)) :=
      fulfils_callPostForm kept
  have names : client.treeRequest (cString filename)
      (formOf (s.handle.setopt .readFunction (.function .readIStream))
      (client.baseuri ++ lit "fileupload") (fileParts (uri.drop client.basewebdavuri.length) (.stream length))) =
        .uploads (cString filename) (client.basewebdavuri ++ cString (uri.drop client.basewebdavuri.length)) := by
    unfold PlainVerb at kept
    rw [treeRequest, formOf, kept]
    simp [formFilename_fileParts]
  rw [names] at sent
  exact sent.bind fun _ t plain => Program.fulfils_returns plain

def entryUri (uri : Text) (name : EntryName) : Text := uri ++ byte '/' :: percentEncode name

/-- The requests for the entries of a directory, one after the other. -/
def entriesSent (client : ControllerClient) (copydir uri : Text) : DirectoryTree → List TreeRequest
  | .ended => []
  | .directory name inside rest =>
    .makesDirectory (cString (entryUri uri name)) ::
      entriesSent client (DirectoryTree.joinPath copydir name) (entryUri uri name) inside ++
        entriesSent client copydir uri rest
  | .file name rest =>
    .uploads (cString (DirectoryTree.joinPath copydir name))
        (client.basewebdavuri ++ cString ((entryUri uri name).drop client.basewebdavuri.length)) ::
      entriesSent client copydir uri rest
  | .other _ rest => entriesSent client copydir uri rest

theorem getLast?_joinPath (copydir : Text) (name : EntryName) :
    (DirectoryTree.joinPath copydir name).getLast? = name.val.getLast? := by
  obtain ⟨name, some, -, -⟩ := name
  unfold DirectoryTree.joinPath
  split
  · rw [List.getLast?_append_of_ne_nil _ some]
  · rw [List.getLast?_append_of_ne_nil _ (by simp), List.getLast?_cons_of_ne_nil some]

theorem getLast?_ne_of_not_mem {t : Text} {b : Byte} (absent : b ∉ t) : t.getLast? ≠ some b :=
  fun last => absent (List.mem_of_getLast? last)

theorem percentEncode_ne_nil (name : EntryName) : percentEncode name ≠ [] :=
  mt percentEncode_eq_nil.mp name.property.1

/-- A directory in a directory keeps the URI it is given. -/
theorem uploadedDirectory_entry (client : ControllerClient) (copydir uri : Text) (name : EntryName) :
    client.uploadedDirectory utf8Paths (DirectoryTree.joinPath copydir name)
    (entryUri uri name) = .ok (entryUri uri name) := by
  have last : (entryUri uri name).getLast? ≠ some (byte '/') := by
    rw [entryUri, List.getLast?_append_of_ne_nil _ (by simp),
      List.getLast?_cons_of_ne_nil (percentEncode_ne_nil name)]
    exact getLast?_ne_of_not_mem (not_mem_percentEncode (.inl rfl) _)
  have path : (DirectoryTree.joinPath copydir name).getLast? ≠ some utf8Paths.filesep := by
    rw [getLast?_joinPath]
    exact getLast?_ne_of_not_mem name.property.2.1
  have some : ¬(entryUri uri name = [] ∨ DirectoryTree.joinPath copydir name = []) := by
    rintro (none | none)
    · simp [entryUri] at none
    · have := getLast?_joinPath copydir name
      rw [none] at this
      exact name.property.1 (List.getLast?_eq_none_iff.mp this.symm)
  rw [uploadedDirectory, if_neg some, if_neg last, if_neg path]

/-- What comes behind a separator is under the root. -/
def Under (client : ControllerClient) (uri : Text) : Prop := client.basewebdavuri <+: uri ++ [byte '/']

theorem Under.entry {uri : Text} (under : client.Under uri) (name : EntryName) :
    client.basewebdavuri <+: entryUri uri name := by
  have longer : uri ++ [byte '/'] <+: entryUri uri name := ⟨percentEncode name, by simp [entryUri]⟩
  exact under.trans longer

theorem Under.inside {uri : Text} (under : client.Under uri) (name : EntryName) :
    client.Under (entryUri uri name) :=
  (under.entry name).trans (List.prefix_append _ _)

/-- The entries are asked for in their order. The induction is on the tree. -/
theorem fulfils_uploadEntries (escapes : client.escapeString = percentEncode) (tree : DirectoryTree)
    {copydir uri : Text} (under : client.Under uri) (plain : PlainVerb s) :
    Program.Fulfils client.uploader (fun _ t => PlainVerb t) s (client.entriesSent copydir uri tree)
      (client.uploadEntries utf8Paths uri (tree.listing copydir)) := by
  induction tree generalizing copydir uri s with
  | ended => exact Program.fulfils_returns plain
  | directory name inside rest first second =>
    have steps : client.uploadEntries utf8Paths uri ((DirectoryTree.directory name inside rest).listing copydir) =
      (client.createAndFill utf8Paths (DirectoryTree.joinPath copydir name)
        (uri ++ byte '/' :: client.escapeString name)
        fun newuri => client.uploadEntries utf8Paths newuri
          (inside.listing (DirectoryTree.joinPath copydir name))) >>=
          fun _ => client.uploadEntries utf8Paths uri (rest.listing copydir) := rfl
    rw [steps, entriesSent, escapes]
    refine Program.Fulfils.bind ?_ fun _ t plain => second under plain
    exact fulfils_createAndFill (uploadedDirectory_entry client copydir uri name) fun t plain =>
      first (under.inside name) plain
  | file name rest ih =>
    have steps : client.uploadEntries utf8Paths uri ((DirectoryTree.file name rest).listing copydir) =
      client.uploadFile utf8Paths (DirectoryTree.joinPath copydir name)
        (uri ++ byte '/' :: client.escapeString name) >>=
        fun _ => client.uploadEntries utf8Paths uri (rest.listing copydir) := rfl
    rw [steps, entriesSent, escapes, ← List.singleton_append]
    refine Program.Fulfils.bind ?_ fun _ t plain => ih under plain
    exact fulfils_uploadFile (under.entry name) plain
  | other name rest ih => exact ih under plain

theorem uploadedDirectory_target (client : ControllerClient) (escapes : client.escapeString = percentEncode)
    {copydir rawuri : Text} (accepts : AcceptsUpload copydir rawuri) :
    client.uploadedDirectory utf8Paths copydir rawuri = .ok (uploadTarget copydir rawuri) := by
  obtain ⟨uri, directory, separated⟩ := accepts
  have filesep : utf8Paths.filesep = byte '/' := rfl
  rw [uploadedDirectory, if_neg (not_or.mpr ⟨uri, directory⟩), filesep, uploadTarget]
  by_cases behind : rawuri.getLast? = some (byte '/')
  · rw [if_pos behind, if_pos behind]
    by_cases slash : copydir.getLast? = some (byte '/')
    · rw [if_neg (not_not.mpr slash), if_pos slash]
    · rw [if_pos slash, if_neg slash, escapes]
      rfl
  · rw [if_neg behind, if_neg fun slash => behind (separated slash), if_neg behind]

theorem dropLast_slash {t : Text} {b : Byte} (last : t.getLast? = some b) : t.dropLast ++ [b] = t :=
  List.dropLast_append_getLast? b last

theorem under_target {copydir rawuri : Text} (under : client.basewebdavuri <+: rawuri) :
    client.Under (uploadTarget copydir rawuri) := by
  unfold uploadTarget Under
  split
  · rename_i behind
    split
    · rwa [dropLast_slash behind]
    · exact under.trans ((List.prefix_append _ _).trans (List.prefix_append _ _))
  · exact under.trans (List.prefix_append _ _)

/-- All requests of an upload. -/
def treeSent (client : ControllerClient) (copydir rawuri : Text) (tree : DirectoryTree) : List TreeRequest :=
  .makesDirectory (cString (uploadTarget copydir rawuri)) :: client.entriesSent copydir
    (uploadTarget copydir rawuri) tree

theorem fulfils_uploadDirectory (escapes : client.escapeString = percentEncode) (tree : DirectoryTree)
    {copydir rawuri : Text}
    (under : client.basewebdavuri <+: rawuri) (accepts : AcceptsUpload copydir rawuri) (s : Uploading) :
    Program.Fulfils client.uploader (fun _ t => PlainVerb t) s (client.treeSent copydir rawuri tree)
      (client.uploadDirectory utf8Paths copydir rawuri (tree.listing copydir)) :=
  fulfils_createAndFill (uploadedDirectory_target client escapes accepts) fun _ plain =>
    fulfils_uploadEntries escapes tree (under_target under) plain

theorem exists_cooperates (h : CurlHandle) (a : ClientAction) : ∃ r, Cooperates h a r := by
  cases a with
  | setopt | restore | perform | seek | openFile => exact ⟨true, rfl⟩
  | getinfo =>
    refine ⟨some (if h.options .customRequest = .text (lit "MKCOL") then 201 else 200), _, rfl, ?_⟩
    split
    · exact .inl rfl
    · rfl
  | tell => exact ⟨some (0 : Int), rfl⟩
  | readBuffer => exact ⟨([] : Text), .inl rfl⟩
  | readOutput => exact ⟨([] : Text), trivial⟩
  | profile => exact ⟨Json.null, trivial⟩
  | calls => exact ⟨true, trivial⟩
  | lock | unlock | access | clearBuffer => exact ⟨(), trivial⟩

/-- What the runs upload is read from the list of what a whole run sends. -/
theorem uploadsTree_iff (escapes : client.escapeString = percentEncode) (tree : DirectoryTree)
    {copydir rawuri : Text}
    (under : client.basewebdavuri <+: rawuri) (accepts : AcceptsUpload copydir rawuri) :
    client.UploadsTree copydir rawuri tree ↔
      UploadsRequests copydir (uploadTarget copydir rawuri) tree (client.treeSent copydir rawuri tree) := by
  constructor
  · rintro ⟨sends, -⟩
    let s : Uploading := ⟨⟨fun _ => .null, .get⟩, []⟩
    have fulfils := fulfils_uploadDirectory escapes tree under accepts s
    obtain ⟨trace, q, ran, good, ended⟩ :=
      Program.exists_good_run (R := client.uploader) (fun s a => exists_cooperates s.handle a) s
      (client.uploadDirectory utf8Paths copydir rawuri (tree.listing copydir))
    obtain ⟨-, -, reported⟩ := fulfils.ended ran good ended
    rw [← reported]
    exact (sends s trace q ran good ended).2
  · intro requests
    refine ⟨fun s trace q ran good ended => ?_, fun events => ?_⟩
    · obtain ⟨x, returned, reported⟩ := (fulfils_uploadDirectory escapes tree under accepts s).ended ran good ended
      exact ⟨returned, reported ▸ requests⟩
    · obtain ⟨n, stuck | ⟨q, ran, ended⟩⟩ :=
        Program.run_ends (client.uploadDirectory utf8Paths copydir rawuri (tree.listing copydir)) events
      · exact ⟨n, fun q ran => by cases stuck.symm.trans ran⟩
      · exact ⟨n, fun p other => Option.some.inj (ran.symm.trans other) ▸ ended⟩

end Requests

end ControllerClient

end MujinClient
