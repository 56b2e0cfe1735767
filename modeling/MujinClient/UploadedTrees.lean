import MujinClient.TreeUploads

/-! What the upload of a directory makes on the controller. -/
namespace MujinClient

open Transition Request

namespace ControllerClient

/-- What follows an encoded name starts with a separator. -/
theorem encoded_inj {s t x y : Text} (same : percentEncode s ++ x = percentEncode t ++ y)
    (left : x.head?.all (· = byte '/')) (right : y.head?.all (· = byte '/')) : s = t ∧ x = y := by
  have untilSlash (s x : Text) (start : x.head?.all (· = byte '/')) : (percentEncode s ++ x).takeWhile
      (· ≠ byte '/') = percentEncode s := by
    rw [List.takeWhile_append_of_pos fun b member => by
      simpa using ne_of_mem_of_not_mem member (not_mem_percentEncode (.inl rfl) s)]
    cases x with
    | nil => simp
    | cons b x => simp_all
  have names := congrArg (List.takeWhile (· ≠ byte '/')) same
  rw [untilSlash s x left, untilSlash t y right] at names
  obtain rfl := percentEncode_injective names
  exact ⟨rfl, List.append_cancel_left same⟩

theorem uriOf_injective (uri : Text) : Function.Injective (uriOf uri) := by
  have starts (path : List EntryName) : (path.flatMap fun name =>
      byte '/' :: percentEncode name.val).head?.all (· = byte '/') := by
    cases path <;> simp
  intro path other same
  have tails := List.append_cancel_left same
  induction path generalizing other with
  | nil =>
    cases other with
    | nil => rfl
    | cons name other => simp at tails
  | cons name path ih =>
    cases other with
    | nil => simp at tails
    | cons next other =>
      rw [List.flatMap_cons, List.flatMap_cons, List.cons_append, List.cons_append] at tails
      obtain ⟨first, later⟩ := encoded_inj (List.cons.inj tails).2 (starts path) (starts other)
      rw [Subtype.ext first, ih (congrArg (uri ++ ·) later) later]

end ControllerClient

/-- An entry that is uploaded, with its path. -/
inductive TreeItem where
  | directory (path : List EntryName)
  | file (path : List EntryName)

namespace TreeItem

def path : TreeItem → List EntryName
  | directory path | file path => path

/-- The same in a directory of this name. -/
def below (name : EntryName) : TreeItem → TreeItem
  | directory path => directory (name :: path)
  | file path => file (name :: path)

@[simp] theorem path_below (name : EntryName) (item : TreeItem) : (item.below name).path = name :: item.path := by
  cases item <;> rfl

def request (copydir uri : Text) : TreeItem → TreeRequest
  | directory path => .makesDirectory (ControllerClient.uriOf uri path)
  | file path => .uploads (ControllerClient.localPath copydir path) (ControllerClient.uriOf uri path)

theorem request_injective (copydir uri : Text) : Function.Injective (request copydir uri) := by
  intro item other same
  cases item with
  | directory path =>
    cases other with
    | directory next => rw [ControllerClient.uriOf_injective uri (TreeRequest.makesDirectory.inj same)]
    | file next => cases same
  | file path =>
    cases other with
    | directory next => cases same
    | file next => rw [ControllerClient.uriOf_injective uri (TreeRequest.uploads.inj same).2]

/-- An entry comes after the directories it is in. -/
def Ordered (items : List TreeItem) : Prop := ∀ before item after, items = before ++ item :: after →
  ∀ directory name below, directory ≠ [] → item.path = directory ++ name :: below →
    TreeItem.directory directory ∈ before

theorem single_ne_below {directory rest : List EntryName} (some : directory ≠ []) :
    [name] ≠ directory ++ next :: rest := by
  intro path
  have lengths := congrArg List.length path
  have positive := List.length_pos_iff.mpr some
  simp only [List.length_append, List.length_cons, List.length_nil] at lengths
  omega

theorem Ordered.append {items more : List TreeItem} (first : Ordered items) (second : Ordered more) :
    Ordered (items ++ more) := by
  intro before item after shape directory name below some path
  rcases List.append_eq_append_iff.mp shape with ⟨between, rfl, tail⟩ | ⟨between, rfl, tail⟩
  · exact List.mem_append_right _ (second between item after tail directory name below some path)
  · cases between with
    | nil =>
      rw [List.nil_append] at tail
      have inside := second [] item after tail.symm directory name below some path
      cases inside
    | cons next between =>
      obtain ⟨rfl, -⟩ := List.cons.inj tail
      exact first before item between rfl directory name below some path

theorem Ordered.inside {items : List TreeItem} (ordered : Ordered items) (name : EntryName) :
    Ordered (.directory [name] :: items.map (below name)) := by
  intro before item after shape directory next rest some path
  cases before with
  | nil =>
    obtain ⟨rfl, -⟩ := List.cons.inj shape
    exact absurd path (single_ne_below some)
  | cons first before =>
    obtain ⟨rfl, tail⟩ := List.cons.inj shape
    obtain ⟨earlier, later, rfl, rfl, split⟩ := List.map_eq_append_iff.mp tail
    obtain ⟨original, others, rfl, rfl, rfl⟩ := List.map_eq_cons_iff.mp split
    obtain ⟨top, directory, rfl⟩ := List.exists_cons_of_ne_nil some
    rw [path_below, List.cons_append] at path
    obtain ⟨rfl, along⟩ := List.cons.inj path
    cases directory with
    | nil => exact List.mem_cons_self
    | cons second directory =>
      have member := ordered earlier original others rfl (second :: directory) next rest (by simp) along
      exact List.mem_cons_of_mem _ (List.mem_map.mpr ⟨_, member, rfl⟩)

end TreeItem

namespace DirectoryTree

/-- The entries with directories before what is in them. -/
def items : DirectoryTree → List TreeItem
  | ended => []
  | directory name inside rest => .directory [name] :: inside.items.map (TreeItem.below name) ++ rest.items
  | file name rest => .file [name] :: rest.items
  | other _ rest => rest.items

theorem ordered_items (tree : DirectoryTree) : TreeItem.Ordered tree.items := by
  have single (name : EntryName) : TreeItem.Ordered [.file [name]] := by
    intro before item after shape directory next below some path
    cases before with
    | nil =>
      obtain ⟨rfl, -⟩ := List.cons.inj shape
      exact absurd path (TreeItem.single_ne_below some)
    | cons first before => simp at shape
  induction tree with
  | ended =>
    intro before item after shape
    simp [items] at shape
  | directory name inside rest first second => exact (first.inside name).append second
  | file name rest ih => exact (single name).append ih
  | other name rest ih => exact ih

theorem directory_mem_items {tree : DirectoryTree} {path : List EntryName} :
    TreeItem.directory path ∈ tree.items ↔ tree.HasDirectory path := by
  induction tree generalizing path with
  | ended => simp [items, HasDirectory]
  | directory name inside rest first second =>
    simp only [items, HasDirectory, List.cons_append, List.mem_cons, List.mem_append, List.mem_map,
      TreeItem.directory.injEq, second]
    refine or_congr_right (or_congr_left ?_)
    constructor
    · rintro ⟨item, member, same⟩
      cases item with
      | directory below => exact ⟨below, (TreeItem.directory.inj same).symm, first.mp member⟩
      | file below => cases same
    · rintro ⟨below, rfl, has⟩
      exact ⟨.directory below, first.mpr has, rfl⟩
  | file name rest ih => simp [items, HasDirectory, ih]
  | other name rest ih => simpa [items, HasDirectory] using ih

theorem file_mem_items {tree : DirectoryTree} {path : List EntryName} :
    TreeItem.file path ∈ tree.items ↔ tree.HasFile path := by
  induction tree generalizing path with
  | ended => simp [items, HasFile]
  | directory name inside rest first second =>
    simp only [items, HasFile, List.cons_append, List.mem_cons, List.mem_append, List.mem_map, reduceCtorEq,
      false_or, second]
    refine or_congr_left ?_
    constructor
    · rintro ⟨item, member, same⟩
      cases item with
      | directory below => cases same
      | file below => exact ⟨below, (TreeItem.file.inj same).symm, first.mp member⟩
    · rintro ⟨below, rfl, has⟩
      exact ⟨.file below, first.mpr has, rfl⟩
  | file name rest ih => simp [items, HasFile, ih]
  | other name rest ih => simpa [items, HasFile] using ih

/-- A path starts with the name of an entry. -/
theorem path_mem_items {tree : DirectoryTree} {item : TreeItem} (member : item ∈ tree.items) :
    ∃ name ∈ tree.names, ∃ below, item.path = name :: below := by
  induction tree generalizing item with
  | ended => simp [items] at member
  | directory name inside rest first second =>
    rcases List.mem_append.mp member with here | later
    · rcases List.mem_cons.mp here with rfl | here
      · exact ⟨name, List.mem_cons_self, [], rfl⟩
      · obtain ⟨original, -, rfl⟩ := List.mem_map.mp here
        exact ⟨name, List.mem_cons_self, _, TreeItem.path_below name original⟩
    · obtain ⟨next, known, below, path⟩ := second later
      exact ⟨next, List.mem_cons_of_mem _ known, below, path⟩
  | file name rest ih =>
    rcases List.mem_cons.mp member with rfl | later
    · exact ⟨name, List.mem_cons_self, [], rfl⟩
    · obtain ⟨next, known, below, path⟩ := ih later
      exact ⟨next, List.mem_cons_of_mem _ known, below, path⟩
  | other name rest ih =>
    obtain ⟨next, known, below, path⟩ := ih member
    exact ⟨next, List.mem_cons_of_mem _ known, below, path⟩

/-- The paths of the entries of a new name are new. -/
theorem path_apart {tree : DirectoryTree} {name : EntryName} (new : name ∉ tree.names) (below : List EntryName) :
    name :: below ∉ tree.items.map TreeItem.path := by
  intro member
  obtain ⟨item, inside, same⟩ := List.mem_map.mp member
  obtain ⟨next, known, rest, path⟩ := path_mem_items inside
  obtain ⟨rfl, -⟩ := List.cons.inj (same.symm.trans path)
  exact new known

theorem nodup_paths {tree : DirectoryTree} (distinct : tree.Distinct) : (tree.items.map TreeItem.path).Nodup := by
  induction tree with
  | ended => exact List.nodup_nil
  | directory name inside rest first second =>
    obtain ⟨new, within, later⟩ := distinct
    have paths : (inside.items.map (TreeItem.below name)).map TreeItem.path =
        (inside.items.map TreeItem.path).map (name :: ·) := by
      simp [Function.comp_def]
    have nonempty : [] ∉ inside.items.map TreeItem.path := by
      intro member
      obtain ⟨item, known, none⟩ := List.mem_map.mp member
      obtain ⟨next, -, below, path⟩ := path_mem_items known
      rw [none] at path
      cases path
    rw [items, List.map_append, List.map_cons, paths, TreeItem.path, List.nodup_append]
    refine ⟨List.nodup_cons.mpr ⟨?_, (first within).map (List.cons_injective)⟩, second later, ?_⟩
    · simpa using nonempty
    · intro path here other there same
      subst same
      rcases List.mem_cons.mp here with rfl | here
      · exact path_apart new [] there
      · obtain ⟨below, -, rfl⟩ := List.mem_map.mp here
        exact path_apart new below there
  | file name rest ih =>
    obtain ⟨new, later⟩ := distinct
    exact List.nodup_cons.mpr ⟨path_apart new [], ih later⟩
  | other name rest ih => exact ih distinct.2

end DirectoryTree

namespace ControllerClient

variable {client : ControllerClient} {copydir rawuri uri : Text} {tree : DirectoryTree}

theorem uriOf_cons (uri : Text) (name : EntryName) (path : List EntryName) :
    uriOf uri (name :: path) = uriOf (entryUri uri name) path := by
  simp [uriOf, entryUri]

theorem request_below (copydir uri : Text) (name : EntryName) (item : TreeItem) :
    (item.below name).request copydir uri = item.request (DirectoryTree.joinPath copydir name)
    (entryUri uri name) := by
  cases item with
  | directory path => exact congrArg TreeRequest.makesDirectory (uriOf_cons uri name path)
  | file path => exact congrArg (TreeRequest.uploads _) (uriOf_cons uri name path)

theorem nulFree_entryUri (nulFree : NulFree uri) (name : EntryName) : NulFree (entryUri uri name) :=
  nulFree_append.mpr ⟨nulFree, nulFree_cons.mpr ⟨by decide, not_mem_percentEncode (.inr rfl) name⟩⟩

theorem nulFree_joinPath {name : EntryName} : NulFree (DirectoryTree.joinPath copydir name) ↔ NulFree copydir := by
  obtain ⟨name, -, -, plain⟩ := name
  have slash : byte '/' ≠ 0 := by decide
  unfold DirectoryTree.joinPath
  split <;> simp [nulFree_append, nulFree_cons, plain, slash]

/-- Behind the root only the root is taken off a URI. -/
theorem root_append (under : client.basewebdavuri <+: uri) :
    client.basewebdavuri ++ uri.drop client.basewebdavuri.length = uri := by
  obtain ⟨rest, rfl⟩ := under
  rw [List.drop_left]

/-- Without zero bytes the requests are those of the entries. -/
theorem entriesSent_clean (tree : DirectoryTree) (under : client.Under uri) (nulFree : NulFree uri)
    (readable : (∃ path, tree.HasFile path) → NulFree copydir) :
    client.entriesSent copydir uri tree = tree.items.map (TreeItem.request copydir uri) := by
  induction tree generalizing copydir uri with
  | ended => rfl
  | directory name inside rest first second =>
    have reached : (∃ path, inside.HasFile path) → NulFree (DirectoryTree.joinPath copydir name) :=
      fun ⟨path, has⟩ =>
      nulFree_joinPath.mpr (readable ⟨name :: path, .inl ⟨path, rfl, has⟩⟩)
    have within := first (under.inside name) (nulFree_entryUri nulFree name) reached
    have later := second under nulFree fun ⟨path, has⟩ => readable ⟨path, .inr has⟩
    have made : (TreeItem.directory [name]).request copydir uri = .makesDirectory (entryUri uri name) := by
      simp [TreeItem.request, uriOf, entryUri]
    have below : (inside.items.map (TreeItem.below name)).map (TreeItem.request copydir uri) =
        inside.items.map (TreeItem.request (DirectoryTree.joinPath copydir name) (entryUri uri name)) := by
      rw [List.map_map]
      exact List.map_congr_left fun item _ => request_below copydir uri name item
    rw [entriesSent, DirectoryTree.items, List.map_append, List.map_cons, below, made, within, later,
      cString_of_nulFree _ (nulFree_entryUri nulFree name)]
  | file name rest ih =>
    have later := ih under nulFree fun ⟨path, has⟩ => readable ⟨path, .inr has⟩
    have uploaded : (TreeItem.file [name]).request copydir uri = .uploads
        (DirectoryTree.joinPath copydir name) (entryUri uri name) := by
      simp [TreeItem.request, uriOf, entryUri, localPath]
    have path : NulFree (DirectoryTree.joinPath copydir name) := nulFree_joinPath.mpr (readable ⟨[name], .inl rfl⟩)
    have shape := root_append (under.entry name)
    have rest : NulFree ((entryUri uri name).drop client.basewebdavuri.length) :=
      (nulFree_append.mp (shape ▸ nulFree_entryUri nulFree name)).2
    rw [entriesSent, DirectoryTree.items, List.map_cons, uploaded, later, cString_of_nulFree _ path,
      cString_of_nulFree _ rest, shape]
  | other name rest ih => exact ih under nulFree readable

/-- The entries of the tree make the requests of an upload. -/
theorem uploadsRequests_items (distinct : tree.Distinct) (copydir uri : Text) :
    UploadsRequests copydir uri tree ((.directory [] :: tree.items).map (TreeItem.request copydir uri)) := by
  have fresh : [] ∉ tree.items.map TreeItem.path := by
    intro member
    obtain ⟨item, known, none⟩ := List.mem_map.mp member
    obtain ⟨next, -, below, path⟩ := DirectoryTree.path_mem_items known
    rw [none] at path
    cases path
  have nodup : (TreeItem.directory [] :: tree.items).Nodup := by
    refine List.Nodup.of_map TreeItem.path ?_
    exact List.nodup_cons.mpr ⟨fresh, DirectoryTree.nodup_paths distinct⟩
  have once (item : TreeItem) (member : item ∈ TreeItem.directory [] :: tree.items) :
      ((TreeItem.directory [] :: tree.items).map (TreeItem.request copydir uri)).count
        (item.request copydir uri) = 1 :=
    List.count_eq_one_of_mem (nodup.map (TreeItem.request_injective copydir uri)) (List.mem_map_of_mem member)
  have directories (path : List EntryName) :
      TreeItem.directory path ∈ TreeItem.directory [] :: tree.items ↔ path = [] ∨ tree.HasDirectory path := by
    rw [List.mem_cons, TreeItem.directory.injEq, DirectoryTree.directory_mem_items]
  have files (path : List EntryName) : TreeItem.file path ∈ TreeItem.directory [] :: tree.items ↔
      tree.HasFile path := by
    rw [List.mem_cons, DirectoryTree.file_mem_items]
    simp
  refine ⟨fun path has => once _ ((directories path).mpr has), fun path has =>
    once _ ((files path).mpr has), ?_, ?_,
    fun path other _ _ same => uriOf_injective uri same⟩
  · intro request member
    obtain ⟨item, inside, rfl⟩ := List.mem_map.mp member
    cases item with
    | directory path => exact .inl ⟨path, (directories path).mp inside, rfl⟩
    | file path => exact .inr ⟨path, (files path).mp inside, rfl⟩
  · intro before after request shape directory name below asked
    obtain ⟨earlier, later, split, rfl, mapped⟩ := List.map_eq_append_iff.mp shape
    obtain ⟨item, others, rfl, rfl, rfl⟩ := List.map_eq_cons_iff.mp mapped
    have path : item.path = directory ++ name :: below := by
      rcases asked with asked | asked
      · have same : item = .directory (directory ++ name :: below) := TreeItem.request_injective copydir uri asked
        exact congrArg TreeItem.path same
      · have same : item = .file (directory ++ name :: below) := TreeItem.request_injective copydir uri asked
        exact congrArg TreeItem.path same
    have member : TreeItem.directory directory ∈ earlier := by
      cases earlier with
      | nil =>
        obtain ⟨rfl, -⟩ := List.cons.inj split
        have lengths := congrArg List.length path
        simp [TreeItem.path] at lengths
      | cons first earlier =>
        obtain ⟨rfl, tail⟩ := List.cons.inj split
        by_cases top : directory = []
        · rw [top]
          exact List.mem_cons_self
        · exact List.mem_cons_of_mem _
            (DirectoryTree.ordered_items tree earlier item others tail directory name below top path)
    exact List.mem_map.mpr ⟨_, member, rfl⟩

/-- What is asked for has no zero bytes. -/
theorem nulFree_entriesSent (tree : DirectoryTree) {request : TreeRequest}
    (member : request ∈ client.entriesSent copydir uri tree) :
    (∀ u, request = .makesDirectory u → NulFree u) ∧ ∀ filename u, request = .uploads filename u →
      NulFree filename := by
  induction tree generalizing copydir uri with
  | ended => cases member
  | directory name inside rest first second =>
    rcases List.mem_append.mp member with here | later
    · rcases List.mem_cons.mp here with rfl | within
      · exact ⟨fun u same => TreeRequest.makesDirectory.inj same ▸ cString_nulFree _,
          fun filename u same => by cases same⟩
      · exact first within
    · exact second later
  | file name rest ih =>
    rcases List.mem_cons.mp member with rfl | later
    · exact ⟨fun u same => by (cases same), fun filename u same => (TreeRequest.uploads.inj same).1 ▸
        cString_nulFree _⟩
    · exact ih later
  | other name rest ih => exact ih member

theorem nulFree_localPath {path : List EntryName} : NulFree (localPath copydir path) ↔ NulFree copydir := by
  induction path generalizing copydir with
  | nil => rfl
  | cons name path ih => exact ih.trans nulFree_joinPath

theorem nulFree_target : NulFree (uploadTarget copydir rawuri) ↔ NulFree rawuri := by
  unfold uploadTarget
  split
  · rename_i behind
    split
    · have plain : NulFree [byte '/'] := by decide
      conv_rhs => rw [← dropLast_slash behind]
      rw [nulFree_append]
      exact (and_iff_left plain).symm
    · rw [nulFree_append]
      exact and_iff_left (not_mem_percentEncode (.inr rfl) _)
  · rfl

/-- An upload makes the tree of the directory, exactly where no zero byte cuts the URI, or the paths
of the files on disk. -/
theorem uploadDirectory_iff (client : ControllerClient) (escapes : client.escapeString = percentEncode)
    (tree : DirectoryTree)
    (distinct : tree.Distinct) (copydir rawuri : Text) (under : client.basewebdavuri <+: rawuri)
    (accepts : AcceptsUpload copydir rawuri) :
    client.UploadsTree copydir rawuri tree ↔ NulFree rawuri ∧ ((∃ path, tree.HasFile path) → NulFree copydir) := by
  have target : NulFree (uploadTarget copydir rawuri) ↔ NulFree rawuri := nulFree_target
  rw [uploadsTree_iff escapes tree under accepts, ← target]
  constructor
  · intro requests
    constructor
    · have root := requests.directories [] (.inl rfl)
      have member : TreeRequest.makesDirectory (uriOf (uploadTarget copydir rawuri) []) ∈ client.treeSent
          copydir rawuri tree :=
        List.count_pos_iff.mp (by rw [root]; exact Nat.one_pos)
      have same : uriOf (uploadTarget copydir rawuri) [] = uploadTarget copydir rawuri := by simp [uriOf]
      rw [same] at member
      rcases List.mem_cons.mp member with first | later
      · exact (cString_eq_self_iff _).mp (TreeRequest.makesDirectory.inj first).symm
      · exact (nulFree_entriesSent tree later).1 _ rfl
    · rintro ⟨path, has⟩
      have member : TreeRequest.uploads (localPath copydir path)
          (uriOf (uploadTarget copydir rawuri) path) ∈ client.treeSent copydir rawuri tree :=
        List.count_pos_iff.mp (by rw [requests.files path has]; exact Nat.one_pos)
      rcases List.mem_cons.mp member with first | later
      · cases first
      · exact nulFree_localPath.mp ((nulFree_entriesSent tree later).2 _ _ rfl)
  · rintro ⟨nulFree, readable⟩
    have clean : client.treeSent copydir rawuri tree =
        (.directory [] :: tree.items).map (TreeItem.request copydir (uploadTarget copydir rawuri)) := by
      rw [treeSent, entriesSent_clean tree (under_target under) nulFree readable,
        cString_of_nulFree _ nulFree, List.map_cons]
      simp [TreeItem.request, uriOf]
    rw [clean]
    exact uploadsRequests_items distinct copydir _

/-- A directory with a file in it, and a file beside it. -/
def smallTree : DirectoryTree :=
  .directory ⟨[byte 'd'], by decide⟩ (.file ⟨[byte 'x'], by decide⟩ .ended) (.file ⟨[byte 'x'], by decide⟩ .ended)

def encodingClient : ControllerClient :=
  { (default : ControllerClient) with escapeString := percentEncode, basewebdavuri := [byte 'u', byte '/'] }

theorem uploadDirectory_small : encodingClient.UploadsTree [byte 'c'] [byte 'u', byte '/'] smallTree := by
  have distinct : smallTree.Distinct := ⟨by decide, ⟨by decide, trivial⟩, by decide, trivial⟩
  exact (uploadDirectory_iff encodingClient rfl smallTree distinct [byte 'c'] [byte 'u', byte '/']
    (List.prefix_refl _)
    ⟨by simp, by simp, fun slash => by simp [byte] at slash⟩).mpr ⟨by decide, fun _ => by decide⟩

/-- The directory that is made is not the one of a URI with a zero byte. -/
theorem zero_byte_cuts :
    ¬encodingClient.UploadsTree [byte 'c'] [byte 'u', byte '/', byte 'a', 0, byte 'b'] .ended := by
  have accepts : AcceptsUpload [byte 'c'] [byte 'u', byte '/', byte 'a', 0, byte 'b'] :=
    ⟨by simp, by simp, fun slash => by simp [byte] at slash⟩
  have under : encodingClient.basewebdavuri <+: [byte 'u', byte '/', byte 'a', 0, byte 'b'] :=
    ⟨[byte 'a', 0, byte 'b'], rfl⟩
  intro uploads
  have requests := (uploadsTree_iff rfl .ended under accepts).mp uploads
  have root := requests.directories [] (.inl rfl)
  exact absurd root (by decide)

end ControllerClient

end MujinClient
