import Mathlib

/-! `std::map` and `std::unordered_map`. A map iterates over its entries in strictly
increasing order of their keys, an unordered map in some order. -/
namespace MujinClient

/-- The value of the first entry with this key. -/
def findEntry [DecidableEq K] : List (K × V) → K → Option V
  | [], _ => none
  | (other, value) :: rest, key => if other = key then some value else findEntry rest key

theorem mem_of_findEntry [DecidableEq K] {entries : List (K × V)}
    (found : findEntry entries key = some value) : (key, value) ∈ entries := by
  induction entries with
  | nil => simp [findEntry] at found
  | cons head rest ih =>
    obtain ⟨other, old⟩ := head
    unfold findEntry at found
    split at found
    · rename_i same
      simp_all
    · exact List.mem_cons_of_mem _ (ih found)

theorem findEntry_eq_none_iff [DecidableEq K] {entries : List (K × V)} :
    findEntry entries key = none ↔ ∀ entry ∈ entries, entry.1 ≠ key := by
  induction entries with
  | nil => simp [findEntry]
  | cons head rest ih =>
    obtain ⟨other, old⟩ := head
    by_cases same : other = key <;> simp [findEntry, same, ih]

theorem findEntry_append [DecidableEq K] (first second : List (K × V)) (key : K) :
    findEntry (first ++ second) key = (findEntry first key).or (findEntry second key) := by
  induction first with
  | nil => rfl
  | cons head rest ih =>
    obtain ⟨other, value⟩ := head
    by_cases same : other = key <;> simp [findEntry, same, ih]

structure SortedMap (K V : Type) [LinearOrder K] where
  entries : List (K × V)
  sorted : entries.Pairwise (fun a b => a.1 < b.1)

namespace SortedMap

variable {K V : Type} [LinearOrder K] {key other : K} {value : V} {entries : List (K × V)}

instance [DecidableEq V] : DecidableEq (SortedMap K V) := fun m n =>
  decidable_of_iff (m.entries = n.entries) (by cases m; cases n; simp)

theorem ext_entries {m n : SortedMap K V} (same : m.entries = n.entries) : m = n := by
  cases m; cases n; simpa using same

def empty : SortedMap K V := ⟨[], .nil⟩

instance : Inhabited (SortedMap K V) := ⟨empty⟩

/-- Overwrite the entry of this key or place a new one in order. -/
def insertEntry (key : K) (value : V) : List (K × V) → List (K × V)
  | [] => [(key, value)]
  | (other, old) :: rest =>
    if other < key then (other, old) :: insertEntry key value rest
    else if other = key then (key, value) :: rest
    else (key, value) :: (other, old) :: rest

theorem mem_insertEntry (member : entry ∈ insertEntry key value entries) :
    entry = (key, value) ∨ entry ∈ entries := by
  induction entries with
  | nil => simpa [insertEntry] using member
  | cons head rest ih =>
    obtain ⟨other, old⟩ := head
    unfold insertEntry at member
    split at member
    · rcases List.mem_cons.mp member with same | later
      · exact .inr (same ▸ List.mem_cons_self)
      · exact (ih later).imp_right (List.mem_cons_of_mem _)
    · split at member
      · exact (List.mem_cons.mp member).imp_right (List.mem_cons_of_mem _)
      · exact List.mem_cons.mp member

theorem insertEntry_sorted (key : K) (value : V) (entries : List (K × V))
    (sorted : entries.Pairwise (fun a b => a.1 < b.1)) :
    (insertEntry key value entries).Pairwise (fun a b => a.1 < b.1) := by
  induction entries with
  | nil => exact List.pairwise_singleton _ _
  | cons head rest ih =>
    obtain ⟨other, old⟩ := head
    obtain ⟨first, tail⟩ := List.pairwise_cons.mp sorted
    unfold insertEntry
    split
    · rename_i below
      refine List.pairwise_cons.mpr ⟨fun entry member => ?_, ih tail⟩
      rcases mem_insertEntry member with rfl | later
      · exact below
      · exact first entry later
    · split
      · rename_i same
        exact List.pairwise_cons.mpr ⟨fun entry later => same ▸ first entry later, tail⟩
      · rename_i notBelow apart
        have above : key < other := lt_of_le_of_ne (not_lt.mp notBelow) (Ne.symm apart)
        refine List.pairwise_cons.mpr ⟨fun entry member => ?_, sorted⟩
        rcases List.mem_cons.mp member with rfl | later
        · exact above
        · exact above.trans (first entry later)

def find? (m : SortedMap K V) (key : K) : Option V := findEntry m.entries key

def insert (m : SortedMap K V) (key : K) (value : V) : SortedMap K V :=
  ⟨insertEntry key value m.entries, insertEntry_sorted key value m.entries m.sorted⟩

@[simp] theorem entries_empty : (empty : SortedMap K V).entries = [] := rfl

@[simp] theorem entries_insert (m : SortedMap K V) :
    (m.insert key value).entries = insertEntry key value m.entries := rfl

theorem find?_eq_none (m : SortedMap K V) (absent : ∀ entry ∈ m.entries, entry.1 ≠ key) :
    m.find? key = none :=
  findEntry_eq_none_iff.mpr absent

def keys (m : SortedMap K V) : List K := m.entries.map Prod.fst

theorem keys_sorted (m : SortedMap K V) : m.keys.Pairwise (· < ·) :=
  List.pairwise_map.mpr m.sorted

theorem keys_nodup (m : SortedMap K V) : m.keys.Nodup :=
  m.keys_sorted.imp ne_of_lt

@[simp] theorem find?_empty (key : K) : (empty : SortedMap K V).find? key = none := rfl

theorem findEntry_insertEntry_same (key : K) (value : V) (entries : List (K × V)) :
    findEntry (insertEntry key value entries) key = some value := by
  induction entries with
  | nil => simp [insertEntry, findEntry]
  | cons head rest ih =>
    obtain ⟨other, old⟩ := head
    unfold insertEntry
    split
    · rename_i below
      simp [findEntry, below.ne, ih]
    · split <;> simp [findEntry]

theorem findEntry_insertEntry_other (apart : other ≠ key) (entries : List (K × V)) :
    findEntry (insertEntry key value entries) other = findEntry entries other := by
  induction entries with
  | nil => simp [insertEntry, findEntry, Ne.symm apart]
  | cons head rest ih =>
    obtain ⟨first, old⟩ := head
    unfold insertEntry
    split
    · simp [findEntry, ih]
    · split
      · rename_i same
        simp [findEntry, same, Ne.symm apart]
      · simp [findEntry, Ne.symm apart]

@[simp] theorem find?_insert_same (m : SortedMap K V) :
    (m.insert key value).find? key = some value :=
  findEntry_insertEntry_same key value m.entries

theorem find?_insert_other (m : SortedMap K V) (apart : other ≠ key) :
    (m.insert key value).find? other = m.find? other :=
  findEntry_insertEntry_other apart m.entries

theorem find?_insert (m : SortedMap K V) :
    (m.insert key value).find? other = if other = key then some value else m.find? other := by
  by_cases same : other = key
  · simp [same]
  · simp [same, find?_insert_other m same]

theorem findEntry_of_mem (sorted : entries.Pairwise (fun a b => a.1 < b.1)) (member : (key, value) ∈ entries) :
    findEntry entries key = some value := by
  induction entries with
  | nil => simp at member
  | cons head rest ih =>
    obtain ⟨other, old⟩ := head
    obtain ⟨first, tail⟩ := List.pairwise_cons.mp sorted
    rcases List.mem_cons.mp member with same | later
    · obtain ⟨rfl, rfl⟩ := Prod.mk.inj same
      simp [findEntry]
    · have apart : other ≠ key := (first _ later).ne
      simp [findEntry, apart, ih tail later]

theorem mem_entries_iff (m : SortedMap K V) :
    (key, value) ∈ m.entries ↔ m.find? key = some value :=
  ⟨findEntry_of_mem m.sorted, mem_of_findEntry⟩

theorem mem_keys_iff (m : SortedMap K V) : key ∈ m.keys ↔ m.find? key ≠ none := by
  constructor
  · intro member
    obtain ⟨⟨k, value⟩, inside, rfl⟩ := List.mem_map.mp member
    simp [(mem_entries_iff m).mp inside]
  · intro found
    obtain ⟨value, there⟩ := Option.ne_none_iff_exists'.mp found
    exact List.mem_map.mpr ⟨(key, value), (mem_entries_iff m).mpr there, rfl⟩

/-- Maps with the same lookups are the same map, and so iterate in the same order. -/
theorem ext_find? {m n : SortedMap K V} (same : ∀ key, m.find? key = n.find? key) : m = n := by
  apply ext_entries
  have nodup : ∀ o : SortedMap K V, o.entries.Nodup := fun o =>
    o.sorted.imp fun below equal => absurd (equal ▸ below) (lt_irrefl _)
  have perm : m.entries.Perm n.entries := by
    refine (List.perm_ext_iff_of_nodup (nodup m) (nodup n)).mpr fun entry => ?_
    rw [mem_entries_iff, mem_entries_iff, same]
  exact perm.eq_of_pairwise (fun a b _ _ below above => absurd (below.trans above) (lt_irrefl _))
    m.sorted n.sorted

theorem insertEntry_above (above : ∀ entry ∈ entries, entry.1 < key) :
    insertEntry key value entries = entries ++ [(key, value)] := by
  induction entries with
  | nil => rfl
  | cons head rest ih =>
    obtain ⟨other, old⟩ := head
    have below : other < key := above _ List.mem_cons_self
    simp [insertEntry, below, ih (fun entry later => above entry (List.mem_cons_of_mem _ later))]

/-- The map with these entries inserted in turn; later ones win. -/
def insertAll (m : SortedMap K V) (entries : List (K × V)) : SortedMap K V :=
  entries.foldl (fun m entry => m.insert entry.1 entry.2) m

@[simp] theorem insertAll_nil (m : SortedMap K V) : m.insertAll [] = m := rfl

@[simp] theorem insertAll_cons (m : SortedMap K V) (entry : K × V) (rest : List (K × V)) :
    m.insertAll (entry :: rest) = (m.insert entry.1 entry.2).insertAll rest := rfl

theorem insertAll_append (m : SortedMap K V) (first second : List (K × V)) :
    m.insertAll (first ++ second) = (m.insertAll first).insertAll second := by
  simp [insertAll]

theorem find?_insertAll [decidable : DecidableEq K] (m : SortedMap K V) (entries : List (K × V)) :
    (m.insertAll entries).find? key = (findEntry entries.reverse key).or (m.find? key) := by
  obtain rfl : decidable = LinearOrder.toDecidableEq := Subsingleton.elim _ _
  induction entries generalizing m with
  | nil => rfl
  | cons head rest ih =>
    obtain ⟨other, value⟩ := head
    rw [insertAll_cons, ih, find?_insert, List.reverse_cons, findEntry_append, Option.or_assoc]
    by_cases same : key = other
    · simp [findEntry, same]
    · simp [findEntry, same, Ne.symm same]

theorem forall_insertAll {p : K × V → Prop} {m : SortedMap K V} (old : ∀ entry ∈ m.entries, p entry)
    (new : ∀ entry ∈ entries, p entry) : ∀ entry ∈ (m.insertAll entries).entries, p entry := by
  induction entries generalizing m with
  | nil => exact old
  | cons head rest ih =>
    refine ih (fun entry member => ?_) fun entry later => new entry (List.mem_cons_of_mem _ later)
    rcases mem_insertEntry member with rfl | before
    · exact new _ List.mem_cons_self
    · exact old entry before

def mapValues (f : V → W) (m : SortedMap K V) : SortedMap K W where
  entries := m.entries.map fun entry => (entry.1, f entry.2)
  sorted := List.pairwise_map.mpr m.sorted

@[simp] theorem find?_mapValues (f : V → W) (m : SortedMap K V) :
    (m.mapValues f).find? key = (m.find? key).map f := by
  have each : ∀ entries : List (K × V),
      findEntry (entries.map fun entry => (entry.1, f entry.2)) key = (findEntry entries key).map f := by
    intro entries
    induction entries with
    | nil => rfl
    | cons head rest ih =>
      by_cases same : head.1 = key <;> simp [findEntry, same, ih]
  exact each m.entries

end SortedMap

structure UnorderedMap (K V : Type) where
  entries : List (K × V)
  distinct : (entries.map Prod.fst).Nodup

namespace UnorderedMap

theorem ext_entries {m n : UnorderedMap K V} (same : m.entries = n.entries) : m = n := by
  cases m; cases n; simpa using same

def empty : UnorderedMap K V := ⟨[], .nil⟩

@[simp] theorem entries_empty : (empty : UnorderedMap K V).entries = [] := rfl

instance : Inhabited (UnorderedMap K V) := ⟨empty⟩

variable {K V : Type} [DecidableEq K] {key other : K} {value : V} {entries : List (K × V)}

/-- Overwrite the entry of this key or add a new one. -/
def insertEntry (key : K) (value : V) : List (K × V) → List (K × V)
  | [] => [(key, value)]
  | (other, old) :: rest =>
    if other = key then (key, value) :: rest else (other, old) :: insertEntry key value rest

theorem mem_keys_insertEntry (key : K) (value : V) (entries : List (K × V)) :
    other ∈ (insertEntry key value entries).map Prod.fst ↔
      other = key ∨ other ∈ entries.map Prod.fst := by
  induction entries with
  | nil => simp [insertEntry]
  | cons head rest ih =>
    obtain ⟨first, old⟩ := head
    unfold insertEntry
    split
    · rename_i same
      subst first
      simp
    · rw [List.map_cons, List.mem_cons, ih, List.map_cons, List.mem_cons]
      tauto

theorem insertEntry_distinct (key : K) (value : V) (entries : List (K × V))
    (distinct : (entries.map Prod.fst).Nodup) :
    ((insertEntry key value entries).map Prod.fst).Nodup := by
  induction entries with
  | nil => simp [insertEntry]
  | cons head rest ih =>
    obtain ⟨first, old⟩ := head
    rw [List.map_cons, List.nodup_cons] at distinct
    unfold insertEntry
    split
    · rename_i same
      subst first
      simpa using distinct
    · rename_i apart
      rw [List.map_cons, List.nodup_cons, mem_keys_insertEntry]
      exact ⟨by simpa [apart] using distinct.1, ih distinct.2⟩

def find? (m : UnorderedMap K V) (key : K) : Option V := findEntry m.entries key

def insert (m : UnorderedMap K V) (key : K) (value : V) : UnorderedMap K V :=
  ⟨insertEntry key value m.entries, insertEntry_distinct key value m.entries m.distinct⟩

@[simp] theorem entries_insert (m : UnorderedMap K V) :
    (m.insert key value).entries = insertEntry key value m.entries := rfl

theorem find?_eq_none (m : UnorderedMap K V) (absent : ∀ entry ∈ m.entries, entry.1 ≠ key) :
    m.find? key = none :=
  findEntry_eq_none_iff.mpr absent

theorem mem_insertEntry (member : entry ∈ insertEntry key value entries) :
    entry = (key, value) ∨ entry ∈ entries := by
  induction entries with
  | nil => simpa [insertEntry] using member
  | cons head rest ih =>
    obtain ⟨other, old⟩ := head
    unfold insertEntry at member
    split at member
    · exact (List.mem_cons.mp member).imp_right (List.mem_cons_of_mem _)
    · rcases List.mem_cons.mp member with same | later
      · exact .inr (same ▸ List.mem_cons_self)
      · exact (ih later).imp_right (List.mem_cons_of_mem _)

theorem insertEntry_new (new : ∀ entry ∈ entries, entry.1 ≠ key) :
    insertEntry key value entries = entries ++ [(key, value)] := by
  induction entries with
  | nil => rfl
  | cons head rest ih =>
    obtain ⟨other, old⟩ := head
    have apart : other ≠ key := new _ List.mem_cons_self
    simp [insertEntry, apart, ih (fun entry later => new entry (List.mem_cons_of_mem _ later))]

theorem find?_insert (m : UnorderedMap K V) (key : K) (value : V) :
    (m.insert key value).find? other = if other = key then some value else m.find? other := by
  have each (entries : List (K × V)) : findEntry (insertEntry key value entries) other =
      if other = key then some value else findEntry entries other := by
    induction entries with
    | nil => by_cases same : other = key <;> simp [insertEntry, findEntry, same, eq_comm]
    | cons head rest ih =>
      obtain ⟨first, old⟩ := head
      by_cases found : first = key
      · subst found
        by_cases same : other = first <;> simp [insertEntry, findEntry, same, eq_comm]
      · by_cases same : other = first
        · subst same
          simp [insertEntry, findEntry, found]
        · simp [insertEntry, findEntry, found, eq_comm.not.mp same, ih]
  exact each m.entries

def erase (m : UnorderedMap K V) (key : K) : UnorderedMap K V :=
  ⟨m.entries.filter (·.1 ≠ key), m.distinct.sublist (List.filter_sublist.map Prod.fst)⟩

theorem find?_erase (m : UnorderedMap K V) (key : K) :
    (m.erase key).find? other = if other = key then none else m.find? other := by
  have each (entries : List (K × V)) : findEntry (entries.filter (·.1 ≠ key)) other =
      if other = key then none else findEntry entries other := by
    induction entries with
    | nil => simp [findEntry]
    | cons head rest ih =>
      obtain ⟨first, old⟩ := head
      by_cases found : first = key
      · subst found
        by_cases same : other = first
        · simpa [same] using ih
        · simpa [findEntry, same, eq_comm.not.mp same] using ih
      · by_cases same : other = first
        · subst same
          simp [findEntry, found]
        · simpa [findEntry, found, eq_comm.not.mp same] using ih
  exact each m.entries

theorem find?_of_mem (m : UnorderedMap K V) (member : (key, value) ∈ m.entries) : m.find? key = some value := by
  have each (entries : List (K × V)) (distinct : (entries.map Prod.fst).Nodup) (member : (key, value) ∈ entries) :
      findEntry entries key = some value := by
    induction entries with
    | nil => simp at member
    | cons head rest ih =>
      obtain ⟨new, distinct⟩ := List.nodup_cons.mp distinct
      rcases List.mem_cons.mp member with rfl | later
      · simp [findEntry]
      · have apart : head.1 ≠ key := fun same => new (same ▸ List.mem_map_of_mem later)
        simpa [findEntry, apart] using ih distinct later
  exact each m.entries m.distinct member

end UnorderedMap
end MujinClient
