import MujinClient.JsonTypes

/-! `LoadJsonValue` after `SaveJsonValue`. The save side passes strings and map keys as
C strings, so exactly the values without NUL bytes come back. -/
namespace MujinClient

open Loading

namespace Ty

/-- An optional is over a type whose saved form is never null. -/
def Savable : Ty → Prop
  | string | integer _ | bool | double => True
  | pair a b => a.Savable ∧ b.Savable
  | vector a | array a _ | deque a | set a | unorderedSet a | map a | unorderedMap a => a.Savable
  | optional a => a.Savable ∧ ∀ b, a ≠ optional b

/-- No double is not-a-number, and sets have the order and distinctness they maintain. -/
def Valid : (ty : Ty) → ty.Val → Prop
  | string, _ | integer _, _ | bool, _ => True
  | double, d => d.isNan = false
  | pair a b, x => a.Valid x.1 ∧ b.Valid x.2
  | vector a, x | deque a, x => ∀ e ∈ x, a.Valid e
  | array a _, x => ∀ e ∈ x.val, a.Valid e
  | set a, x => (∀ e ∈ x, a.Valid e) ∧ x.Pairwise (fun e f => a.less e f = true)
  | unorderedSet a, x => (∀ e ∈ x, a.Valid e) ∧ x.Pairwise (fun e f => a.equal e f = false)
  | map a, x => ∀ e ∈ x.entries, a.Valid e.2
  | unorderedMap a, x => ∀ e ∈ x.entries, a.Valid e.2
  | optional a, x => ∀ e ∈ x, a.Valid e

/-- Sets have the order and distinctness they maintain. -/
def WellFormed : (ty : Ty) → ty.Val → Prop
  | string, _ | integer _, _ | bool, _ | double, _ => True
  | pair a b, x => a.WellFormed x.1 ∧ b.WellFormed x.2
  | vector a, x | deque a, x => ∀ e ∈ x, a.WellFormed e
  | array a _, x => ∀ e ∈ x.val, a.WellFormed e
  | set a, x => (∀ e ∈ x, a.WellFormed e) ∧ x.Pairwise (fun e f => a.less e f = true)
  | unorderedSet a, x => (∀ e ∈ x, a.WellFormed e) ∧ x.Pairwise (fun e f => a.equal e f = false)
  | map a, x => ∀ e ∈ x.entries, a.WellFormed e.2
  | unorderedMap a, x => ∀ e ∈ x.entries, a.WellFormed e.2
  | optional a, x => ∀ e ∈ x, a.WellFormed e

theorem Valid.wellFormed {ty : Ty} {x : ty.Val} (valid : ty.Valid x) : ty.WellFormed x := by
  induction ty with
  | string | integer _ | bool | double => trivial
  | pair a b first second => exact ⟨first valid.1, second valid.2⟩
  | vector a each | deque a each | array a n each | optional a each | map a each | unorderedMap a each =>
    exact fun e member => each (valid e member)
  | set a each | unorderedSet a each => exact ⟨fun e member => each (valid.1 e member), valid.2⟩

/-- No string and no key in the value contains a NUL byte. -/
def NulFree : (ty : Ty) → ty.Val → Prop
  | string, t => MujinClient.NulFree t
  | integer _, _ | bool, _ | double, _ => True
  | pair a b, x => a.NulFree x.1 ∧ b.NulFree x.2
  | vector a, x | deque a, x | set a, x | unorderedSet a, x => ∀ e ∈ x, a.NulFree e
  | array a _, x => ∀ e ∈ x.val, a.NulFree e
  | map a, x => ∀ e ∈ x.entries, MujinClient.NulFree e.1 ∧ a.NulFree e.2
  | unorderedMap a, x => ∀ e ∈ x.entries, MujinClient.NulFree e.1 ∧ a.NulFree e.2
  | optional a, x => ∀ e ∈ x, a.NulFree e

theorem initial_nulFree (ty : Ty) : ty.NulFree ty.initial := by
  induction ty with
  | string => exact List.not_mem_nil
  | pair a b first second => exact ⟨first, second⟩
  | array a n each =>
    intro e member
    rw [List.eq_of_mem_replicate member]
    exact each
  | _ => simp [NulFree, initial]

theorem equalLists_iff {equal : α → α → Bool} :
    equalLists equal xs ys = true ↔ List.Forall₂ (fun x y => equal x y = true) xs ys := by
  induction xs generalizing ys with
  | nil => cases ys <;> simp [equalLists]
  | cons x xs ih => cases ys <;> simp [equalLists, ih]

theorem equal_refl (ty : Ty) (x : ty.Val) (valid : ty.Valid x) : ty.equal x x = true := by
  induction ty with
  | string | integer _ | bool => simp [equal]
  | double => exact Double.equal_refl x valid
  | pair a b first second => simp [equal, pairEqual, first x.1 valid.1, second x.2 valid.2]
  | vector a each | deque a each =>
    exact equalLists_iff.mpr (List.forall₂_same.mpr fun e member => each e (valid e member))
  | set a each =>
    exact equalLists_iff.mpr (List.forall₂_same.mpr fun e member => each e (valid.1 e member))
  | array a n each =>
    exact equalLists_iff.mpr (List.forall₂_same.mpr fun e member => each e (valid e member))
  | unorderedSet a each =>
    simp only [equal, beq_self_eq_true, Bool.true_and, List.all_eq_true, List.any_eq_true]
    exact fun e member => ⟨e, member, each e (valid.1 e member)⟩
  | map a each =>
    refine equalLists_iff.mpr (List.forall₂_same.mpr fun e member => ?_)
    simp [pairEqual, each e.2 (valid e member)]
  | unorderedMap a each =>
    simp only [equal, beq_self_eq_true, Bool.true_and, List.all_eq_true, List.any_eq_true]
    exact fun e member => ⟨e, member, by simp [pairEqual, each e.2 (valid e member)]⟩
  | optional a each =>
    cases x with
    | none => rfl
    | some e => exact each e (valid e rfl)

theorem all_of_equalLists {equal : α → α → Bool} {free : α → Prop}
    (each : ∀ e ∈ xs, ∀ f ∈ ys, equal e f = true → free f → free e)
    (same : equalLists equal xs ys = true) (all : ∀ f ∈ ys, free f) : ∀ e ∈ xs, free e := by
  induction equalLists_iff.mp same with
  | nil => simp
  | @cons x y xs ys head tail ih =>
    intro e member
    rcases List.mem_cons.mp member with rfl | later
    · exact each e (by simp) y (by simp) head (all y (by simp))
    · exact ih (fun e m f n => each e (by simp [m]) f (by simp [n])) (equalLists_iff.mpr tail)
        (fun f n => all f (by simp [n])) e later

/-- Equal values have the same strings, up to the order of unordered containers. -/
theorem nulFree_of_equal (ty : Ty) (x y : ty.Val) (same : ty.equal x y = true)
    (nulFree : ty.NulFree y) : ty.NulFree x := by
  induction ty with
  | string =>
    rw [equal, beq_iff_eq] at same
    exact same ▸ nulFree
  | integer _ | bool | double => trivial
  | pair a b first second =>
    rw [equal, pairEqual, Bool.and_eq_true] at same
    exact ⟨first _ _ same.1 nulFree.1, second _ _ same.2 nulFree.2⟩
  | vector a each | deque a each | set a each | array a n each =>
    exact all_of_equalLists (fun e _ f _ => each e f) same nulFree
  | unorderedSet a each =>
    simp only [equal, Bool.and_eq_true, List.all_eq_true, List.any_eq_true] at same
    intro e member
    obtain ⟨f, inside, alike⟩ := same.2 e member
    exact each e f alike (nulFree f inside)
  | map a each =>
    refine all_of_equalLists (fun e _ f _ alike free => ?_) same nulFree
    simp only [pairEqual, Bool.and_eq_true, beq_iff_eq] at alike
    exact ⟨alike.1 ▸ free.1, each _ _ alike.2 free.2⟩
  | unorderedMap a each =>
    simp only [equal, Bool.and_eq_true, List.all_eq_true, List.any_eq_true] at same
    intro e member
    obtain ⟨f, inside, alike⟩ := same.2 e member
    simp only [pairEqual, Bool.and_eq_true, beq_iff_eq] at alike
    exact ⟨alike.1 ▸ (nulFree f inside).1, each _ _ alike.2 (nulFree f inside).2⟩
  | optional a each =>
    cases x with
    | none => simp [NulFree]
    | some e =>
      cases y with
      | none => simp [equal] at same
      | some f =>
        intro g member
        rw [← Option.mem_some_iff.mp member]
        exact each e f same (nulFree f rfl)

end Ty

/-- The load of a saved value into a default-constructed target gives the value. -/
def Restores (load : Load α) (start : α) (save : α → Json) (x : α) : Prop :=
  load (save x) start = (.ok (), x)

theorem loadElements_restores {load : Load α} {start : α} {save : α → Json} (xs : List α)
    (each : ∀ x ∈ xs, Restores load start save x) :
    loadElements load (xs.map save) (List.replicate xs.length start) = (.ok (), xs) := by
  induction xs with
  | nil => rfl
  | cons x xs ih =>
    have head := each x List.mem_cons_self
    have tail := ih fun y later => each y (List.mem_cons_of_mem _ later)
    unfold Restores at head
    simp [loadElements, List.replicate_succ, head, tail]

theorem fresh_restores {load : Load α} (restores : Restores load start save x) :
    fresh start load (save x) = .ok x := by
  unfold Restores at restores
  simp [fresh, restores]

/-- Temporaries are emplaced in turn, each after all that are there. -/
theorem loadEmplaced_restores {load : Load α} {emplace : α → List α → List α} (xs present : List α)
    (each : ∀ x ∈ xs, Restores load start save x)
    (last : ∀ before x after, xs = before ++ x :: after →
      emplace x (present ++ before) = present ++ before ++ [x]) :
    loadSet.loadEmplaced emplace start load (xs.map save) present = (.ok (), present ++ xs) := by
  induction xs generalizing present with
  | nil => simp [loadSet.loadEmplaced]
  | cons x xs ih =>
    have added : emplace x present = present ++ [x] := by simpa using last [] x xs rfl
    have tail := ih (present ++ [x]) (fun y later => each y (List.mem_cons_of_mem _ later)) ?_
    · rw [List.map_cons, loadSet.loadEmplaced, fresh_restores (each x List.mem_cons_self)]
      have step : (Loading.update (emplace x) : Loading LoadError (List α) Unit) present =
          (.ok (), present ++ [x]) := by rw [update_apply, added]
      refine (bind_ok (lift_apply ..)).trans ((bind_ok step).trans ?_)
      simpa using tail
    · intro before y after split
      have here := last (x :: before) y after (by rw [split]; rfl)
      simpa using here

theorem emplaceOrdered_last {less : α → α → Bool} (below : ∀ y ∈ ys, less y x = true) :
    Ty.emplaceOrdered less x ys = ys ++ [x] := by
  induction ys with
  | nil => rfl
  | cons y ys ih =>
    rw [Ty.emplaceOrdered, if_pos (below y List.mem_cons_self),
      ih fun z later => below z (List.mem_cons_of_mem _ later)]
    rfl

theorem emplaceUnordered_last {equal : α → α → Bool} (apart : ∀ y ∈ ys, equal y x = false) :
    Ty.emplaceUnordered equal x ys = ys ++ [x] := by
  have absent : ys.any (fun y => equal y x) = false := by
    rw [List.any_eq_false]
    intro y member
    simp [apart y member]
  simp [Ty.emplaceUnordered, absent]

theorem related_of_pairwise {R : α → α → Prop} {xs before after : List α} (pairwise : xs.Pairwise R)
    (split : xs = before ++ x :: after) : ∀ y ∈ before, R y x := by
  subst split
  intro y member
  exact (List.pairwise_append.mp pairwise).2.2 y member x List.mem_cons_self

/-- Members are loaded one by one into new entries. `entries` lists those of a target. -/
theorem loadMembers_restores {load : Load α} {save : α → Json} (view : Text → τ → α)
    (put : Text → α → τ → τ) (entries : τ → List (Text × α)) (start : α)
    (new : ∀ t name, (∀ e ∈ entries t, e.1 ≠ name) → view name t = start)
    (rest : List (Text × α)) (t : τ)
    (added : ∀ before e after, rest = before ++ e :: after → ∀ t', entries t' = entries t ++ before →
      (∀ f ∈ entries t', f.1 ≠ e.1) ∧ entries (put e.1 e.2 t') = entries t' ++ [e])
    (each : ∀ e ∈ rest, Restores load start save e.2) :
    ∃ t', loadMembers view put load (rest.map fun e => (e.1, save e.2)) t = (.ok (), t') ∧
      entries t' = entries t ++ rest := by
  induction rest generalizing t with
  | nil => exact ⟨t, rfl, by simp⟩
  | cons e rest ih =>
    obtain ⟨absent, listed⟩ := added [] e rest rfl t (by simp)
    have head := each e List.mem_cons_self
    unfold Restores at head
    have step : (zoom (view e.1) (put e.1) (load (save e.2)) : Loading LoadError τ Unit) t =
        (.ok (), put e.1 e.2 t) := by
      rw [zoom_apply, new t e.1 absent, head]
    obtain ⟨t', ran, all⟩ := ih (put e.1 e.2 t) (fun before f after split s same => by
        refine added (e :: before) f after (by rw [split]; rfl) s ?_
        rw [same, listed]
        simp) (fun f later => each f (List.mem_cons_of_mem _ later))
    exact ⟨t', (bind_ok step).trans ran, by rw [all, listed]; simp⟩

theorem loadMap_restores {load : Load α} {start : α} {save : α → Json} (x t : SortedMap Text α)
    (each : ∀ e ∈ x.entries, Restores load start save e.2) :
    loadMap start load (.object (x.entries.map fun e => (e.1, save e.2))) t = (.ok (), x) := by
  have added : ∀ before e after, x.entries = before ++ e :: after → ∀ t : SortedMap Text α,
      t.entries = SortedMap.empty.entries ++ before →
      (∀ f ∈ t.entries, f.1 ≠ e.1) ∧ (t.insert e.1 e.2).entries = t.entries ++ [e] := by
    intro before e after split t same
    have below := related_of_pairwise x.sorted split
    rw [SortedMap.entries_empty, List.nil_append] at same
    rw [SortedMap.entries_insert, same]
    exact ⟨fun f member => (below f member).ne, SortedMap.insertEntry_above below⟩
  obtain ⟨t', ran, all⟩ := loadMembers_restores (fun name t => (SortedMap.find? t name).getD start)
    (fun name x t => t.insert name x) SortedMap.entries start
    (fun t name absent => by simp only [t.find?_eq_none absent, Option.getD_none])
    x.entries SortedMap.empty added each
  have same : t' = x := SortedMap.ext_entries (by simpa using all)
  exact same ▸ ran

theorem loadUnorderedMap_restores {load : Load α} {start : α} {save : α → Json}
    (x t : UnorderedMap Text α) (each : ∀ e ∈ x.entries, Restores load start save e.2) :
    loadUnorderedMap start load (.object (x.entries.map fun e => (e.1, save e.2))) t =
      (.ok (), x) := by
  have added : ∀ before e after, x.entries = before ++ e :: after → ∀ t : UnorderedMap Text α,
      t.entries = UnorderedMap.empty.entries ++ before →
      (∀ f ∈ t.entries, f.1 ≠ e.1) ∧ (t.insert e.1 e.2).entries = t.entries ++ [e] := by
    intro before e after split t same
    have apart := related_of_pairwise (List.pairwise_map.mp x.distinct) split
    rw [UnorderedMap.entries_empty, List.nil_append] at same
    rw [UnorderedMap.entries_insert, same]
    exact ⟨apart, UnorderedMap.insertEntry_new apart⟩
  obtain ⟨t', ran, all⟩ := loadMembers_restores (fun name t => (UnorderedMap.find? t name).getD start)
    (fun name x t => t.insert name x) UnorderedMap.entries start
    (fun t name absent => by simp only [t.find?_eq_none absent, Option.getD_none])
    x.entries UnorderedMap.empty added each
  have same : t' = x := UnorderedMap.ext_entries (by simpa using all)
  exact same ▸ ran

/-- Only an optional is saved as null. -/
theorem save_not_null (ty : Ty) (solid : ∀ b, ty ≠ .optional b) (x : ty.Val) :
    (saveJsonValue ty x).isNull = false := by
  cases ty with
  | optional b => exact absurd rfl (solid b)
  | _ => rfl

theorem loadInteger_save (type : IntType) (x : type.Value) :
    loadInteger type (saveInteger type x) = .ok x := by
  have passes : type.overload.number (saveInteger type x) = true := by
    obtain ⟨z, holds⟩ := x
    cases type <;>
      simp [IntType.overload, IntegerOverload.number, saveInteger, loadInt, loadInt16, loadInt8,
        loadUInt8, loadUInt16, loadUInt, loadULongLong, loadUInt64, loadInt64, Json.isInt,
        Json.isUint, Json.isInt64, Json.isUint64] <;>
      simp [IntType.overload, loadInt, loadInt16, loadInt8, loadUInt8, loadUInt16, loadUInt,
        loadULongLong, loadUInt64, loadInt64, IntFormat.Holds, int32, uint32, int64, uint64] at holds <;>
      omega
  have same : loadInteger type (saveInteger type x) =
      .ok (type.overload.target.convert x.val) := if_pos passes
  rw [same, IntFormat.convert_val]

/-- What is saved without loss is restored. -/
theorem wellFormed_restores (platform : Platform) (ty : Ty) (savable : ty.Savable) (x : ty.Val)
    (wellFormed : ty.WellFormed x) (nulFree : ty.NulFree x) :
    Restores (loadJsonValue platform ty) ty.initial (saveJsonValue ty) x := by
  induction ty with
  | string =>
    have same : saveJsonValue .string x = .string x :=
      congrArg Json.string (cString_of_nulFree x nulFree)
    rw [Restores, same]
    rfl
  | integer type =>
    change assign (fun x _ => x) (loadInteger type (saveInteger type x)) _ = _
    rw [loadInteger_save]
    rfl
  | bool => rfl
  | double => rfl
  | pair a b first second =>
    have head := first savable.1 x.1 wellFormed.1 nulFree.1
    have tail := second savable.2 x.2 wellFormed.2 nulFree.2
    have step : (zoom Prod.fst (fun a t => (a, t.2)) (loadJsonValue platform a (saveJsonValue a x.1)) :
        Loading LoadError (a.Val × b.Val) Unit) (a.initial, b.initial) = (.ok (), (x.1, b.initial)) := by
      rw [zoom_apply, head]
    exact (bind_ok step).trans (by rw [zoom_apply, tail])
  | vector a each | deque a each =>
    have elements :=
      loadElements_restores x fun e member => each savable e (wellFormed e member) (nulFree e member)
    refine (bind_ok rfl).trans ?_
    rwa [List.length_map]
  | array a n each =>
    obtain ⟨x, rfl⟩ := x
    have elements :=
      loadElements_restores x fun e member => each savable e (wellFormed e member) (nulFree e member)
    have same : (x.map (saveJsonValue a)).length = x.length := List.length_map ..
    change loadArray x.length (loadJsonValue platform a) (.array (x.map (saveJsonValue a))) _ = _
    rw [loadArray_same same]
    exact Prod.ext (by simp [loadFixed, Ty.initial, elements])
      (Subtype.ext (by simp [loadFixed, Ty.initial, elements]))
  | set a each =>
    have elements := fun e member => each savable e (wellFormed.1 e member) (nulFree e member)
    refine (bind_ok rfl).trans (loadEmplaced_restores x [] elements ?_)
    intro before e after split
    have below : ∀ f ∈ before, a.less f e = true := related_of_pairwise wellFormed.2 split
    simpa using emplaceOrdered_last below
  | unorderedSet a each =>
    have elements := fun e member => each savable e (wellFormed.1 e member) (nulFree e member)
    refine (bind_ok rfl).trans (loadEmplaced_restores x [] elements ?_)
    intro before e after split
    have apart : ∀ f ∈ before, a.equal f e = false := related_of_pairwise wellFormed.2 split
    simpa using emplaceUnordered_last apart
  | map a each =>
    have keys : saveJsonValue (.map a) x =
        .object (x.entries.map fun e => (e.1, saveJsonValue a e.2)) :=
      congrArg Json.object (List.map_congr_left fun e member => by
        rw [cString_of_nulFree e.1 (nulFree e member).1])
    rw [Restores, keys]
    exact loadMap_restores x _ fun e member => each savable e.2 (wellFormed e member) (nulFree e member).2
  | unorderedMap a each =>
    have keys : saveJsonValue (.unorderedMap a) x =
        .object (x.entries.map fun e => (e.1, saveJsonValue a e.2)) :=
      congrArg Json.object (List.map_congr_left fun e member => by
        rw [cString_of_nulFree e.1 (nulFree e member).1])
    rw [Restores, keys]
    exact loadUnorderedMap_restores x _ fun e member =>
      each savable e.2 (wellFormed e member) (nulFree e member).2
  | optional a each =>
    cases x with
    | none => rfl
    | some e =>
      have restored := fresh_restores (each savable.1 e (wellFormed e rfl) (nulFree e rfl))
      have solid := save_not_null a savable.2 e
      change loadOptional a.initial (loadJsonValue platform a) (saveJsonValue a e) none = _
      rw [loadOptional, solid, restored]
      rfl

theorem loadJsonValue_restores (platform : Platform) (ty : Ty) (savable : ty.Savable) (x : ty.Val)
    (valid : ty.Valid x) (nulFree : ty.NulFree x) :
    Restores (loadJsonValue platform ty) ty.initial (saveJsonValue ty) x :=
  wellFormed_restores platform ty savable x valid.wellFormed nulFree

mutual
/-- No string and no member name of the document contains a NUL byte. -/
def Json.NulFree : Json → Prop
  | .string s => MujinClient.NulFree s
  | .array js => Json.NulFreeElements js
  | .object members => Json.NulFreeMembers members
  | _ => True

def Json.NulFreeElements : List Json → Prop
  | [] => True
  | j :: js => j.NulFree ∧ Json.NulFreeElements js

def Json.NulFreeMembers : Json.Members → Prop
  | [] => True
  | (name, value) :: rest => MujinClient.NulFree name ∧ value.NulFree ∧ Json.NulFreeMembers rest
end

theorem Json.nulFree_array : (Json.array js).NulFree ↔ ∀ j ∈ js, j.NulFree := by
  rw [Json.NulFree]
  induction js with
  | nil => simp [Json.NulFreeElements]
  | cons j js ih => simp [Json.NulFreeElements, ih]

theorem Json.nulFree_object :
    (Json.object members).NulFree ↔ ∀ m ∈ members, MujinClient.NulFree m.1 ∧ m.2.NulFree := by
  rw [Json.NulFree]
  induction members with
  | nil => simp [Json.NulFreeMembers]
  | cons m rest ih =>
    obtain ⟨name, value⟩ := m
    simp [Json.NulFreeMembers, ih, and_assoc]

theorem save_nulFree (ty : Ty) (x : ty.Val) : (saveJsonValue ty x).NulFree := by
  induction ty with
  | string => exact cString_nulFree x
  | integer _ | bool | double => trivial
  | pair a b first second => exact Json.nulFree_array.mpr (by simp [first, second])
  | vector a each | deque a each | set a each | unorderedSet a each | array a n each =>
    refine Json.nulFree_array.mpr fun j member => ?_
    obtain ⟨e, -, rfl⟩ := List.mem_map.mp member
    exact each e
  | map a each | unorderedMap a each =>
    refine Json.nulFree_object.mpr fun m member => ?_
    obtain ⟨e, -, rfl⟩ := List.mem_map.mp member
    exact ⟨cString_nulFree e.1, each e.2⟩
  | optional a each =>
    cases x with
    | none => trivial
    | some e => exact each e

theorem loadString_nulFree {v : Json} (free : v.NulFree) (loaded : loadString v = .ok t) :
    NulFree t := by
  unfold loadString at loaded
  split at loaded
  · rw [Except.ok.injEq] at loaded
    exact loaded ▸ free
  · split at loaded
    · rw [Except.ok.injEq] at loaded
      exact loaded ▸ intText_nulFree _
    · contradiction

theorem keeps_loaded {free : α → Prop} {outcome : Except LoadError α}
    (loaded : ∀ x, outcome = .ok x → free x) : Keeps free (assign (fun x _ => x) outcome) :=
  keeps_lift_bind fun x result => keeps_update _ fun _ _ => loaded x result

theorem fresh_keeps {load : Load α} {free : α → Prop} (keeps : Keeps free (load j)) (start : free s)
    (loaded : fresh s load j = .ok x) : free x := by
  have holds := keeps s start
  unfold fresh at loaded
  rcases ran : load j s with ⟨e | _, y⟩ <;> rw [ran] at loaded holds
  · contradiction
  · rw [Except.ok.injEq] at loaded
    exact loaded ▸ holds

theorem keeps_loadElements {load : Load α} {free : α → Prop} (js : List Json)
    (each : ∀ j ∈ js, Keeps free (load j)) :
    Keeps (fun ts => ∀ t ∈ ts, free t) (loadElements load js) := by
  induction js with
  | nil => exact fun _ holds => holds
  | cons j js ih =>
    rintro (_ | ⟨t, ts⟩) holds
    · simp [loadElements]
    · have head := each j List.mem_cons_self t (holds t List.mem_cons_self)
      have rest : ∀ x ∈ ts, free x := fun x member => holds x (List.mem_cons_of_mem _ member)
      have tail := ih (fun k later => each k (List.mem_cons_of_mem _ later)) ts rest
      rcases ran : load j t with ⟨e | a, t'⟩
      · rw [ran] at head
        simpa [loadElements, ran] using ⟨head, rest⟩
      · rw [ran] at head
        simpa [loadElements, ran] using ⟨head, tail⟩

theorem keeps_loadPair {first : Load α} {second : Load β} {free : α → Prop} {clean : β → Prop}
    (v : Json) (nulFree : v.NulFree) (left : ∀ j : Json, j.NulFree → Keeps free (first j))
    (right : ∀ j : Json, j.NulFree → Keeps clean (second j)) :
    Keeps (fun t => free t.1 ∧ clean t.2) (loadPair first second v) := by
  unfold loadPair
  split
  · rename_i x y
    have parts := Json.nulFree_array.mp nulFree
    exact (keeps_zoom (left x (parts x (by simp))) (fun _ holds => holds.1)
        (fun _ _ holds part => ⟨part, holds.2⟩)).bind fun _ =>
      keeps_zoom (right y (parts y (by simp))) (fun _ holds => holds.2)
        (fun _ _ holds part => ⟨holds.1, part⟩)
  · exact keeps_lift _
  · exact keeps_lift _

theorem keeps_loadSequence {load : Load α} {free : α → Prop} (typeName : String) (clean : free start)
    (v : Json) (nulFree : v.NulFree) (each : ∀ j : Json, j.NulFree → Keeps free (load j)) :
    Keeps (fun ts => ∀ t ∈ ts, free t) (loadSequence typeName start load v) := by
  cases v with
  | array js =>
    refine (keeps_update _ fun _ _ t member => ?_).bind fun _ =>
      keeps_loadElements js fun j member => each j (Json.nulFree_array.mp nulFree j member)
    exact List.eq_of_mem_replicate member ▸ clean
  | _ => exact keeps_lift _

theorem keeps_loadSet {load : Load α} {free : α → Prop} {emplace : α → List α → List α}
    (clean : free start) (v : Json) (nulFree : v.NulFree)
    (each : ∀ j : Json, j.NulFree → Keeps free (load j))
    (added : ∀ x ys, ∀ y ∈ emplace x ys, y = x ∨ y ∈ ys) :
    Keeps (fun ts => ∀ t ∈ ts, free t) (loadSet emplace start load v) := by
  have emplaced : ∀ js : List Json, (∀ j ∈ js, j.NulFree) →
      Keeps (fun ts => ∀ t ∈ ts, free t) (loadSet.loadEmplaced emplace start load js) := by
    intro js all
    induction js with
    | nil => exact fun _ holds => holds
    | cons j js ih =>
      refine keeps_lift_bind fun x loaded => (keeps_update _ fun ys holds y member => ?_).bind fun _ =>
        ih fun k later => all k (List.mem_cons_of_mem _ later)
      rcases added x ys y member with rfl | old
      · exact fresh_keeps (each j (all j List.mem_cons_self)) clean loaded
      · exact holds y old
  cases v with
  | array js =>
    exact (keeps_update _ fun _ _ => by simp).bind fun _ => emplaced js (Json.nulFree_array.mp nulFree)
  | _ => exact keeps_lift _

theorem mem_emplaceOrdered {less : α → α → Bool} (x : α) (ys : List α) :
    ∀ y ∈ Ty.emplaceOrdered less x ys, y = x ∨ y ∈ ys := by
  induction ys with
  | nil => simp [Ty.emplaceOrdered]
  | cons z zs ih =>
    intro y member
    unfold Ty.emplaceOrdered at member
    split at member
    · rcases List.mem_cons.mp member with rfl | later
      · exact .inr List.mem_cons_self
      · exact (ih y later).imp_right (List.mem_cons_of_mem _)
    · split at member
      · exact List.mem_cons.mp member
      · exact .inr member

theorem mem_emplaceUnordered {equal : α → α → Bool} (x : α) (ys : List α) :
    ∀ y ∈ Ty.emplaceUnordered equal x ys, y = x ∨ y ∈ ys := by
  intro y member
  unfold Ty.emplaceUnordered at member
  split at member
  · exact .inr member
  · simpa [or_comm] using member

/-- Entries are inserted under clean names, with values loaded over clean ones. -/
theorem keeps_loadMembers {load : Load α} {free : α → Prop} {clean : τ → Prop}
    {view : Text → τ → α} {put : Text → α → τ → τ} (members : Json.Members)
    (nulFree : ∀ m ∈ members, NulFree m.1 ∧ m.2.NulFree)
    (each : ∀ j : Json, j.NulFree → Keeps free (load j))
    (enter : ∀ name t, clean t → free (view name t))
    (leave : ∀ name t x, NulFree name → clean t → free x → clean (put name x t)) :
    Keeps clean (loadMembers view put load members) := by
  induction members with
  | nil => exact fun _ holds => holds
  | cons m rest ih =>
    obtain ⟨name, value⟩ := nulFree m List.mem_cons_self
    exact (keeps_zoom (each m.2 value) (enter m.1) fun t x => leave m.1 t x name).bind fun _ =>
      ih fun k later => nulFree k (List.mem_cons_of_mem _ later)

theorem find?_getD_free {free : α → Prop} (m : SortedMap Text α) (clean : free start)
    (all : ∀ e ∈ m.entries, NulFree e.1 ∧ free e.2) : free ((m.find? name).getD start) := by
  cases found : m.find? name with
  | none => exact clean
  | some x => exact (all _ ((SortedMap.mem_entries_iff m).mpr found)).2

theorem insert_free {free : α → Prop} (m : SortedMap Text α) (name : NulFree key) (value : free x)
    (all : ∀ e ∈ m.entries, NulFree e.1 ∧ free e.2) :
    ∀ e ∈ (m.insert key x).entries, NulFree e.1 ∧ free e.2 := by
  intro e member
  rcases SortedMap.mem_insertEntry member with rfl | old
  · exact ⟨name, value⟩
  · exact all e old

theorem keeps_loadMap {load : Load α} {free : α → Prop} (clean : free start)
    (v : Json) (nulFree : v.NulFree) (each : ∀ j : Json, j.NulFree → Keeps free (load j)) :
    Keeps (fun m : SortedMap Text α => ∀ e ∈ m.entries, NulFree e.1 ∧ free e.2)
      (loadMap start load v) := by
  cases v with
  | array js =>
    have all := Json.nulFree_array.mp nulFree
    change Keeps _ (loadEntries start load js)
    clear nulFree
    induction js with
    | nil => exact fun _ holds => holds
    | cons j js ih =>
      have entry := keeps_loadPair j (all j List.mem_cons_self)
        (fun k free => keeps_loaded fun x => loadString_nulFree free) each
      refine keeps_lift_bind fun x loaded => (keeps_update _ fun m holds => ?_).bind fun _ =>
        ih fun k later => all k (List.mem_cons_of_mem _ later)
      have free := fresh_keeps (s := ([], start)) entry ⟨List.not_mem_nil, clean⟩ loaded
      exact insert_free m free.1 free.2 holds
  | object members =>
    exact (keeps_update _ fun _ _ => by simp).bind fun _ =>
      keeps_loadMembers members (Json.nulFree_object.mp nulFree) each
        (fun _ m holds => find?_getD_free m clean holds)
        (fun _ m _ name holds value => insert_free m name value holds)
  | _ => exact keeps_lift _

theorem keeps_loadUnorderedMap {load : Load α} {free : α → Prop} (clean : free start)
    (v : Json) (nulFree : v.NulFree) (each : ∀ j : Json, j.NulFree → Keeps free (load j)) :
    Keeps (fun m : UnorderedMap Text α => ∀ e ∈ m.entries, NulFree e.1 ∧ free e.2)
      (loadUnorderedMap start load v) := by
  cases v with
  | object members =>
    refine (keeps_update _ fun _ _ => by simp).bind fun _ =>
      keeps_loadMembers members (Json.nulFree_object.mp nulFree) each
        (fun name m holds => ?_) (fun name m x free holds value e member => ?_)
    · cases found : m.find? name with
      | none => exact clean
      | some x => exact (holds _ (mem_of_findEntry found)).2
    · rcases UnorderedMap.mem_insertEntry member with rfl | old
      · exact ⟨free, value⟩
      · exact holds e old
  | _ => exact keeps_lift _

theorem keeps_loadJsonValue (platform : Platform) (ty : Ty) (v : Json) (nulFree : v.NulFree) :
    Keeps ty.NulFree (loadJsonValue platform ty v) := by
  induction ty generalizing v with
  | string => exact keeps_loaded fun x => loadString_nulFree nulFree
  | integer _ | bool | double => exact fun _ _ => trivial
  | pair a b first second => exact keeps_loadPair v nulFree first second
  | vector a each | deque a each => exact keeps_loadSequence _ a.initial_nulFree v nulFree each
  | array a n each =>
    cases v with
    | array js =>
      by_cases same : js.length = n
      · change Keeps _ (loadArray n (loadJsonValue platform a) (.array js))
        rw [loadArray_same same]
        exact fun t holds => keeps_loadElements js
          (fun j member => each j (Json.nulFree_array.mp nulFree j member)) t.val holds
      · obtain ⟨e, thrown⟩ := loadArray_other (loadJsonValue platform a) same
        change Keeps _ (loadArray n (loadJsonValue platform a) (.array js))
        rw [thrown]
        exact keeps_lift _
    | _ => exact keeps_lift _
  | set a each =>
    exact keeps_loadSet a.initial_nulFree v nulFree each mem_emplaceOrdered
  | unorderedSet a each =>
    exact keeps_loadSet a.initial_nulFree v nulFree each mem_emplaceUnordered
  | map a each => exact keeps_loadMap a.initial_nulFree v nulFree each
  | unorderedMap a each => exact keeps_loadUnorderedMap a.initial_nulFree v nulFree each
  | optional a each =>
    simp only [loadJsonValue, loadOptional]
    split
    · exact keeps_update _ fun _ _ => by simp [Ty.NulFree]
    · refine keeps_lift_bind fun x loaded => keeps_update _ fun _ _ e member => ?_
      rw [← Option.mem_some_iff.mp member]
      exact fresh_keeps (each v nulFree) a.initial_nulFree loaded

/-- A value survives saving and loading exactly if it contains no NUL byte. -/
theorem loadJsonValue_saveJsonValue_iff (platform : Platform) (ty : Ty) (savable : ty.Savable)
    (x : ty.Val) (valid : ty.Valid x) :
    (∃ y, loadJsonValue platform ty (saveJsonValue ty x) ty.initial = (.ok (), y) ∧
      ty.equal x y = true) ↔ ty.NulFree x := by
  constructor
  · rintro ⟨y, loaded, same⟩
    have free := keeps_loadJsonValue platform ty _ (save_nulFree ty x) ty.initial ty.initial_nulFree
    rw [loaded] at free
    exact ty.nulFree_of_equal x y same free
  · intro free
    exact ⟨x, loadJsonValue_restores platform ty savable x valid free, ty.equal_refl x valid⟩

/-- Two keys that differ after a NUL byte only. -/
def mergedKeys : (Ty.map .bool).Val :=
  (SortedMap.empty.insert [97, 0] true).insert [97, 0, 0] false

theorem loadJsonValue_saveJsonValue_iff_merged :
    (∃ y, loadJsonValue default (.map .bool) (saveJsonValue (.map .bool) mergedKeys)
        (Ty.map .bool).initial = (.ok (), y) ∧ (Ty.map .bool).equal mergedKeys y = true) ↔
      (Ty.map .bool).NulFree mergedKeys :=
  loadJsonValue_saveJsonValue_iff default (.map .bool) trivial mergedKeys fun _ _ => trivial

/-- The two entries come back as one. -/
theorem mergedKeys_not_restored :
    ¬∀ (platform : Platform) (ty : Ty), ty.Savable → ∀ x : ty.Val, ty.Valid x →
      ∃ y, loadJsonValue platform ty (saveJsonValue ty x) ty.initial = (.ok (), y) ∧
        ty.equal x y = true := by
  intro restores
  obtain ⟨y, loaded, same⟩ := restores default (.map .bool) trivial mergedKeys fun _ _ => trivial
  have merged : loadJsonValue default (.map .bool) (saveJsonValue (.map .bool) mergedKeys)
      (Ty.map .bool).initial = (.ok (), SortedMap.empty.insert (lit "a") false) := by
    rfl
  rw [merged] at loaded
  rw [← (Prod.mk.inj loaded).2] at same
  revert same
  decide

end MujinClient
