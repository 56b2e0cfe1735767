import MujinClient.ReplyParsers
import MujinClient.RequestBodies
import MujinClient.RoundTrip
import Mathlib.Analysis.Real.Sqrt

/-! Environment states: where the objects of a task are. They are written from a template and read back
through the parser of the client. The definitions are over any numbers, the results over the reals. -/
namespace MujinClient

open Loading Transition

abbrev Coordinates (R : Type) (n : Nat) := { elements : List R // elements.length = n }

structure InstanceObjectState (R : Type) where
  quaternion : Coordinates R 4
  translate : Coordinates R 3
  dofvalues : List R

abbrev EnvironmentState (R : Type) := SortedMap Text (InstanceObjectState R)

section

variable {R : Type} (print : R → Text)

def InstanceObjectState.serialize (name : Text) (state : InstanceObjectState R) : Text :=
  lit "\x7b \"name\":\"" ++ name ++ lit "\", \"translation_\":[" ++
    separated (lit ",") (state.translate.val.map print) ++
    lit "], \"quat_\":[" ++ separated (lit ",") (state.quaternion.val.map print) ++
    lit "], \"dofvalues\":[" ++ separated (lit ",") (state.dofvalues.map print) ++ lit "] \x7d"

/-- The loop over the objects. Those without a name are left out. -/
def serializeObjects (bhaswritten : Bool) : List (Text × InstanceObjectState R) → Text
  | [] => []
  | itstate :: rest =>
    if itstate.1.length > 0 then
      (if bhaswritten then lit "," else []) ++ itstate.2.serialize print itstate.1 ++ serializeObjects true rest
    else serializeObjects bhaswritten rest

def serializeEnvironmentStateToJSON (envstate : EnvironmentState R) : Text :=
  lit "[" ++ serializeObjects print false envstate.entries ++ lit "]"

end

section

variable {R : Type} [Zero R] [One R] [Add R] [Mul R] [Div R] [LT R] [DecidableLT R] (sqrt : R → R)

/-- The components of a quaternion as they are taken over: their squares, normalized. -/
def extractQuaternion (quat : Coordinates R 4) : Coordinates R 4 :=
  let squares := quat.val.map fun q => q * q
  let dist2 := squares.foldl (· + ·) 0
  if 0 < dist2 then ⟨squares.map (· * (1 / sqrt dist2)), by simp [squares, quat.property]⟩
  else ⟨squares, by simp [squares, quat.property]⟩

variable (platform : Platform) (number : Json → Except LoadError R)

def loadNumber : Load R := fun v => assign (fun r _ => r) (number v)

def extractObject (it : Json) : Except LoadError (Text × InstanceObjectState R) := do
  let name ← valueByKey platform .string it "name"
  let quat ← fresh [] (loadJsonValueByKey (loadVector 0 (loadNumber number)) · "quat_") it
  if size : quat.length = 4 then
    let translate ← fresh ⟨[0, 0, 0], rfl⟩
        (loadJsonValueByKey (loadArray 3 (loadNumber number)) · "translation_") it
    let dofvalues ← fresh [] (loadJsonValueByKey (loadVector 0 (loadNumber number)) · "dofvalues") it
    return (name, ⟨extractQuaternion sqrt ⟨quat, size⟩, translate, dofvalues⟩)
  else .error .assertion

def extractEnvironmentStateFromPTree (envstatejson : Json) : Loading LoadError (EnvironmentState R) Unit := do
  update fun _ => .empty
  let objects ← lift (elementsOf envstatejson)
  forEach (fun it => assign (fun object envstate => envstate.insert object.1 object.2)
    (extractObject sqrt platform number it)) objects

end

section

variable {R : Type} (print : R → Text) (number : Json → Except LoadError R)

def PrintsBack (r : R) : Prop := ∃ v, readJson clientToken (print r) = some v ∧ number v = .ok r

def writtenNumber (r : R) : Json := (readJson clientToken (print r)).getD .null

namespace InstanceObjectState

def numbers (state : InstanceObjectState R) : List R :=
  state.quaternion.val ++ state.translate.val ++ state.dofvalues

def document (name : Text) (state : InstanceObjectState R) : Json :=
  .object [(lit "name", .string name),
    (lit "translation_", .array (state.translate.val.map (writtenNumber print))),
    (lit "quat_", .array (state.quaternion.val.map (writtenNumber print))),
    (lit "dofvalues", .array (state.dofvalues.map (writtenNumber print)))]

end InstanceObjectState

variable {print number}

theorem PrintsBack.yields (back : PrintsBack print number r) :
    Yields clientToken (print r) (writtenNumber print r) := by
  obtain ⟨v, read, -⟩ := back
  rw [yields_iff_readJson, writtenNumber, read, Option.getD_some]

theorem PrintsBack.restores (back : PrintsBack print number r) (start : R) :
    Restores (loadNumber number) start (writtenNumber print) r := by
  obtain ⟨v, read, loaded⟩ := back
  rw [Restores, writtenNumber, read, Option.getD_some, loadNumber, loaded]
  rfl

theorem exact_numbers {values : List R} (back : ∀ r ∈ values, PrintsBack print number r) :
    Exact clientToken
      (byte '[' :: (blanks 0 ++ (separated (byte ',' :: blanks 0) (values.map print) ++ [byte ']'])))
      (.array (values.map (writtenNumber print))) True :=
  (yields_spacedArray 0 0 (forall₂_map values fun r inside => (back r inside).yields)).exact

theorem yields_serialize {state : InstanceObjectState R} (plain : Plain name)
    (back : ∀ r ∈ state.numbers, PrintsBack print number r) :
    Yields clientToken (state.serialize print name) (state.document print name) := by
  obtain ⟨transform, dofvalues⟩ := List.forall_mem_append.mp back
  obtain ⟨quaternion, translate⟩ := List.forall_mem_append.mp transform
  have template := (exact_named clientToken "name" name (plain_lit _ (by decide)) 0).first 1 1
    |>.next ((exact_numbers translate).member "translation_" (plain_lit _ (by decide)) 0) 1
    |>.next ((exact_numbers quaternion).member "quat_" (plain_lit _ (by decide)) 0) 1
    |>.close ((exact_numbers dofvalues).member "dofvalues" (plain_lit _ (by decide)) 0) 1
  have yields := template.yields ⟨⟨⟨plain, trivial⟩, trivial⟩, trivial⟩
  convert yields using 1
  · simp only [InstanceObjectState.serialize, templateMember, quoted, List.append_assoc, List.cons_append,
      List.nil_append]
    rfl
  · rfl

theorem serializeObjects_true (entries : List (Text × InstanceObjectState R))
    (nonempty : ∀ entry ∈ entries, entry.1 ≠ []) :
    serializeObjects print true entries = entries.flatMap fun entry => lit "," ++
      entry.2.serialize print entry.1 := by
  induction entries with
  | nil => rfl
  | cons entry rest ih =>
    have written := List.length_pos_iff.mpr (nonempty entry List.mem_cons_self)
    rw [serializeObjects, if_pos written, ih fun e later => nonempty e (List.mem_cons_of_mem _ later)]
    rfl

/-- The separators stand between the objects. -/
theorem serializeObjects_false (entries : List (Text × InstanceObjectState R))
    (nonempty : ∀ entry ∈ entries, entry.1 ≠ []) :
    serializeObjects print false entries = separated (lit ",")
    (entries.map fun entry => entry.2.serialize print entry.1) := by
  cases entries with
  | nil => rfl
  | cons entry rest =>
    have written := List.length_pos_iff.mpr (nonempty entry List.mem_cons_self)
    have behind : ∀ (t : Text) (others : List (Text × InstanceObjectState R)),
        t ++ others.flatMap (fun entry => lit "," ++ entry.2.serialize print entry.1) =
          separated (lit ",") (t :: others.map fun entry => entry.2.serialize print entry.1) := by
      intro t others
      induction others generalizing t with
      | nil => simp [separated]
      | cons other others ih => simp [separated, ← ih]
    rw [serializeObjects, if_pos written, serializeObjects_true rest fun e later =>
      nonempty e (List.mem_cons_of_mem _ later)]
    exact behind _ rest

theorem readJson_serialize {envstate : EnvironmentState R} (nonempty : ∀ entry ∈ envstate.entries, entry.1 ≠ [])
    (plain : ∀ entry ∈ envstate.entries, Plain entry.1)
    (back : ∀ entry ∈ envstate.entries, ∀ r ∈ entry.2.numbers, PrintsBack print number r) :
    readJson clientToken (serializeEnvironmentStateToJSON print envstate) =
      some (.array (envstate.entries.map fun entry => entry.2.document print entry.1)) := by
  have none : Spaces [] := by simp [Spaces]
  have objects := yields_array none
    (forall₂_map envstate.entries fun entry inside => yields_serialize (plain entry inside) (back entry inside))
  rw [serializeEnvironmentStateToJSON, serializeObjects_false _ nonempty]
  exact objects.readJson

theorem loadVector_restores {values : List R} {save : R → Json} {load : Load R} {start : R}
    (each : ∀ r ∈ values, Restores load start save r) (before : List R) :
    loadVector start load (.array (values.map save)) before = (.ok (), values) := by
  have elements := loadElements_restores values each
  rw [← List.length_map (f := save)] at elements
  exact elements

theorem loadArray_restores {values : List R} {n : Nat} (same : values.length = n) {save : R → Json}
    {load : Load R} {start : R} (each : ∀ r ∈ values, Restores load start save r) :
    loadArray n load (.array (values.map save)) ⟨List.replicate n start, by simp⟩ = (.ok (), ⟨values, same⟩) := by
  subst same
  have elements := loadElements_restores values each
  have returned : (loadFixed values.length load (values.map save)
      ⟨List.replicate values.length start, by simp⟩).1 = .ok () :=
    congrArg Prod.fst elements
  have filled : (loadFixed values.length load (values.map save)
      ⟨List.replicate values.length start, by simp⟩).2 = ⟨values, rfl⟩ :=
    Subtype.ext (congrArg Prod.snd elements)
  rw [loadArray_same (by simp)]
  exact Prod.ext returned filled

theorem fresh_byKey {α : Type} {load : Load α} {start x : α} {members : Json.Members} {key : String} {v : Json}
    (found : Json.findMember members (lit key) = some v) (present : v ≠ .null)
    (loaded : load v start = (.ok (), x)) :
    fresh start (loadJsonValueByKey load · key) (.object members) = .ok x := by
  have inside : loadJsonValueByKey load (.object members) key start = (.ok (), x) := by
    rw [loadJsonValueByKey]
    simp only [found]
    cases v with
    | null => exact absurd rfl present
    | _ => rw [mapError, loaded]; rfl
  rw [fresh, inside]

variable [Zero R] [One R] [Add R] [Mul R] [Div R] [LT R] [DecidableLT R] (sqrt : R → R) (platform : Platform)

def InstanceObjectState.extracted (state : InstanceObjectState R) : InstanceObjectState R :=
  { state with quaternion := extractQuaternion sqrt state.quaternion }

theorem extractObject_document {state : InstanceObjectState R}
    (back : ∀ r ∈ state.numbers, PrintsBack print number r) :
    extractObject sqrt platform number (state.document print name) = .ok (name, state.extracted sqrt) := by
  obtain ⟨transform, dofvaluesBack⟩ := List.forall_mem_append.mp back
  obtain ⟨quaternionBack, translateBack⟩ := List.forall_mem_append.mp transform
  have named : valueByKey platform .string (state.document print name) "name" = .ok name := valueByKey_string rfl
  have quat : fresh [] (loadJsonValueByKey (loadVector 0 (loadNumber number)) · "quat_")
      (state.document print name) =
      .ok state.quaternion.val :=
    fresh_byKey rfl (by simp) (loadVector_restores (fun r inside => (quaternionBack r inside).restores 0) [])
  have translation : fresh ⟨[0, 0, 0], rfl⟩ (loadJsonValueByKey (loadArray 3 (loadNumber number)) · "translation_")
      (state.document print name) = .ok state.translate :=
    fresh_byKey rfl (by simp) (loadArray_restores state.translate.property fun r inside =>
      (translateBack r inside).restores 0)
  have dofvalues : fresh [] (loadJsonValueByKey (loadVector 0 (loadNumber number)) · "dofvalues")
      (state.document print name) =
      .ok state.dofvalues :=
    fresh_byKey rfl (by simp) (loadVector_restores (fun r inside => (dofvaluesBack r inside).restores 0) [])
  rw [extractObject, named, quat, translation, dofvalues]
  simp only [bind, Except.bind, dif_pos state.quaternion.property]
  rfl

/-- The state that is read back has every quaternion replaced by the one that is taken over. -/
theorem extract_documents {envstate : EnvironmentState R}
    (back : ∀ entry ∈ envstate.entries, ∀ r ∈ entry.2.numbers, PrintsBack print number r)
    (before : EnvironmentState R) :
    extractEnvironmentStateFromPTree sqrt platform number
      (.array (envstate.entries.map fun entry => entry.2.document print entry.1)) before =
      (.ok (), envstate.mapValues (InstanceObjectState.extracted sqrt)) := by
  have read : ∀ entry ∈ envstate.entries, extractObject sqrt platform number (entry.2.document print entry.1) =
      .ok (entry.1, entry.2.extracted sqrt) :=
        fun entry inside => extractObject_document sqrt platform (back entry inside)
  have ran := forEach_assign (fun object (envstate : EnvironmentState R) =>
    envstate.insert object.1 object.2) envstate.entries read .empty
  have whole : (SortedMap.empty : EnvironmentState R).insertAll
      (envstate.entries.map fun entry => (entry.1, entry.2.extracted sqrt)) =
      envstate.mapValues (InstanceObjectState.extracted sqrt) :=
    (envstate.mapValues (InstanceObjectState.extracted sqrt)).insertAll_entries
  exact ran.trans (Prod.ext rfl whole)

end

namespace EnvironmentState

variable {print : ℝ → Text} {number : Json → Except LoadError ℝ} {envstate : EnvironmentState ℝ}

def HasNormOne (quat : Coordinates ℝ 4) : Prop := (quat.val.map fun q => q * q).sum = 1

/-- Of a unit quaternion the squares are taken over. -/
theorem extractQuaternion_normOne (unit : HasNormOne quat) :
    (extractQuaternion Real.sqrt quat).val = quat.val.map fun q => q * q := by
  have dist2 : (quat.val.map fun q => q * q).foldl (· + ·) 0 = 1 := List.sum_eq_foldl.symm.trans unit
  simp only [extractQuaternion, dist2, if_pos one_pos, Real.sqrt_one, div_one, mul_one, List.map_id']

theorem extractQuaternion_eq_iff (unit : HasNormOne quat) :
    extractQuaternion Real.sqrt quat = quat ↔ ∀ q ∈ quat.val, q = 0 ∨ q = 1 := by
  rw [Subtype.ext_iff, extractQuaternion_normOne unit]
  have each : (quat.val.map fun q => q * q) = quat.val.map id ↔ ∀ q ∈ quat.val, q * q = id q := List.map_inj_left
  rw [List.map_id] at each
  exact each.trans (forall₂_congr fun q _ => IsIdempotentElem.iff_eq_zero_or_one)

theorem mapValues_extracted_iff : envstate.mapValues (InstanceObjectState.extracted Real.sqrt) = envstate ↔
    ∀ entry ∈ envstate.entries, extractQuaternion Real.sqrt entry.2.quaternion = entry.2.quaternion := by
  have entries : (envstate.entries.map fun entry => (entry.1, entry.2.extracted Real.sqrt)) =
      envstate.entries.map id ↔
      ∀ entry ∈ envstate.entries, (entry.1, entry.2.extracted Real.sqrt) = entry := List.map_inj_left
  rw [List.map_id] at entries
  constructor
  · intro same entry inside
    have kept := entries.mp (congrArg SortedMap.entries same) entry inside
    exact congrArg (fun e : Text × InstanceObjectState ℝ => e.2.quaternion) kept
  · intro each
    refine SortedMap.ext_entries (entries.mpr fun entry inside => ?_)
    rw [InstanceObjectState.extracted, each entry inside]

variable (print number) in
/-- What is written is read as JSON, and into any state as the state that was written. -/
def RoundTrips (platform : Platform) (envstate : EnvironmentState ℝ) : Prop :=
  ∃ d, readJson clientToken (serializeEnvironmentStateToJSON print envstate) = some d ∧
    ∀ before, extractEnvironmentStateFromPTree Real.sqrt platform number d before = (.ok (), envstate)

theorem roundTrips_iff_kept (platform : Platform) (nonempty : ∀ entry ∈ envstate.entries, entry.1 ≠ [])
    (plain : ∀ entry ∈ envstate.entries, Plain entry.1)
    (back : ∀ entry ∈ envstate.entries, ∀ r ∈ entry.2.numbers, PrintsBack print number r) :
    RoundTrips print number platform envstate ↔
      ∀ entry ∈ envstate.entries, extractQuaternion Real.sqrt entry.2.quaternion = entry.2.quaternion := by
  have read := readJson_serialize nonempty plain back
  have extracted := extract_documents Real.sqrt platform back
  rw [← mapValues_extracted_iff]
  constructor
  · rintro ⟨d, known, ran⟩
    obtain rfl := Option.some.inj (known.symm.trans read)
    exact (Prod.mk.inj ((extracted .empty).symm.trans (ran .empty))).2
  · intro kept
    exact ⟨_, read, fun before => (extracted before).trans (by rw [kept])⟩

/-- Of the unit quaternions, exactly those come back whose components are 0 and 1. -/
theorem roundTrips_iff (platform : Platform) (nonempty : ∀ entry ∈ envstate.entries, entry.1 ≠ [])
    (plain : ∀ entry ∈ envstate.entries, Plain entry.1)
    (unit : ∀ entry ∈ envstate.entries, HasNormOne entry.2.quaternion)
    (back : ∀ entry ∈ envstate.entries, ∀ r ∈ entry.2.numbers, PrintsBack print number r) :
    RoundTrips print number platform envstate ↔ ∀ entry ∈ envstate.entries, ∀ q ∈ entry.2.quaternion.val,
      q = 0 ∨ q = 1 := by
  rw [roundTrips_iff_kept platform nonempty plain back]
  exact forall₂_congr fun entry inside => extractQuaternion_eq_iff (unit entry inside)

noncomputable def printInteger (r : ℝ) : Text := intText ⌊r⌋

noncomputable def readInteger : Json → Except LoadError ℝ
  | .int z => .ok z.value
  | v => .error (cannotConvertJson "Double" v)

theorem printsBack_int (z : JsonInt) : PrintsBack printInteger readInteger z.value := by
  refine ⟨.int z, ?_, rfl⟩
  rw [printInteger, Int.floor_intCast]
  exact (yields_intText clientToken_reader z).readJson

/-- One object "a" at the origin, turned by `[w, 0, 0, 0]`. -/
def oneObject (w : ℝ) : EnvironmentState ℝ := ⟨[(lit "a", ⟨⟨[w, 0, 0, 0], rfl⟩, ⟨[0, 0, 0], rfl⟩, []⟩)], by simp⟩

theorem printsBack_oneObject (w : JsonInt) : ∀ entry ∈ (oneObject w.value).entries, ∀ r ∈ entry.2.numbers,
    PrintsBack printInteger readInteger r := by
  have zero : PrintsBack printInteger readInteger 0 := by
    have printed := printsBack_int ⟨0, by decide, by decide⟩
    rwa [Int.cast_zero] at printed
  intro entry inside r number
  obtain rfl := List.mem_singleton.mp inside
  have known : r = w.value ∨ r = 0 := by
    simp only [InstanceObjectState.numbers, List.append_nil, List.cons_append, List.nil_append,
      List.mem_cons, List.not_mem_nil] at number
    tauto
  rcases known with rfl | rfl
  · exact printsBack_int w
  · exact zero

theorem normOne_oneObject (square : w * w = 1) :
    ∀ entry ∈ (oneObject w).entries, HasNormOne entry.2.quaternion := by
  intro entry inside
  obtain rfl := List.mem_singleton.mp inside
  simp [HasNormOne, square]

theorem plain_oneObject (w : ℝ) : ∀ entry ∈ (oneObject w).entries, entry.1 ≠ [] ∧ Plain entry.1 := by
  intro entry inside
  obtain rfl := List.mem_singleton.mp inside
  exact ⟨show lit "a" ≠ [] by decide, plain_lit _ (by decide)⟩

theorem plusOne_range : -2 ^ 63 ≤ (1 : Int) ∧ (1 : Int) < 2 ^ 64 := by decide
theorem minusOne_range : -2 ^ 63 ≤ (-1 : Int) ∧ (-1 : Int) < 2 ^ 64 := by decide

def plusOne : JsonInt := ⟨1, plusOne_range⟩
def minusOne : JsonInt := ⟨-1, minusOne_range⟩

theorem roundTrips_iff_identity : RoundTrips printInteger readInteger default (oneObject plusOne.value) ↔
    ∀ entry ∈ (oneObject plusOne.value).entries, ∀ q ∈ entry.2.quaternion.val, q = 0 ∨ q = 1 :=
  roundTrips_iff default (fun entry inside => (plain_oneObject _ entry inside).1)
    (fun entry inside => (plain_oneObject _ entry inside).2)
    (normOne_oneObject (by norm_num [plusOne])) (printsBack_oneObject plusOne)

/-- The sign of a component is lost. -/
theorem sign_lost :
    ¬∀ (print : ℝ → Text) (number : Json → Except LoadError ℝ) (platform : Platform)
      (envstate : EnvironmentState ℝ),
    (∀ entry ∈ envstate.entries, entry.1 ≠ []) → (∀ entry ∈ envstate.entries, Plain entry.1) →
    (∀ entry ∈ envstate.entries, HasNormOne entry.2.quaternion) →
    (∀ entry ∈ envstate.entries, ∀ r ∈ entry.2.numbers, PrintsBack print number r) →
      RoundTrips print number platform envstate := by
  intro each
  have nonempty := fun entry inside => (plain_oneObject minusOne.value entry inside).1
  have plain := fun entry inside => (plain_oneObject minusOne.value entry inside).2
  have unit := normOne_oneObject (w := minusOne.value) (by norm_num [minusOne])
  have back := printsBack_oneObject minusOne
  have kept :=
    (roundTrips_iff_kept default nonempty plain back).mp (each _ _ default _ nonempty plain unit back) _
      List.mem_cons_self
  have component := (extractQuaternion_eq_iff (unit _ List.mem_cons_self)).mp kept _ List.mem_cons_self
  norm_num [minusOne] at component

end EnvironmentState

end MujinClient
