import MujinClient.Text
import MujinClient.Binary64

/-! The rapidjson document tree: values, member lookup and `operator==`. Object
members keep their order and may repeat a name, as in the library. -/
namespace MujinClient

/-- The integers a rapidjson number stores exactly. Its flags are range tests on them. -/
structure JsonInt where
  value : Int
  range : -2 ^ 63 ≤ value ∧ value < 2 ^ 64
  deriving DecidableEq

inductive Json where
  | null
  | bool (b : Bool)
  | int (z : JsonInt)
  | double (d : Double)
  | string (s : Text)
  | array (elements : List Json)
  | object (members : List (Text × Json))

namespace Json

instance : Inhabited Json := ⟨.null⟩

abbrev Members := List (Text × Json)

/-- `FindMember`: the first member with exactly this name. -/
def findMember : Members → Text → Option Json
  | [], _ => none
  | (other, value) :: rest, name => if other = name then some value else findMember rest name

/-- Overwrite the first member of this name. -/
def assignMember : Members → Text → Json → Members
  | [], _, _ => []
  | (other, old) :: rest, name, value =>
    if other = name then (other, value) :: rest else (other, old) :: assignMember rest name value

def names (members : Members) : List Text := members.map Prod.fst

@[simp] theorem findMember_nil : findMember [] name = none := rfl
@[simp] theorem names_nil : names [] = [] := rfl
@[simp] theorem names_cons : names ((name, value) :: rest) = name :: names rest := rfl
@[simp] theorem names_append : names (first ++ second) = names first ++ names second := by
  simp [names]

@[simp] theorem findMember_cons_same : findMember ((name, value) :: rest) name = some value := by
  simp [findMember]

theorem findMember_cons_other (h : other ≠ name) :
    findMember ((other, value) :: rest) name = findMember rest name := by
  simp [findMember, h]

theorem findMember_eq_none_iff : findMember members name = none ↔ name ∉ names members := by
  induction members with
  | nil => simp
  | cons member rest ih =>
    obtain ⟨other, value⟩ := member
    by_cases same : other = name
    · simp [same]
    · simp [findMember_cons_other same, ih, Ne.symm same]

theorem mem_of_findMember (found : findMember members name = some value) :
    (name, value) ∈ members := by
  induction members with
  | nil => simp at found
  | cons member rest ih =>
    obtain ⟨other, old⟩ := member
    by_cases same : other = name
    · subst other
      rw [findMember_cons_same, Option.some.injEq] at found
      simp [found]
    · rw [findMember_cons_other same] at found
      exact List.mem_cons_of_mem _ (ih found)

theorem findMember_of_mem (distinct : (names members).Nodup) (member : (name, value) ∈ members) :
    findMember members name = some value := by
  induction members with
  | nil => simp at member
  | cons head rest ih =>
    obtain ⟨other, old⟩ := head
    rw [names_cons, List.nodup_cons] at distinct
    rcases List.mem_cons.mp member with same | later
    · obtain ⟨rfl, rfl⟩ := Prod.mk.inj same
      exact findMember_cons_same
    · have apart : other ≠ name := by
        rintro rfl
        exact distinct.1 (List.mem_map_of_mem later)
      rw [findMember_cons_other apart]
      exact ih distinct.2 later

theorem findMember_append (first second : Members) :
    findMember (first ++ second) name = (findMember first name).or (findMember second name) := by
  induction first with
  | nil => simp
  | cons member rest ih =>
    obtain ⟨other, value⟩ := member
    by_cases same : other = name
    · simp [same]
    · simp [findMember_cons_other same, ih]

@[simp] theorem names_assignMember : names (assignMember members name value) = names members := by
  induction members with
  | nil => rfl
  | cons member rest ih =>
    obtain ⟨other, old⟩ := member
    by_cases same : other = name <;> simp [assignMember, same, ih]

@[simp] theorem length_assignMember :
    (assignMember members name value).length = members.length := by
  have same : names (assignMember members name value) = names members := names_assignMember
  simpa [names] using congrArg List.length same

theorem findMember_assignMember_same (present : name ∈ names members) :
    findMember (assignMember members name value) name = some value := by
  induction members with
  | nil => simp at present
  | cons member rest ih =>
    obtain ⟨other, old⟩ := member
    by_cases same : other = name
    · simp [assignMember, same]
    · rw [assignMember, if_neg same, findMember_cons_other same]
      exact ih (by simpa [Ne.symm same] using present)

theorem findMember_assignMember_other (apart : other ≠ name) :
    findMember (assignMember members name value) other = findMember members other := by
  induction members with
  | nil => rfl
  | cons member rest ih =>
    obtain ⟨head, old⟩ := member
    by_cases same : head = name
    · subst head
      simp [assignMember, findMember_cons_other (Ne.symm apart)]
    · simp only [assignMember, if_neg same, findMember, ih]

theorem assignMember_unchanged (found : findMember members name = some value) :
    assignMember members name value = members := by
  induction members with
  | nil => rfl
  | cons member rest ih =>
    obtain ⟨other, old⟩ := member
    by_cases same : other = name
    · subst other
      rw [findMember_cons_same, Option.some.injEq] at found
      simp [assignMember, found]
    · rw [findMember_cons_other same] at found
      rw [assignMember, if_neg same, ih found]

def isNull : Json → Bool
  | .null => true
  | _ => false

def isString : Json → Bool
  | .string _ => true
  | _ => false

def isArray : Json → Bool
  | .array _ => true
  | _ => false

def isObject : Json → Bool
  | .object _ => true
  | _ => false

def isInt : Json → Bool
  | .int z => -2 ^ 31 ≤ z.value && z.value < 2 ^ 31
  | _ => false

def isUint : Json → Bool
  | .int z => 0 ≤ z.value && z.value < 2 ^ 32
  | _ => false

def isInt64 : Json → Bool
  | .int z => -2 ^ 63 ≤ z.value && z.value < 2 ^ 63
  | _ => false

def isUint64 : Json → Bool
  | .int z => 0 ≤ z.value && z.value < 2 ^ 64
  | _ => false

/-- `GetDouble` of a number; integers are converted. -/
def getDouble? : Json → Option Double
  | .int z => some (Double.ofInt z.value)
  | .double d => some d
  | _ => none

mutual
/-- `operator==`. Two integers are compared by their 64 stored bits, any other pair of
numbers as doubles, and objects without regard to the order of their members. -/
def equal : Json → Json → Bool
  | .null, .null => true
  | .bool a, .bool b => a == b
  | .int a, .int b => a.value % 2 ^ 64 == b.value % 2 ^ 64
  | .int a, .double b => Double.equal (Double.ofInt a.value) b
  | .double a, .int b => Double.equal a (Double.ofInt b.value)
  | .double a, .double b => Double.equal a b
  | .string a, .string b => a == b
  | .array xs, .array ys => equalElements xs ys
  | .object xs, .object ys => xs.length == ys.length && equalMembers xs ys
  | _, _ => false

def equalElements : List Json → List Json → Bool
  | [], [] => true
  | x :: xs, y :: ys => equal x y && equalElements xs ys
  | _, _ => false

/-- Every member on the left has a member of its name on the right with an equal value. -/
def equalMembers : Members → Members → Bool
  | [], _ => true
  | (name, value) :: rest, others =>
    (match findMember others name with
      | some other => equal value other
      | none => false) && equalMembers rest others
end

mutual
/-- Member names are pairwise distinct at every depth and no number is not-a-number. -/
def Regular : Json → Prop
  | .double d => d.isNan = false
  | .array xs => RegularElements xs
  | .object xs => (names xs).Nodup ∧ RegularMembers xs
  | _ => True

def RegularElements : List Json → Prop
  | [] => True
  | x :: xs => Regular x ∧ RegularElements xs

def RegularMembers : Members → Prop
  | [] => True
  | (_, value) :: rest => Regular value ∧ RegularMembers rest
end

theorem regularMembers_iff :
    RegularMembers members ↔ ∀ name value, (name, value) ∈ members → Regular value := by
  induction members with
  | nil => simp [RegularMembers]
  | cons member rest ih =>
    obtain ⟨name, value⟩ := member
    rw [RegularMembers, ih]
    constructor
    · rintro ⟨head, tail⟩ other v found
      rcases List.mem_cons.mp found with same | later
      · exact (Prod.mk.inj same).2 ▸ head
      · exact tail other v later
    · intro all
      exact ⟨all name value (by simp), fun other v later => all other v (List.mem_cons_of_mem _ later)⟩

theorem equalMembers_iff :
    equalMembers members others = true ↔ ∀ name value, (name, value) ∈ members →
      ∃ other, findMember others name = some other ∧ equal value other = true := by
  induction members with
  | nil => simp [equalMembers]
  | cons member rest ih =>
    obtain ⟨name, value⟩ := member
    rw [equalMembers, Bool.and_eq_true, ih]
    constructor
    · rintro ⟨head, tail⟩ n v found
      rcases List.mem_cons.mp found with same | later
      · obtain ⟨rfl, rfl⟩ := Prod.mk.inj same
        cases h : findMember others n with
        | none => simp [h] at head
        | some other => exact ⟨other, rfl, by simpa [h] using head⟩
      · exact tail n v later
    · intro all
      refine ⟨?_, fun n v later => all n v (List.mem_cons_of_mem _ later)⟩
      obtain ⟨other, found, same⟩ := all name value (by simp)
      simp [found, same]

mutual
theorem equal_refl : (v : Json) → Regular v → equal v v = true
  | .null, _ | .bool _, _ | .string _, _ | .int _, _ => by simp [equal]
  | .double d, regular => by simpa [equal] using Double.equal_refl d regular
  | .array xs, regular => equalElements_refl xs regular
  | .object xs, regular => by
    obtain ⟨distinct, members⟩ := regular
    simpa [equal] using equalMembers_refl xs members xs distinct (fun _ h => h)

theorem equalElements_refl : (xs : List Json) → RegularElements xs → equalElements xs xs = true
  | [], _ => rfl
  | x :: xs, regular => by
    simp [equalElements, equal_refl x regular.1, equalElements_refl xs regular.2]

/-- Stated for a part of an object's members, which the recursion takes apart. -/
theorem equalMembers_refl : (part : Members) → RegularMembers part → (all : Members) →
    (names all).Nodup → part ⊆ all → equalMembers part all = true
  | [], _, _, _, _ => rfl
  | (name, value) :: rest, regular, all, distinct, within => by
    have found := findMember_of_mem distinct (within List.mem_cons_self)
    simp [equalMembers, found, equal_refl value regular.1,
      equalMembers_refl rest regular.2 all distinct (fun _ h => within (List.mem_cons_of_mem _ h))]
end

mutual
def same : Json → Json → Bool
  | .null, .null => true
  | .bool a, .bool b => a == b
  | .int a, .int b => a == b
  | .double a, .double b => a == b
  | .string a, .string b => a == b
  | .array xs, .array ys => sameElements xs ys
  | .object xs, .object ys => sameMembers xs ys
  | _, _ => false

def sameElements : List Json → List Json → Bool
  | [], [] => true
  | x :: xs, y :: ys => same x y && sameElements xs ys
  | _, _ => false

def sameMembers : Members → Members → Bool
  | [], [] => true
  | (n, x) :: xs, (m, y) :: ys => n == m && same x y && sameMembers xs ys
  | _, _ => false
end

mutual
theorem same_iff : (v w : Json) → (same v w = true ↔ v = w)
  | .array xs, w => by
    cases w <;> simp [same, sameElements_iff xs]
  | .object xs, w => by
    cases w <;> simp [same, sameMembers_iff xs]
  | .null, w | .bool _, w | .int _, w | .double _, w | .string _, w => by
    cases w <;> simp [same]

theorem sameElements_iff : (xs ys : List Json) → (sameElements xs ys = true ↔ xs = ys)
  | [], ys => by cases ys <;> simp [sameElements]
  | x :: xs, ys => by cases ys <;> simp [sameElements, same_iff x, sameElements_iff xs]

theorem sameMembers_iff : (xs ys : Members) → (sameMembers xs ys = true ↔ xs = ys)
  | [], ys => by cases ys <;> simp [sameMembers]
  | (n, x) :: xs, ys => by
    cases ys with
    | nil => simp [sameMembers]
    | cons head ys =>
      simp [sameMembers, same_iff x, sameMembers_iff xs, Prod.ext_iff, and_assoc]
end

instance : DecidableEq Json := fun v w => decidable_of_iff _ (same_iff v w)

end Json
end MujinClient
