import MujinClient.Json
import MujinClient.Machine

/-! The scalar overloads of `LoadJsonValue`. Numbers are assigned through the C++
integer conversions and strings go through `boost::lexical_cast`, so the width of
every intermediate type matters. -/
namespace MujinClient

def splitSign : Text → Bool × Text
  | [] => (false, [])
  | b :: rest =>
    if b = byte '-' then (true, rest) else if b = byte '+' then (false, rest) else (false, b :: rest)

/-- Sign and magnitude of a decimal integer. -/
def decimal? (t : Text) : Option (Bool × Nat) :=
  let (negative, digits) := splitSign t
  if digits ≠ [] ∧ digits.all isDigit then some (negative, digitsValue digits) else none

/-- A leading minus sign negates modulo `2 ^ bits` when the target is unsigned. -/
def lexicalCast (f : IntFormat) (t : Text) : Option Int :=
  (decimal? t).bind fun (negative, magnitude) =>
    let z : Int := if negative then -magnitude else magnitude
    if f.signed then if f.Holds z then some z else none
    else if magnitude < 2 ^ f.bits then some (f.wrap z) else none

/-- `boost::lexical_cast<bool>`: zeros before a last digit 0 or 1, and no `-1`. -/
def lexicalCastBool (t : Text) : Option Bool :=
  match decimal? t with
  | some (_, 0) => some false
  | some (false, 1) => some true
  | _ => none

/-- The text of a decimal integer: optional sign, then digits. -/
inductive Spells : Text → Int → Prop where
  | plain (some : digits ≠ []) (all : digits.all isDigit) : Spells digits (digitsValue digits)
  | positive (some : digits ≠ []) (all : digits.all isDigit) :
    Spells (byte '+' :: digits) (digitsValue digits)
  | negative (some : digits ≠ []) (all : digits.all isDigit) :
    Spells (byte '-' :: digits) (-digitsValue digits)

theorem splitSign_digits (all : digits.all isDigit) : splitSign digits = (false, digits) := by
  cases digits with
  | nil => rfl
  | cons b rest =>
    have digit := (List.all_eq_true.mp all) b List.mem_cons_self
    have notMinus : b ≠ byte '-' := by rintro rfl; revert digit; decide
    have notPlus : b ≠ byte '+' := by rintro rfl; revert digit; decide
    simp [splitSign, notMinus, notPlus]

theorem decimal?_of_spells (spells : Spells t z) :
    ∃ negative magnitude, decimal? t = some (negative, magnitude) ∧
      z = if negative then -(magnitude : Int) else magnitude := by
  cases spells with
  | plain some all => exact ⟨false, _, by simp [decimal?, splitSign_digits all, some, all], rfl⟩
  | @positive digits some all =>
    have sign : splitSign (byte '+' :: digits) = (false, digits) := rfl
    exact ⟨false, _, by simp [decimal?, sign, some, all], rfl⟩
  | @negative digits some all =>
    have sign : splitSign (byte '-' :: digits) = (true, digits) := rfl
    exact ⟨true, _, by simp [decimal?, sign, some, all], rfl⟩

theorem spells_nulFree (spells : Spells t z) : NulFree t := by
  have digits : ∀ {ds : Text}, ds.all isDigit → NulFree ds := by
    intro ds all member
    exact absurd (List.all_eq_true.mp all 0 member) (by decide)
  cases spells with
  | plain _ all => exact digits all
  | positive _ all | negative _ all =>
    intro member
    rcases List.mem_cons.mp member with head | tail
    · exact absurd head (by decide)
    · exact digits all tail

/-- The spelled integers `lexical_cast` accepts for the type. -/
def IntFormat.Casts (f : IntFormat) (z : Int) : Prop :=
  if f.signed then f.Holds z else z.natAbs < 2 ^ f.bits

instance (f : IntFormat) (z : Int) : Decidable (f.Casts z) := by
  unfold IntFormat.Casts; infer_instance

theorem lexicalCast_of_spells (spells : Spells t z) :
    lexicalCast f t = if f.Casts z then some (f.wrap z) else none := by
  obtain ⟨negative, magnitude, split, value⟩ := decimal?_of_spells spells
  have size : z.natAbs = magnitude := by rw [value]; split <;> omega
  simp only [lexicalCast, split, Option.bind_some, ← value, IntFormat.Casts, size]
  split
  · split
    · rename_i holds
      rw [(f.wrap_eq_iff z).mpr holds]
    · rfl
  · rfl

inductive LoadError where
  /-- A `MujinJSONException` with this message. -/
  | message (text : Text)
  /-- A `MujinJSONException` whose message has `GetJsonString(v)` between two texts. -/
  | rejected (before : Text) (v : Json) (after : Text)
  /-- `boost::bad_lexical_cast`, which is not a `MujinJSONException`. -/
  | badLexicalCast
  /-- A failed `BOOST_ASSERT` or `RAPIDJSON_ASSERT`: a `MujinException` with code `MEC_Assert`. -/
  | assertion
  /-- Any other `MujinException`. -/
  | mujin (e : MujinException)
  deriving DecidableEq

/-- `MujinJSONException::message()` prefixes what it was constructed with. -/
def exceptionPrefix : Text := lit "mujin (): "

/-- What `LexicalCast` throws. -/
def cannotConvert (text : Text) (typeName : String) : LoadError :=
  .message (lit "Cannot convert \"" ++ text ++ lit "\" to type " ++ lit typeName)

/-- The last branch of most overloads. -/
def cannotConvertJson (typeName : String) (v : Json) : LoadError :=
  .rejected (lit "Cannot convert json type ") v (lit " to " ++ lit typeName)

-- The integer overloads differ in the tests they make on a number, in the type a string is cast
-- to and in their errors.
structure IntegerOverload where
  target : IntFormat
  /-- The number predicates tried in order. -/
  tests : List (Json → Bool)
  lexical : IntFormat
  wider : target.bits ≤ lexical.bits
  castError : Text → LoadError
  typeError : Json → LoadError

/-- `GetInt`, `GetUint`, `GetInt64` and `GetUint64` after their test has passed. -/
def getInteger : Json → Int
  | .int z => z.value
  | _ => 0

/-- One of the number tests of the overload passes. -/
def IntegerOverload.number (o : IntegerOverload) (v : Json) : Bool := o.tests.any fun test => test v

def IntegerOverload.load (o : IntegerOverload) (v : Json) : Except LoadError o.target.Value :=
  if o.number v then .ok (o.target.convert (getInteger v))
  else match v with
    | .string s =>
      match lexicalCast o.lexical (cString s) with
      | some z => .ok (o.target.convert z)
      | none => .error (o.castError (cString s))
    | .bool b => .ok (o.target.convert (if b then 1 else 0))
    | _ => .error (o.typeError v)

def loadInt : IntegerOverload where
  target := int32
  tests := [Json.isInt, Json.isUint]
  lexical := int32
  wider := le_rfl
  castError text := cannotConvert text "Int"
  typeError := cannotConvertJson "Int"

/-- Calls `boost::lexical_cast` itself, and its message has the value after the format text. -/
def loadInt16 : IntegerOverload where
  target := ⟨16, true⟩
  tests := [Json.isInt]
  lexical := ⟨16, true⟩
  wider := le_rfl
  castError _ := .badLexicalCast
  typeError v := .rejected (lit "Cannot convert JSON type %s to Int") v []

def loadInt8 : IntegerOverload where
  target := ⟨8, true⟩
  tests := [Json.isInt, Json.isUint]
  lexical := int32
  wider := by decide
  castError text := cannotConvert text "Int8"
  typeError := cannotConvertJson "Int8"

def loadUInt8 : IntegerOverload where
  target := ⟨8, false⟩
  tests := [Json.isUint]
  lexical := uint32
  wider := by decide
  castError text := cannotConvert text "UInt8"
  typeError := cannotConvertJson "UInt8"

def loadUInt16 : IntegerOverload where
  target := ⟨16, false⟩
  tests := [Json.isUint]
  lexical := ⟨16, false⟩
  wider := le_rfl
  castError text := cannotConvert text "UInt"
  typeError := cannotConvertJson "UInt"

def loadUInt : IntegerOverload where
  target := uint32
  tests := [Json.isUint]
  lexical := uint32
  wider := le_rfl
  castError text := cannotConvert text "UInt"
  typeError := cannotConvertJson "UInt"

def loadULongLong : IntegerOverload where
  target := uint64
  tests := [Json.isUint64]
  lexical := uint64
  wider := le_rfl
  castError text := cannotConvert text "ULongLong"
  typeError := cannotConvertJson "ULongLong"

def loadUInt64 : IntegerOverload where
  target := uint64
  tests := [Json.isUint64]
  lexical := uint64
  wider := le_rfl
  castError text := cannotConvert text "UInt64"
  typeError := cannotConvertJson "UInt64"

def loadInt64 : IntegerOverload where
  target := int64
  tests := [Json.isInt64]
  lexical := int64
  wider := le_rfl
  castError text := cannotConvert text "Int64"
  typeError := cannotConvertJson "Int64"

/-- The integer types with an overload of `LoadJsonValue`. -/
inductive IntType where
  | int | int16 | int8 | uint8 | uint16 | uint | ulonglong | uint64 | int64
  deriving DecidableEq

def IntType.overload : IntType → IntegerOverload
  | .int => loadInt
  | .int16 => loadInt16
  | .int8 => loadInt8
  | .uint8 => loadUInt8
  | .uint16 => loadUInt16
  | .uint => loadUInt
  | .ulonglong => loadULongLong
  | .uint64 => loadUInt64
  | .int64 => loadInt64

abbrev IntType.Value (type : IntType) := type.overload.target.Value

def loadInteger (type : IntType) : Json → Except LoadError type.Value := type.overload.load

def loadString (v : Json) : Except LoadError Text :=
  match v with
  | .string s => .ok s
  | _ => if v.isInt64 then .ok (intText (getInteger v)) else .error (cannotConvertJson "String" v)

theorem loadString_ok_iff (v : Json) : (∃ t, loadString v = .ok t) ↔ v.isString = true ∨ v.isInt64 = true := by
  unfold loadString
  split
  · simp [Json.isString]
  · rename_i other
    have notString : v.isString = false := by
      cases v with
      | string s => exact absurd rfl (other s)
      | _ => rfl
    split <;> simp_all

def loadDouble (platform : Platform) (v : Json) : Except LoadError Double :=
  match v.getDouble? with
  | some d => .ok d
  | none =>
    match v with
    | .string s =>
      match platform.lexicalDouble (cString s) with
      | some d => .ok d
      | none => .error (cannotConvert (cString s) "Double")
    | _ => .error (cannotConvertJson "Double" v)

def loadBool (v : Json) : Except LoadError Bool :=
  if v.isInt then .ok (getInteger v ≠ 0)
  else match v with
    | .bool b => .ok b
    | .string s =>
      match lexicalCastBool (cString s) with
      | some b => .ok b
      | none => .error (cannotConvert (cString s) "Bool")
    | _ => .error (cannotConvertJson "Bool" v)

/-- A JSON integer number, or a JSON string that spells a decimal integer. Beyond 64
bits the library keeps an integer number as a double. -/
inductive Denotes : Json → Int → Prop where
  | number (z : JsonInt) : Denotes (.int z) z.value
  | large (beyond : ¬(-2 ^ 63 ≤ z ∧ z < 2 ^ 64)) : Denotes (.double (Double.ofInt z)) z
  | string (spells : Spells t z) : Denotes (.string t) z

/-- The overload's own number test, or the width of its `lexical_cast`, lets the integer through. -/
def IntegerOverload.Admits (o : IntegerOverload) (v : Json) (z : Int) : Prop :=
  match v with
  | .string _ => o.lexical.Casts z
  | v => o.number v = true

instance (o : IntegerOverload) (v : Json) (z : Int) : Decidable (o.Admits v z) := by
  unfold IntegerOverload.Admits
  split <;> infer_instance

/-- No overload tests for anything but integers. -/
def IntegerOverload.TestsIntegers (o : IntegerOverload) : Prop :=
  ∀ test ∈ o.tests, ∀ v, test v = true → ∃ z, v = .int z

theorem overload_testsIntegers (type : IntType) : type.overload.TestsIntegers := by
  have integers : ∀ test ∈ [Json.isInt, Json.isUint, Json.isInt64, Json.isUint64], ∀ v,
      test v = true → ∃ z, v = .int z := by
    intro test member v passed
    cases v with
    | int z => exact ⟨z, rfl⟩
    | _ =>
      simp only [List.mem_cons, List.not_mem_nil, or_false] at member
      rcases member with rfl | rfl | rfl | rfl <;> contradiction
  have known : type.overload.tests ⊆ [Json.isInt, Json.isUint, Json.isInt64, Json.isUint64] := by
    cases type <;> simp [IntType.overload, loadInt, loadInt16, loadInt8, loadUInt8, loadUInt16,
      loadUInt, loadULongLong, loadUInt64, loadInt64]
  exact fun test member => integers test (known member)

/-- An admitted integer is stored modulo the target's width, any other one is rejected. -/
theorem IntegerOverload.load_of_denotes (o : IntegerOverload) (tests : o.TestsIntegers)
    (denotes : Denotes v z) :
    (o.Admits v z → o.load v = .ok (o.target.convert z)) ∧
    (¬o.Admits v z → ∃ e, o.load v = .error e) := by
  have onlyIntegers : ∀ {w}, (∀ n, w ≠ .int n) → o.number w = false := by
    intro w other
    rw [IntegerOverload.number, List.any_eq_false]
    intro test member passed
    obtain ⟨n, rfl⟩ := tests test member w passed
    exact other n rfl
  cases denotes with
  | number z =>
    constructor
    · intro admits
      have passes : o.number (.int z) = true := admits
      simp [IntegerOverload.load, passes, getInteger]
    · intro rejected
      have fails : ¬o.number (.int z) = true := rejected
      exact ⟨_, by simp [IntegerOverload.load, fails]; rfl⟩
  | large beyond =>
    have fails := onlyIntegers (w := .double (Double.ofInt z)) (by simp)
    constructor
    · intro admits
      have passes : o.number (.double (Double.ofInt z)) = true := admits
      simp [fails] at passes
    · intro _
      exact ⟨_, by simp [IntegerOverload.load, fails]; rfl⟩
  | @string t z spells =>
    have fails := onlyIntegers (w := .string t) (by simp)
    have cast := lexicalCast_of_spells (f := o.lexical) spells
    rw [IntegerOverload.load, fails]
    simp only [cString_of_nulFree t (spells_nulFree spells), cast]
    constructor
    · intro admits
      have casts : o.lexical.Casts z := admits
      simp [casts, IntFormat.convert, IntFormat.wrap_wrap _ _ o.wider]
    · intro rejected
      have casts : ¬o.lexical.Casts z := rejected
      simp [casts]

/-- An overload throws or stores the exact integer precisely when the target type has
that integer or the overload's own test keeps it out. -/
theorem loadInteger_exact_iff (type : IntType) (denotes : Denotes v z) :
    (∀ stored, loadInteger type v = .ok stored → stored.val = z) ↔
      type.overload.target.Holds z ∨ ¬type.overload.Admits v z := by
  obtain ⟨accepted, rejected⟩ :=
    type.overload.load_of_denotes (overload_testsIntegers type) denotes
  rw [← IntFormat.convert_eq_iff]
  by_cases admits : type.overload.Admits v z
  · simp [loadInteger, accepted admits, admits]
  · obtain ⟨e, thrown⟩ := rejected admits
    simp [loadInteger, thrown, admits]

/-- A configured port of 65616 is neither rejected nor kept. -/
theorem loadInteger_exact_iff_port :
    (∀ stored, loadInteger .uint16 (.int ⟨65616, by decide⟩) = .ok stored → stored.val = 65616) ↔
      loadUInt16.target.Holds 65616 ∨ ¬loadUInt16.Admits (.int ⟨65616, by decide⟩) 65616 :=
  loadInteger_exact_iff .uint16 (.number ⟨65616, by decide⟩)

/-- The port 65616 becomes port 80. -/
theorem loadInteger_narrows :
    ¬∀ (type : IntType) (v : Json) (z : Int), Denotes v z →
      (∃ e, loadInteger type v = .error e) ∨
        ∃ stored, loadInteger type v = .ok stored ∧ stored.val = z := by
  intro exact_or_error
  have port : loadInteger .uint16 (.int ⟨65616, by decide⟩) = .ok ⟨80, by decide⟩ := by decide
  rcases exact_or_error .uint16 _ _ (.number ⟨65616, by decide⟩) with ⟨e, thrown⟩ | ⟨x, stored, same⟩
  · rw [port] at thrown
    contradiction
  · rw [port, Except.ok.injEq] at stored
    rw [← stored] at same
    contradiction

end MujinClient
