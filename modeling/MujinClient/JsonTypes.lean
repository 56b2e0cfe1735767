import MujinClient.Maps
import MujinClient.Loading
import MujinClient.LoadScalar

/-! `LoadJsonValue` and `SaveJsonValue` over the types built from the scalars by the
container templates. A load writes its target in place, part by part. -/
namespace MujinClient

inductive Ty where
  | string
  | integer (type : IntType)
  | bool
  | double
  | pair (first second : Ty)
  | vector (element : Ty)
  | array (element : Ty) (size : Nat)
  | deque (element : Ty)
  | set (element : Ty)
  | unorderedSet (element : Ty)
  | map (value : Ty)
  | unorderedMap (value : Ty)
  | optional (boxed : Ty)
  deriving DecidableEq

namespace Ty

/-- The values of a type. Sets are lists, since `operator<` on doubles is not total. -/
@[reducible] def Val : Ty → Type
  | string => Text
  | integer type => type.Value
  | bool => Bool
  | double => Double
  | pair a b => a.Val × b.Val
  | vector a | deque a | set a | unorderedSet a => List a.Val
  | array a n => { elements : List a.Val // elements.length = n }
  | map a => SortedMap Text a.Val
  | unorderedMap a => UnorderedMap Text a.Val
  | optional a => Option a.Val

def initial : (ty : Ty) → ty.Val
  | string => []
  | integer type => type.overload.target.convert 0
  | bool => false
  | double => Double.zero
  | pair a b => (a.initial, b.initial)
  | vector _ | deque _ | set _ | unorderedSet _ => []
  | array a n => ⟨List.replicate n a.initial, List.length_replicate⟩
  | map _ => SortedMap.empty
  | unorderedMap _ => UnorderedMap.empty
  | optional _ => none

/-- `std::lexicographical_compare`. -/
def lexLess (less : α → α → Bool) : List α → List α → Bool
  | _, [] => false
  | [], _ :: _ => true
  | x :: xs, y :: ys => less x y || (!less y x && lexLess less xs ys)

def pairLess (less : α → α → Bool) (below : β → β → Bool) (x y : α × β) : Bool :=
  less x.1 y.1 || (!less y.1 x.1 && below x.2 y.2)

/-- `operator<`, which the unordered containers do not have. -/
def less : (ty : Ty) → ty.Val → ty.Val → Bool
  | string, x, y => x < y
  | integer _, x, y => x.val < y.val
  | bool, x, y => !x && y
  | double, x, y => Double.lt x y
  | pair a b, x, y => pairLess a.less b.less x y
  | vector a, x, y | deque a, x, y | set a, x, y => lexLess a.less x y
  | array a _, x, y => lexLess a.less x.val y.val
  | map a, x, y => lexLess (pairLess (fun k l => decide (k < l)) a.less) x.entries y.entries
  | unorderedSet _, _, _ | unorderedMap _, _, _ => false
  | optional a, x, y =>
    match x, y with
    | _, none => false
    | none, some _ => true
    | some x, some y => a.less x y

def equalLists (equal : α → α → Bool) : List α → List α → Bool
  | [], [] => true
  | x :: xs, y :: ys => equal x y && equalLists equal xs ys
  | _, _ => false

def pairEqual (equal : α → α → Bool) (alike : β → β → Bool) (x y : α × β) : Bool :=
  equal x.1 y.1 && alike x.2 y.2

/-- `operator==`. The unordered containers are compared as sets. -/
def equal : (ty : Ty) → ty.Val → ty.Val → Bool
  | string, x, y => x == y
  | integer _, x, y => x == y
  | bool, x, y => x == y
  | double, x, y => Double.equal x y
  | pair a b, x, y => pairEqual a.equal b.equal x y
  | vector a, x, y | deque a, x, y | set a, x, y => equalLists a.equal x y
  | array a _, x, y => equalLists a.equal x.val y.val
  | unorderedSet a, x, y => x.length == y.length && x.all fun e => y.any fun f => a.equal e f
  | map a, x, y => equalLists (pairEqual (fun k l => k == l) a.equal) x.entries y.entries
  | unorderedMap a, x, y =>
    x.entries.length == y.entries.length &&
      x.entries.all fun e => y.entries.any fun f => pairEqual (fun k l => k == l) a.equal e f
  | optional a, x, y =>
    match x, y with
    | none, none => true
    | some x, some y => a.equal x y
    | _, _ => false

def emplaceOrdered (less : α → α → Bool) (x : α) : List α → List α
  | [] => [x]
  | y :: ys =>
    if less y x then y :: emplaceOrdered less x ys
    else if less x y then x :: y :: ys
    else y :: ys

def emplaceUnordered (equal : α → α → Bool) (x : α) (ys : List α) : List α :=
  if ys.any (fun y => equal y x) then ys else ys ++ [x]

end Ty

def getJsonTypeName : Json → Text
  | .null => lit "Null"
  | .bool false => lit "False"
  | .bool true => lit "True"
  | .object _ => lit "Object"
  | .array _ => lit "Array"
  | .string _ => lit "String"
  | .int _ | .double _ => lit "Number"

def cannotConvertShape (v : Json) (typeName : String) : LoadError :=
  .message (lit "Cannot convert json type " ++ getJsonTypeName v ++ lit " to " ++ lit typeName)

abbrev Load (α : Type) := Json → Loading LoadError α Unit

/-- Load into a temporary. -/
def fresh (start : α) (load : Load α) (v : Json) : Except LoadError α :=
  match load v start with
  | (.ok _, x) => .ok x
  | (.error e, _) => .error e

/-- Load the values of an array into the elements that are there for them. -/
def loadElements (load : Load α) : List Json → Loading LoadError (List α) Unit
  | [] => pure ()
  | j :: js => fun targets =>
    match targets with
    | [] => (.ok (), [])
    | t :: ts =>
      match load j t with
      | (.ok _, t) => ((loadElements load js ts).1, t :: (loadElements load js ts).2)
      | (.error e, t) => (.error e, t :: ts)

theorem length_loadElements (load : Load α) (js : List Json) (ts : List α) :
    (loadElements load js ts).2.length = ts.length := by
  induction js generalizing ts with
  | nil => rfl
  | cons j js ih =>
    cases ts with
    | nil => rfl
    | cons t ts =>
      unfold loadElements
      split
      · rename_i same
        simp at same
      · rename_i same
        obtain ⟨rfl, rfl⟩ := List.cons.inj same
        split <;> simp [ih]

def loadPair (first : Load α) (second : Load β) : Load (α × β)
  | .array [x, y] => do
    Loading.zoom Prod.fst (fun a t => (a, t.2)) (first x)
    Loading.zoom Prod.snd (fun b t => (t.1, b)) (second y)
  | .array _ => Loading.throw (.message (lit "List-based map has entry with size != 2"))
  | v => Loading.throw (cannotConvertShape v "Pair")

/-- `std::vector` and `std::deque`: cleared, resized and loaded element by element. -/
def loadSequence (typeName : String) (start : α) (load : Load α) : Load (List α)
  | .array js => do
    Loading.update fun _ => List.replicate js.length start
    loadElements load js
  | v => Loading.throw (cannotConvertShape v typeName)

def loadVector (start : α) (load : Load α) : Load (List α) := loadSequence "Vector" start load
def loadDeque (start : α) (load : Load α) : Load (List α) := loadSequence "deque" start load

/-- The elements of a fixed array are loaded over the old ones. -/
def loadFixed (n : Nat) (load : Load α) (js : List Json) :
    Loading LoadError { elements : List α // elements.length = n } Unit := fun t =>
  ((loadElements load js t.val).1,
    ⟨(loadElements load js t.val).2, (length_loadElements load js t.val).trans t.property⟩)

def loadArray (n : Nat) (load : Load α) : Load { elements : List α // elements.length = n }
  | .array js =>
    if js.length ≠ n then
      Loading.throw (.message (lit "Cannot convert json type " ++ getJsonTypeName (.array js) ++
        lit " to Array. Array length does not match (" ++ natText n ++ lit " != " ++
        natText js.length ++ lit ")"))
    else loadFixed n load js
  | v => Loading.throw (cannotConvertShape v "Array")

theorem loadArray_same {load : Load α} (same : js.length = n) :
    loadArray n load (.array js) = loadFixed n load js := by
  simp [loadArray, same]

theorem loadArray_other (load : Load α) (differ : js.length ≠ n) :
    ∃ e, loadArray n load (.array js) = Loading.throw e :=
  ⟨_, by rw [loadArray, if_pos differ]⟩

def loadCArray (n : Nat) (load : Load α) : Load { elements : List α // elements.length = n }
  | .array js =>
    if js.length ≠ n then Loading.throw (.message (lit "Json array size doesn't match"))
    else loadFixed n load js
  | v => Loading.throw (cannotConvertShape v "Array")

/-- `std::set` and `std::unordered_set`: cleared, then one temporary after the other. -/
def loadSet (emplace : α → List α → List α) (start : α) (load : Load α) : Load (List α)
  | .array js => do
    Loading.update fun _ => []
    loadEmplaced js
  | v => Loading.throw (cannotConvertShape v "set")
where
  loadEmplaced : List Json → Loading LoadError (List α) Unit
    | [] => pure ()
    | j :: js => do
      let x ← Loading.lift (fresh start load j)
      Loading.update (emplace x)
      loadEmplaced js

/-- The list branch of the map overload: entries are assigned one by one. -/
def loadEntries (start : α) (load : Load α) : List Json → Loading LoadError (SortedMap Text α) Unit
  | [] => pure ()
  | j :: js => do
    let entry ← Loading.lift
      (fresh ([], start) (loadPair (fun v => .assign (fun x _ => x) (loadString v)) load) j)
    Loading.update fun t => t.insert entry.1 entry.2
    loadEntries start load js

/-- Members are loaded into the entries `t[name]`, which exist from then on. -/
def loadMembers (view : Text → τ → α) (put : Text → α → τ → τ) (load : Load α) :
    Json.Members → Loading LoadError τ Unit
  | [] => pure ()
  | (name, value) :: rest => do
    Loading.zoom (view name) (put name) (load value)
    loadMembers view put load rest

/-- `std::map`. The list branch does not clear the target. -/
def loadMap (start : α) (load : Load α) : Load (SortedMap Text α)
  | .array js => loadEntries start load js
  | .object members => do
    Loading.update fun _ => SortedMap.empty
    loadMembers (fun name t => (t.find? name).getD start) (fun name x t => t.insert name x) load members
  | v => Loading.throw (cannotConvertShape v "Map")

def loadUnorderedMap (start : α) (load : Load α) : Load (UnorderedMap Text α)
  | .object members => do
    Loading.update fun _ => UnorderedMap.empty
    loadMembers (fun name t => (t.find? name).getD start) (fun name x t => t.insert name x) load members
  | v => Loading.throw (cannotConvertShape v "unordered_map")

def loadOptional (start : α) (load : Load α) (v : Json) : Loading LoadError (Option α) Unit :=
  if v.isNull then Loading.update fun _ => none
  else do
    let x ← Loading.lift (fresh start load v)
    Loading.update fun _ => some x

def loadJsonValue (platform : Platform) : (ty : Ty) → Load ty.Val
  | .string => fun v => .assign (fun x _ => x) (loadString v)
  | .integer type => fun v => .assign (fun x _ => x) (loadInteger type v)
  | .bool => fun v => .assign (fun x _ => x) (loadBool v)
  | .double => fun v => .assign (fun x _ => x) (loadDouble platform v)
  | .pair a b => loadPair (loadJsonValue platform a) (loadJsonValue platform b)
  | .vector a => loadVector a.initial (loadJsonValue platform a)
  | .array a n => loadArray n (loadJsonValue platform a)
  | .deque a => loadDeque a.initial (loadJsonValue platform a)
  | .set a => loadSet (Ty.emplaceOrdered a.less) a.initial (loadJsonValue platform a)
  | .unorderedSet a => loadSet (Ty.emplaceUnordered a.equal) a.initial (loadJsonValue platform a)
  | .map a => loadMap a.initial (loadJsonValue platform a)
  | .unorderedMap a => loadUnorderedMap a.initial (loadJsonValue platform a)
  | .optional a => loadOptional a.initial (loadJsonValue platform a)

theorem IntFormat.Holds.jsonRange {f : IntFormat} (holds : f.Holds z) (narrow : f.bits ≤ 64) :
    -2 ^ 63 ≤ z ∧ z < 2 ^ 64 := by
  have small : (2 : Int) ^ f.bits ≤ 2 ^ 64 := pow_le_pow_right₀ (by norm_num) narrow
  unfold IntFormat.Holds at holds
  split at holds <;> omega

theorem IntType.bits_le (type : IntType) : type.overload.target.bits ≤ 64 := by
  cases type <;> decide

/-- `SetInt`, `SetUint`, `SetInt64` and `SetUint64`. -/
def saveInteger (type : IntType) (x : type.Value) : Json :=
  .int ⟨x.val, x.property.jsonRange type.bits_le⟩

/-- `SetString(t.c_str())` stops at the first NUL byte. -/
def saveString (t : Text) : Json := .string (cString t)

def saveJsonValue : (ty : Ty) → ty.Val → Json
  | .string, t => saveString t
  | .integer type, t => saveInteger type t
  | .bool, t => .bool t
  | .double, t => .double t
  | .pair a b, t => .array [saveJsonValue a t.1, saveJsonValue b t.2]
  | .vector a, t | .deque a, t | .set a, t | .unorderedSet a, t => .array (t.map (saveJsonValue a))
  | .array a _, t => .array (t.val.map (saveJsonValue a))
  | .map a, t => .object (t.entries.map fun entry => (cString entry.1, saveJsonValue a entry.2))
  | .unorderedMap a, t =>
    .object (t.entries.map fun entry => (cString entry.1, saveJsonValue a entry.2))
  | .optional a, t =>
    match t with
    | none => .null
    | some x => saveJsonValue a x

/-- `LoadJsonValueByKey` rethrows the library's own exceptions with the key added. -/
def LoadError.atKey (key : Text) : LoadError → LoadError
  | .message text => .message (lit "Got \"" ++ exceptionPrefix ++ text ++
      lit "\" while parsing the value of \"" ++ key ++ lit "\"")
  | .rejected before v after => .rejected (lit "Got \"" ++ exceptionPrefix ++ before) v
      (after ++ lit "\" while parsing the value of \"" ++ key ++ lit "\"")
  | other => other

/-- `LoadJsonValueByKey(v, key, t)`: an absent or null member leaves the target alone. -/
def loadJsonValueByKey (load : Load α) (v : Json) (key : String) : Loading LoadError α Unit :=
  match v with
  | .object members =>
    match Json.findMember members (lit key) with
    | none | some .null => pure ()
    | some member => Loading.mapError (LoadError.atKey (lit key)) (load member)
  | _ => Loading.throw (.message (lit "Cannot load value of non-object."))

/-- `GetJsonValueByKey(v, key, fallback)`, which loads into a temporary. -/
def getJsonValueByKey (platform : Platform) (ty : Ty) (v : Json) (key : String) (fallback : ty.Val) :
    Except LoadError ty.Val :=
  match v with
  | .object members =>
    match Json.findMember members (lit key) with
    | none | some .null => .ok fallback
    | some member => (fresh ty.initial (loadJsonValue platform ty) member).mapError (LoadError.atKey (lit key))
  | _ => .error (.message (lit "Cannot get value of non-object (\"" ++ getJsonTypeName v ++
      lit "\") for key \"" ++ lit key ++ lit "\"."))

/-- `rapidjson::Pointer::Get` for a path whose tokens are no array indices. -/
def getPointer : Json → List String → Option Json
  | v, [] => some v
  | .object members, name :: rest => (Json.findMember members (lit name)).bind (getPointer · rest)
  | _, _ :: _ => none

def getJsonValueByPath (platform : Platform) (ty : Ty) (v : Json) (path : List String)
    (fallback : ty.Val) : Except LoadError ty.Val :=
  match getPointer v path with
  | none | some .null => .ok fallback
  | some child => fresh ty.initial (loadJsonValue platform ty) child

end MujinClient
