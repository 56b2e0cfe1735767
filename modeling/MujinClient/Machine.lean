import MujinClient.Text
import MujinClient.Binary64

/-! Machine integers, what the C++ library leaves to the platform, and the exception
type of the client. -/
namespace MujinClient

/-- A two's complement machine integer type. -/
structure IntFormat where
  bits : Nat
  signed : Bool
  deriving DecidableEq

namespace IntFormat

def Holds (f : IntFormat) (z : Int) : Prop :=
  if f.signed then -2 ^ f.bits ≤ z * 2 ∧ z * 2 < 2 ^ f.bits else 0 ≤ z ∧ z < 2 ^ f.bits

instance (f : IntFormat) (z : Int) : Decidable (f.Holds z) := by
  unfold Holds; infer_instance

/-- Conversion of an integer to the type, modulo `2 ^ bits`. -/
def wrap (f : IntFormat) (z : Int) : Int :=
  if f.signed then Int.bmod z (2 ^ f.bits) else z % 2 ^ f.bits

theorem wrap_emod (f : IntFormat) (z : Int) : f.wrap z % 2 ^ f.bits = z % 2 ^ f.bits := by
  unfold wrap
  split
  · simpa using Int.bmod_emod (x := z) (m := 2 ^ f.bits)
  · exact Int.emod_emod_of_dvd z (dvd_refl _)

theorem wrap_congr (f : IntFormat) (alike : y % 2 ^ f.bits = z % 2 ^ f.bits) :
    f.wrap y = f.wrap z := by
  unfold wrap
  split
  · rw [← Int.emod_bmod y, ← Int.emod_bmod z]
    simp [alike]
  · exact alike

theorem wrap_holds (f : IntFormat) (z : Int) : f.Holds (f.wrap z) := by
  have positive : (0 : Int) < 2 ^ f.bits := by positivity
  unfold wrap Holds
  split
  · have low := Int.le_bmod (x := z) (m := 2 ^ f.bits) (by positivity)
    have high := Int.bmod_lt (x := z) (m := 2 ^ f.bits) (by positivity)
    push_cast at low high
    omega
  · exact ⟨Int.emod_nonneg z positive.ne', Int.emod_lt_of_pos z positive⟩

theorem wrap_eq_iff (f : IntFormat) (z : Int) : f.wrap z = z ↔ f.Holds z := by
  constructor
  · intro same
    exact same ▸ f.wrap_holds z
  · intro holds
    unfold Holds at holds
    unfold wrap
    split
    · rename_i signed
      rw [if_pos signed] at holds
      exact Int.bmod_eq_of_le_mul_two (by push_cast; exact holds.1) (by push_cast; exact holds.2)
    · rename_i unsigned
      rw [if_neg unsigned] at holds
      exact Int.emod_eq_of_lt holds.1 holds.2

abbrev Value (f : IntFormat) := { z : Int // f.Holds z }

def convert (f : IntFormat) (z : Int) : f.Value := ⟨f.wrap z, f.wrap_holds z⟩

theorem convert_eq_iff (f : IntFormat) (z : Int) : (f.convert z).val = z ↔ f.Holds z :=
  f.wrap_eq_iff z

theorem convert_val (f : IntFormat) (x : f.Value) : f.convert x.val = x :=
  Subtype.ext ((f.wrap_eq_iff x.val).mpr x.property)

instance (f : IntFormat) : Inhabited f.Value := ⟨f.convert 0⟩

/-- Converting to a wide type first does not change the conversion to a narrower one. -/
theorem wrap_wrap (narrow wide : IntFormat) (wider : narrow.bits ≤ wide.bits) (z : Int) :
    narrow.wrap (wide.wrap z) = narrow.wrap z := by
  refine wrap_congr narrow ?_
  have divides : (2 : Int) ^ narrow.bits ∣ 2 ^ wide.bits := pow_dvd_pow 2 wider
  rw [← Int.emod_emod_of_dvd _ divides, wrap_emod, Int.emod_emod_of_dvd _ divides]

end IntFormat

def int32 : IntFormat := ⟨32, true⟩
def uint32 : IntFormat := ⟨32, false⟩
def int64 : IntFormat := ⟨64, true⟩
def uint64 : IntFormat := ⟨64, false⟩

/-- Library behaviour that is not spelled out here. -/
structure Platform where
  /-- `boost::lexical_cast<double>` of a C string. -/
  lexicalDouble : Text → Option Double
  /-- The cast of a double outside the range of a 64 bit unsigned integer. -/
  outOfRange : Double → uint64.Value
  /-- What `rapidjson::Writer` prints for a finite double. -/
  dtoa : Double → Text

instance : Inhabited Platform := ⟨⟨fun _ => none, fun _ => uint64.convert 0, fun _ => lit "0.0"⟩⟩

/-- The codes of `MujinErrorCode` the modelled functions throw. -/
inductive ErrorCode where
  | failed | invalidArguments | assertion | invalidState | timeout | binPickingError | httpClient | httpServer
  deriving DecidableEq

structure MujinException where
  text : Text
  code : ErrorCode
  deriving DecidableEq

end MujinClient
