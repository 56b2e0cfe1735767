import Mathlib

/-! Byte strings as the C++ code handles them. A `std::string` may contain zero
bytes; a C string ends at the first one. -/
namespace MujinClient

/-- One `char` of a `std::string`; `char_traits` compares them as unsigned bytes. -/
abbrev Byte := Fin 256

abbrev Text := List Byte

instance neZero_byte : NeZero 256 := ⟨by decide⟩

instance decidableMem_text (t : Text) (ts : List Text) : Decidable (t ∈ ts) := inferInstance

/-- A string literal of the source. All of them are ASCII. -/
def lit (literal : String) : Text := literal.toList.map fun c => Fin.ofNat 256 c.toNat

theorem lit_ofList (cs : List Char) : lit (String.ofList cs) = cs.map fun c => Fin.ofNat 256 c.toNat := by
  rw [lit, String.toList_ofList]

theorem char_of_mem_lit {cs : List Char} {p : Char → Bool} (each : cs.all p)
    (member : b ∈ lit (String.ofList cs)) :
    ∃ c, p c = true ∧ b = Fin.ofNat 256 c.toNat := by
  rw [lit_ofList] at member
  obtain ⟨c, inside, rfl⟩ := List.mem_map.mp member
  exact ⟨c, List.all_eq_true.mp each c inside, rfl⟩

def byte (c : Char) : Byte := Fin.ofNat 256 c.toNat

/-- What is left of `t.c_str()` when the callee takes a C string. -/
def cString (t : Text) : Text := t.takeWhile (· ≠ 0)

def NulFree (t : Text) : Prop := 0 ∉ t

instance : DecidablePred NulFree := fun t => inferInstanceAs (Decidable (0 ∉ t))

theorem nulFree_append {t u : Text} : NulFree (t ++ u) ↔ NulFree t ∧ NulFree u := by
  simp [NulFree]

theorem nulFree_cons {b : Byte} {t : Text} : NulFree (b :: t) ↔ b ≠ 0 ∧ NulFree t := by
  simp [NulFree, eq_comm]

@[simp] theorem cString_nulFree (t : Text) : NulFree (cString t) := by
  intro member
  simpa using List.mem_takeWhile_imp member

theorem cString_of_nulFree (t : Text) (nulFree : NulFree t) : cString t = t := by
  refine List.takeWhile_eq_self_iff.mpr fun b member => ?_
  simpa using ne_of_mem_of_not_mem member nulFree

theorem cString_eq_self_iff (t : Text) : cString t = t ↔ NulFree t :=
  ⟨fun same => same ▸ cString_nulFree t, cString_of_nulFree t⟩

/-- What ends a C string early is a zero byte. -/
theorem cString_zero (cut : cString t ≠ t) : ∃ rest, t = cString t ++ 0 :: rest := by
  have dropped : t.dropWhile (· ≠ 0) ≠ [] := by
    intro none
    refine cut ?_
    conv_rhs => rw [← List.takeWhile_append_dropWhile (p := (· ≠ 0)) (l := t), none, List.append_nil]
    rfl
  obtain ⟨b, rest, shape⟩ := List.exists_cons_of_ne_nil dropped
  have first := List.head_dropWhile_not (fun b : Byte => decide (b ≠ 0)) dropped
  simp only [shape, List.head_cons] at first
  obtain rfl : b = 0 := by simpa using first
  exact ⟨rest, by rw [← shape]; exact (List.takeWhile_append_dropWhile).symm⟩

def digit (d : Nat) : Byte := Fin.ofNat 256 (48 + d)

def isDigit (b : Byte) : Bool := 48 ≤ b.val && b.val ≤ 57

theorem isDigit_iff (b : Byte) : isDigit b ↔ 48 ≤ b.val ∧ b.val ≤ 57 := by
  simp [isDigit]

/-- Decimal digits, most significant first, without leading zeros. -/
def natText (n : Nat) : Text :=
  if n = 0 then [digit 0] else (Nat.digits 10 n).reverse.map digit

def intText (z : Int) : Text :=
  if z < 0 then byte '-' :: natText z.natAbs else natText z.natAbs

theorem natText_digits (n : Nat) : ∀ b ∈ natText n, isDigit b = true := by
  have each : ∀ d < 10, isDigit (digit d) = true := by decide
  intro b member
  unfold natText at member
  split at member
  · rw [List.mem_singleton.mp member]
    exact each 0 (by decide)
  · obtain ⟨d, inside, rfl⟩ := List.mem_map.mp member
    exact each d (Nat.digits_lt_base (by decide) (List.mem_reverse.mp inside))

theorem intText_nulFree (z : Int) : NulFree (intText z) := by
  have digits : ∀ n, NulFree (natText n) := fun n member =>
    absurd (natText_digits n 0 member) (by decide)
  unfold intText
  split
  · intro member
    rcases List.mem_cons.mp member with head | tail
    · exact absurd head (by decide)
    · exact digits _ tail
  · exact digits _

/-- A separator that goes on from the end of neither text ends both at the same place. -/
theorem append_separator_inj {t u x y : Text} (left : ∀ more, u ≠ t ++ b :: more)
    (right : ∀ more, t ≠ u ++ b :: more) (same : t ++ b :: x = u ++ b :: y) : t = u ∧ x = y := by
  rcases List.append_eq_append_iff.mp same with ⟨between, longer, tail⟩ | ⟨between, longer, tail⟩
  · cases between with
    | nil => simp_all
    | cons c between =>
      obtain ⟨rfl, -⟩ := List.cons.inj tail
      exact absurd longer (left between)
  · cases between with
    | nil => simp_all
    | cons c between =>
      obtain ⟨rfl, -⟩ := List.cons.inj tail
      exact absurd longer (right between)

def digitsValue (t : Text) : Nat := t.foldl (fun value b => 10 * value + (b.val - 48)) 0

theorem digitsValue_append (t : Text) (b : Byte) : digitsValue (t ++ [b]) = 10 * digitsValue t + (b.val - 48) := by
  simp [digitsValue]

end MujinClient
