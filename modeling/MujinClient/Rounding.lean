import MujinClient.Binary64

/-! Sums of doubles, and how far a rounded value is from the exact one. -/
namespace MujinClient

def Finite64.toRat (x : Finite64) : ℚ := (if x.negative then -1 else 1) * (x.mantissa * 2 ^ x.exponent)

namespace Double

/-- The sum, rounded to the nearest double. -/
def add : Double → Double → Double
  | .finite x, .finite y =>
    let e := min x.exponent y.exponent
    let sum := scaled x e + scaled y e
    if sum = 0 then pack (x.negative && y.negative) 0 (-1074)
    else nearest (sum < 0) (sum.natAbs * 2 ^ e.toNat) (2 ^ (-e).toNat)
  | .infinite s, .infinite t => if s = t then .infinite s else .nan
  | .infinite s, .finite _ | .finite _, .infinite s => .infinite s
  | .nan, _ | _, .nan => .nan

theorem zpow_split {b : ℚ} (nonzero : b ≠ 0) (e : ℤ) : b ^ e = b ^ e.toNat / b ^ (-e).toNat := by
  rw [← zpow_natCast, ← zpow_natCast, ← zpow_sub₀ nonzero]
  congr 1
  omega

theorem two_zpow_split (e : ℤ) : (2 : ℚ) ^ e = 2 ^ e.toNat / 2 ^ (-e).toNat := zpow_split two_ne_zero e

theorem two_zpow_pos (e : ℤ) : (0 : ℚ) < 2 ^ e := zpow_pos two_pos e

theorem two_zpow_le {e f : ℤ} (le : e ≤ f) : (2 : ℚ) ^ e ≤ 2 ^ f := zpow_le_zpow_right₀ one_le_two le

theorem two_zpow_lt_iff {e f : ℤ} : (2 : ℚ) ^ e < 2 ^ f ↔ e < f := zpow_lt_zpow_iff_right₀ one_lt_two

/-- The value in units of a smaller power of two. -/
theorem scaled_toRat {x : Finite64} {e : ℤ} (below : e ≤ x.exponent) : (scaled x e : ℚ) * 2 ^ e = x.toRat := by
  have shift : (2 : ℚ) ^ (x.exponent - e).toNat * 2 ^ e = 2 ^ x.exponent := by
    rw [← zpow_natCast, Int.toNat_of_nonneg (by omega), ← zpow_add₀ two_ne_zero, Int.sub_add_cancel]
  unfold scaled Finite64.toRat
  push_cast
  rw [mul_assoc, mul_assoc, shift]

theorem le_finite {x y : Finite64} : le (.finite x) (.finite y) = true ↔ x.toRat ≤ y.toRat := by
  have first := scaled_toRat (min_le_left x.exponent y.exponent)
  have second := scaled_toRat (min_le_right x.exponent y.exponent)
  unfold le
  dsimp only
  rw [decide_eq_true_iff, ← first, ← second, mul_le_mul_iff_left₀ (two_zpow_pos _)]
  exact Int.cast_le.symm

theorem lt_finite {x y : Finite64} : lt (.finite x) (.finite y) = true ↔ x.toRat < y.toRat := by
  rw [lt, Bool.and_eq_true, le_finite, Bool.not_eq_true', ← Bool.not_eq_true, le_finite, not_le]
  exact ⟨And.right, fun less => ⟨less.le, less⟩⟩

/-- The power of the base at or below a quotient. -/
def powerBelow (base n d : ℕ) : ℤ :=
  let guess : ℤ := (Nat.log base n : ℤ) - Nat.log base d
  if n * base ^ (-guess).toNat < d * base ^ guess.toNat then guess - 1 else guess

theorem log_bounds {base n : ℕ} (large : 1 < base) (some : n ≠ 0) :
    (base : ℚ) ^ (Nat.log base n : ℤ) ≤ n ∧ (n : ℚ) < base ^ ((Nat.log base n : ℤ) + 1) := by
  constructor
  · rw [zpow_natCast]
    exact_mod_cast Nat.pow_log_le_self base some
  · rw [← Nat.cast_succ, zpow_natCast]
    exact_mod_cast Nat.lt_pow_succ_log_self large n

theorem powerBelow_bounds {base n d : ℕ} (large : 1 < base) (some : n ≠ 0) (positive : d ≠ 0) :
    (base : ℚ) ^ powerBelow base n d ≤ n / d ∧ (n : ℚ) / d < base ^ (powerBelow base n d + 1) := by
  obtain ⟨lowN, highN⟩ := log_bounds large some
  obtain ⟨lowD, highD⟩ := log_bounds large positive
  have posD : (0 : ℚ) < d := by positivity
  have posB : (0 : ℚ) < base := by exact_mod_cast (by omega : 0 < base)
  have nonzero : (base : ℚ) ≠ 0 := posB.ne'
  set guess : ℤ := (Nat.log base n : ℤ) - Nat.log base d with known
  have below : (base : ℚ) ^ (guess - 1) < n / d := by
    rw [lt_div_iff₀ posD]
    calc (base : ℚ) ^ (guess - 1) * d < base ^ (guess - 1) * base ^ ((Nat.log base d : ℤ) + 1) := by gcongr
      _ = base ^ (Nat.log base n : ℤ) := by rw [← zpow_add₀ nonzero]; congr 1; omega
      _ ≤ n := lowN
  have above : (n : ℚ) / d < base ^ (guess + 1) := by
    rw [div_lt_iff₀ posD]
    calc (n : ℚ) < base ^ ((Nat.log base n : ℤ) + 1) := highN
      _ = base ^ (guess + 1) * base ^ (Nat.log base d : ℤ) := by rw [← zpow_add₀ nonzero]; congr 1; omega
      _ ≤ base ^ (guess + 1) * d := by gcongr
  have test : n * base ^ (-guess).toNat < d * base ^ guess.toNat ↔ (n : ℚ) / d < base ^ guess := by
    rw [zpow_split nonzero, div_lt_div_iff₀ posD (by positivity), mul_comm ((base : ℚ) ^ guess.toNat)]
    exact_mod_cast Iff.rfl
  unfold powerBelow
  dsimp only
  rw [← known]
  split
  · rename_i less
    exact ⟨below.le, by rw [Int.sub_add_cancel]; exact test.mp less⟩
  · rename_i atLeast
    exact ⟨not_lt.mp (mt test.mpr atLeast), above⟩

/-- The integer nearest to a quotient, ties to the even one. -/
def roundedQuotient (num den : ℕ) : ℕ :=
  if den < 2 * (num % den) ∨ (2 * (num % den) = den ∧ num / den % 2 = 1) then num / den + 1 else num / den

theorem roundedQuotient_error (num : ℕ) {den : ℕ} (positive : 0 < den) :
    |(roundedQuotient num den : ℚ) - num / den| ≤ 1 / 2 := by
  have pos : (0 : ℚ) < den := by exact_mod_cast positive
  have whole : (num : ℚ) = den * ((num / den : ℕ) : ℚ) + ((num % den : ℕ) : ℚ) := by
    exact_mod_cast (Nat.div_add_mod num den).symm
  have rest : ((num % den : ℕ) : ℚ) < den := by exact_mod_cast Nat.mod_lt num positive
  have quotient : (num : ℚ) / den = ((num / den : ℕ) : ℚ) + ((num % den : ℕ) : ℚ) / den := by
    rw [whole, add_div, mul_div_cancel_left₀ _ pos.ne']
  unfold roundedQuotient
  rw [quotient, abs_le]
  split
  · rename_i high
    have half : (den : ℚ) ≤ 2 * ((num % den : ℕ) : ℚ) := by
      rcases high with more | ⟨same, -⟩
      · exact_mod_cast more.le
      · exact_mod_cast same.ge
    have lower : 1 / 2 ≤ ((num % den : ℕ) : ℚ) / den := by rw [le_div_iff₀ pos]; linarith
    have upper : ((num % den : ℕ) : ℚ) / den < 1 := by rwa [div_lt_one pos]
    push_cast at lower upper ⊢
    constructor <;> linarith
  · rename_i low
    have half : 2 * ((num % den : ℕ) : ℚ) ≤ den := by exact_mod_cast not_lt.mp fun more => low (.inl more)
    have upper : ((num % den : ℕ) : ℚ) / den ≤ 1 / 2 := by rw [div_le_iff₀ pos]; linarith
    have lower : 0 ≤ ((num % den : ℕ) : ℚ) / den := by positivity
    constructor <;> linarith

/-- Rounding does not cross an integer. -/
theorem roundedQuotient_le {num den z : ℕ} (positive : 0 < den) (le : (num : ℚ) / den ≤ z) :
    roundedQuotient num den ≤ z := by
  have error := (abs_le.mp (roundedQuotient_error num positive)).2
  by_contra more
  have next : (z : ℚ) + 1 ≤ roundedQuotient num den := by exact_mod_cast not_le.mp more
  linarith

theorem le_roundedQuotient {num den z : ℕ} (positive : 0 < den) (le : (z : ℚ) ≤ num / den) :
    z ≤ roundedQuotient num den := by
  have error := (abs_le.mp (roundedQuotient_error num positive)).1
  by_contra less
  have next : (roundedQuotient num den : ℚ) + 1 ≤ z := by exact_mod_cast not_le.mp less
  linarith

def roundingExponent (n d : ℕ) : ℤ := max (-1074) (powerBelow 2 n d - 52)

theorem nearest_eq {n d : ℕ} (some : n ≠ 0) (negative : Bool) : nearest negative n d =
    let e := roundingExponent n d
    let mantissa := roundedQuotient (n * 2 ^ (-e).toNat) (d * 2 ^ e.toNat)
    if mantissa = 2 ^ 53 then pack negative (2 ^ 52) (e + 1) else pack negative mantissa e := by
  rw [nearest, if_neg some, Nat.log2_eq_log_two, Nat.log2_eq_log_two]
  rfl

/-- A quotient that is not above the largest double is rounded at a grid that is fine enough, to the
nearest of its points. -/
theorem nearest_spec {n d : ℕ} (some : n ≠ 0) (positive : d ≠ 0)
    (bound : (n : ℚ) / d ≤ (2 ^ 53 - 1) * 2 ^ (971 : ℤ)) (negative : Bool) :
    ∃ x : Finite64, nearest negative n d = .finite x ∧ x.negative = negative ∧ ∃ e :
    ℤ, ((2 : ℚ) ^ (e + 52) ≤ n / d ∨ e = -1074) ∧
      (n : ℚ) / d < 2 ^ (e + 53) ∧ ∃ m :
    ℕ, (x.mantissa * 2 ^ x.exponent : ℚ) = m * 2 ^ e ∧ |(m : ℚ) * 2 ^ e - n / d| ≤ 2 ^ e / 2 ∧
        ∀ z : ℕ, (n : ℚ) / d ≤ z * 2 ^ e → m ≤ z := by
  have posD : (0 : ℚ) < d := by positivity
  obtain ⟨low, high⟩ := powerBelow_bounds one_lt_two some positive
  rw [Nat.cast_ofNat] at low high
  set e := roundingExponent n d with known
  have place : e = -1074 ∨ e = powerBelow 2 n d - 52 := by unfold roundingExponent at known; omega
  have least : -1074 ≤ e ∧ powerBelow 2 n d - 52 ≤ e := by unfold roundingExponent at known; omega
  have power : powerBelow 2 n d < 1024 := by
    refine two_zpow_lt_iff.mp ((low.trans bound).trans_lt ?_)
    calc (2 ^ 53 - 1) * (2 : ℚ) ^ (971 : ℤ) < 2 ^ 53 * 2 ^ (971 : ℤ) :=
      mul_lt_mul_of_pos_right (by norm_num) (two_zpow_pos _)
      _ = 2 ^ (1024 : ℤ) := by rw [← zpow_natCast, ← zpow_add₀ two_ne_zero]; rfl
  have den : 0 < d * 2 ^ e.toNat := by positivity
  have units : ((n * 2 ^ (-e).toNat : ℕ) : ℚ) / ((d * 2 ^ e.toNat : ℕ) : ℚ) = n / d / 2 ^ e := by
    rw [two_zpow_split e]
    push_cast
    field_simp
  set m := roundedQuotient (n * 2 ^ (-e).toNat) (d * 2 ^ e.toNat) with rounded
  have error : |(m : ℚ) - n / d / 2 ^ e| ≤ 1 / 2 := units ▸ roundedQuotient_error _ den
  have grid : ∀ z : ℕ, (n : ℚ) / d ≤ z * 2 ^ e → m ≤ z := by
    intro z le
    refine roundedQuotient_le den ?_
    rwa [units, div_le_iff₀ (two_zpow_pos e)]
  have most : m ≤ 2 ^ 53 := by
    refine grid _ (high.le.trans ?_)
    rw [Nat.cast_pow, Nat.cast_ofNat, ← zpow_natCast, ← zpow_add₀ two_ne_zero]
    exact two_zpow_le (by push_cast; omega)
  have normal : 2 ^ 52 ≤ m ∨ e = -1074 := by
    rcases place with sub | top
    · exact .inr sub
    · left
      refine le_roundedQuotient den ?_
      rw [units, le_div_iff₀ (two_zpow_pos e)]
      refine le_trans (le_of_eq ?_) low
      rw [Nat.cast_pow, Nat.cast_ofNat, ← zpow_natCast, ← zpow_add₀ two_ne_zero]
      congr 1
      push_cast
      omega
  have close : |(m : ℚ) * 2 ^ e - n / d| ≤ 2 ^ e / 2 := by
    have same : (m : ℚ) * 2 ^ e - n / d = (m - n / d / 2 ^ e) * 2 ^ e := by
      rw [sub_mul, div_mul_cancel₀ _ (two_zpow_pos e).ne']
    rw [same, abs_mul, abs_of_pos (two_zpow_pos e)]
    have scaled := mul_le_mul_of_nonneg_right error (two_zpow_pos e).le
    linarith
  have fine : (2 : ℚ) ^ (e + 52) ≤ n / d ∨ e = -1074 := by
    rcases place with sub | top
    · exact .inr sub
    · exact .inl (le_trans (two_zpow_le (by omega)) low)
  have coarse : (n : ℚ) / d < 2 ^ (e + 53) := lt_of_lt_of_le high (two_zpow_le (by omega))
  rw [nearest_eq some, ← known]
  dsimp only
  rw [← rounded]
  by_cases carry : m = 2 ^ 53
  · have room : e ≠ 971 := by
      rintro top
      have fits : m ≤ 2 ^ 53 - 1 := by
        have whole : ((2 ^ 53 - 1 : ℕ) : ℚ) = 2 ^ 53 - 1 := by norm_num
        exact grid _ (by rw [top, whole]; exact bound)
      omega
    have canonical : Canonical (2 ^ 52) (e + 1) := ⟨by norm_num, by omega, by omega, .inl le_rfl⟩
    refine ⟨⟨negative, 2 ^ 52, e + 1, canonical⟩, by rw [if_pos carry, pack, dif_pos canonical], rfl, e,
      fine, coarse, m, ?_, close, grid⟩
    rw [carry, zpow_add_one₀ two_ne_zero]
    push_cast
    ring
  · have canonical : Canonical m e := ⟨by omega, by omega, by omega, normal⟩
    exact ⟨⟨negative, m, e, canonical⟩, by rw [if_neg carry, pack, dif_pos canonical], rfl, e, fine, coarse,
      m, rfl, close, grid⟩

/-- The sum of two finite doubles is the exact sum, rounded. -/
theorem add_finite {x y : Finite64} (positive : 0 < x.toRat + y.toRat) : ∃ n d :
    ℕ, n ≠ 0 ∧ d ≠ 0 ∧ (n : ℚ) / d = x.toRat + y.toRat ∧
    add (.finite x) (.finite y) = nearest false n d := by
  have first := scaled_toRat (min_le_left x.exponent y.exponent)
  have second := scaled_toRat (min_le_right x.exponent y.exponent)
  set e := min x.exponent y.exponent with known
  have whole : ((scaled x e + scaled y e : ℤ) : ℚ) * 2 ^ e = x.toRat + y.toRat := by
    rw [← first, ← second]
    push_cast
    ring
  have above : 0 < scaled x e + scaled y e := by
    have both : (0 : ℚ) < ((scaled x e + scaled y e : ℤ) : ℚ) :=
      pos_of_mul_pos_left (whole ▸ positive) (two_zpow_pos e).le
    exact_mod_cast both
  refine ⟨(scaled x e + scaled y e).natAbs * 2 ^ e.toNat, 2 ^ (-e).toNat, by positivity, by positivity, ?_, ?_⟩
  · rw [← whole, two_zpow_split e]
    have cast : ((scaled x e + scaled y e).natAbs : ℚ) = ((scaled x e + scaled y e : ℤ) : ℚ) := by
      rw [Nat.cast_natAbs, abs_of_pos above]
    push_cast at cast ⊢
    rw [cast]
    ring
  · unfold add
    dsimp only
    rw [← known, if_neg above.ne', decide_eq_false (not_lt.mpr above.le)]

theorem toRat_positive {x : Finite64} (sign : x.negative = false) : x.toRat = x.mantissa * 2 ^ x.exponent := by
  rw [Finite64.toRat, sign]
  simp

/-- A sum that is not too large, at a grid that is fine enough. -/
theorem add_spec {x y : Finite64} (positive : 0 < x.toRat + y.toRat) {k : ℤ} (range : k ≤ 1023)
    (bound : x.toRat + y.toRat < 2 ^ k) :
    ∃ sum : Finite64, add (.finite x) (.finite y) = .finite sum ∧ ∃ e :
    ℤ, ((2 : ℚ) ^ (e + 52) ≤ x.toRat + y.toRat ∨ e = -1074) ∧
      x.toRat + y.toRat < 2 ^ (e + 53) ∧ ∃ m :
    ℕ, sum.toRat = m * 2 ^ e ∧ |(m : ℚ) * 2 ^ e - (x.toRat + y.toRat)| ≤ 2 ^ e / 2 ∧
        ∀ z : ℕ, x.toRat + y.toRat ≤ z * 2 ^ e → m ≤ z := by
  obtain ⟨n, d, some, nonzero, exact, added⟩ := add_finite positive
  have fits : (n : ℚ) / d ≤ (2 ^ 53 - 1) * 2 ^ (971 : ℤ) := by
    rw [exact]
    calc x.toRat + y.toRat ≤ 2 ^ (1023 : ℤ) := bound.le.trans (two_zpow_le range)
      _ = 2 ^ 52 * 2 ^ (971 : ℤ) := by rw [← zpow_natCast, ← zpow_add₀ two_ne_zero]; rfl
      _ ≤ (2 ^ 53 - 1) * 2 ^ (971 : ℤ) := mul_le_mul_of_nonneg_right (by norm_num) (two_zpow_pos _).le
  obtain ⟨sum, near, sign, e, spec⟩ := nearest_spec some nonzero fits false
  rw [exact] at spec
  obtain ⟨fine, coarse, m, same, close, grid⟩ := spec
  exact ⟨sum, added.trans near, e, fine, coarse, m, (toRat_positive sign).trans same, close, grid⟩

/-- Between a normal double and a power of two above it there is at least one step. -/
theorem toRat_below {x : Finite64} {k : ℤ} (normal : -1074 < k - 52) (less : x.toRat < 2 ^ k) :
    x.toRat ≤ 2 ^ k - 2 ^ (k - 53) := by
  have step : (2 : ℚ) ^ k - 2 ^ (k - 53) = (2 ^ 53 - 1) * 2 ^ (k - 53) := by
    rw [sub_mul, one_mul, ← zpow_natCast, ← zpow_add₀ two_ne_zero]
    congr 2
    push_cast
    omega
  have pos := two_zpow_pos (k - 53)
  rw [step]
  cases sign : x.negative with
  | true =>
    have below : x.toRat ≤ 0 := by
      have value := two_zpow_pos x.exponent
      rw [Finite64.toRat, sign, if_pos rfl, neg_one_mul, neg_nonpos]
      positivity
    have above : (0 : ℚ) ≤ (2 ^ 53 - 1) * 2 ^ (k - 53) := by positivity
    linarith
  | false =>
    rw [toRat_positive sign] at less ⊢
    obtain ⟨small, -, -, large⟩ := x.canonical
    have exponent : x.exponent ≤ k - 53 := by
      by_contra more
      rcases large with full | least
      · have high : (2 : ℚ) ^ k ≤ x.mantissa * 2 ^ x.exponent := by
          calc (2 : ℚ) ^ k = 2 ^ 52 * 2 ^ (k - 52) := by
                rw [← zpow_natCast, ← zpow_add₀ two_ne_zero]
                congr 1
                push_cast
                omega
            _ ≤ x.mantissa * 2 ^ x.exponent := by
                refine mul_le_mul (by exact_mod_cast full) (two_zpow_le (by omega)) (two_zpow_pos _).le
                  (by positivity)
        linarith
      · omega
    have mantissa : (x.mantissa : ℚ) ≤ 2 ^ 53 - 1 := by
      have next : (x.mantissa : ℚ) + 1 ≤ 2 ^ 53 := by exact_mod_cast small
      linarith
    exact mul_le_mul mantissa (two_zpow_le exponent) (two_zpow_pos _).le (by norm_num)

end Double

end MujinClient
