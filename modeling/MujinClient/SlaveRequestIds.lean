import MujinClient.Machine
import MujinClient.Json

/-! The slave request of a heartbeat with the smallest number at its end. The number is counted in an
`int`, from the last digit on. -/
namespace MujinClient

namespace SlaveRequests

inductive Failure where
  | mujin (e : MujinException)
  | assertion
  /-- An overflow of `int` or an access outside a vector. -/
  | undefined
  deriving DecidableEq

/-- The result of an operation on `int`. -/
def int (z : Int) : Except Failure Int := if int32.Holds z then .ok z else .error .undefined

def idStart : Text := lit "slaverequestid-"

def started (name : Text) : Bool := name.take idStart.length = idStart

def slavereqids : Json → Except Failure (List Text)
  | .object members =>
    match Json.findMember members (lit "slavestates") with
    | some (.object slavestates) =>
      .ok ((slavestates.map fun it => cString it.1).filter started)
    | some _ => .error .assertion
    | none => .ok []
  | _ => .ok []

/-- The digit loop, over the characters from `i` down to the first. -/
def countSuffix : Text → Int → Int → Except Failure Int
  | [], suffix, _ => .ok suffix
  | c :: before, suffix, po =>
    if isDigit c then do
      let product ← int ((c.val - 48) * po)
      let suffix ← int (suffix + product)
      let po ← int (po * 10)
      countSuffix before suffix po
    else .ok suffix

/-- What lies before and at the character the digit loop begins with. -/
def counted (it : Text) : Text := it.take (int32.wrap (it.length - 1) + 1).toNat

structure Search where
  smallest_suffix_index : Int
  smallest_suffix : Int
  deriving DecidableEq

def Search.start : Search := ⟨-1, 2147483647⟩

/-- One name, at the given distance from the first. -/
def Search.step (s : Search) (distance : Nat) (it : Text) : Except Failure Search :=
  if !it.contains (byte '_') then .ok s
  else if it.getLast?.all fun c => !isDigit c then .ok s
  else do
    let suffix ← countSuffix (counted it).reverse 0 1
    if suffix < s.smallest_suffix then .ok ⟨int32.wrap distance, suffix⟩ else .ok s

def search (distance : Nat) : List Text → Search → Except Failure Search
  | [], s => .ok s
  | it :: rest, s => s.step distance it >>= search (distance + 1) rest

def notFound : MujinException :=
  ⟨lit "Failed to find slave request id like hostname_slave### where ### is a number", .failed⟩

def nameAt (slavereqids : List Text) (smallest_suffix_index : Int) : Except Failure Text :=
  if smallest_suffix_index < 0 then .error .undefined
  else match slavereqids[smallest_suffix_index.toNat]? with
    | some name => .ok name
    | none => .error .undefined

def findSmallestSlaveRequestId (pt : Json) : Except Failure Text := do
  let slavereqids ← slavereqids pt
  let found ← search 0 slavereqids Search.start
  if found.smallest_suffix_index = -1 then .error (.mujin notFound)
  else nameAt slavereqids found.smallest_suffix_index

def suffix (t : Text) : Nat := digitsValue (t.rtakeWhile isDigit)

/-- Names of the form `hostname_slave###`. -/
def Numbered (t : Text) : Prop := byte '_' ∈ t ∧ ∃ c ∈ t.getLast?, isDigit c

def Matching (t : Text) : Prop := idStart <+: t ∧ Numbered t

instance : DecidablePred Numbered :=
  fun t => inferInstanceAs (Decidable (byte '_' ∈ t ∧ ∃ c ∈ t.getLast?, isDigit c))

instance : DecidablePred Matching := fun t => inferInstanceAs (Decidable (idStart <+: t ∧ Numbered t))

section Choice

variable {α : Type} {p : α → Prop} {value : α → Nat}

/-- Of the elements with a property, the first of those with the smallest value, and what lies before it. -/
def Chooses (p : α → Prop) (value : α → Nat) (xs before : List α) (x : α) : Prop :=
  ∃ after, xs = before ++ x :: after ∧ p x ∧ (∀ y ∈ before, p y → value x < value y) ∧ ∀ y ∈ after, p y →
    value x ≤ value y

def FirstSmallest (p : α → Prop) (value : α → Nat) (xs : List α) (x : α) : Prop :=
  ∃ before, Chooses p value xs before x

theorem Chooses.least (chosen : Chooses p value xs before x) (member : y ∈ xs) (holds : p y) :
    value x ≤ value y := by
  obtain ⟨after, rfl, -, earlier, later⟩ := chosen
  rcases List.mem_append.mp member with inside | inside
  · exact (earlier y inside holds).le
  · rcases List.mem_cons.mp inside with rfl | inside
    · exact le_rfl
    · exact later y inside holds

theorem Chooses.kept (chosen : Chooses p value xs before x) (larger : p y → value x ≤ value y) :
    Chooses p value (xs ++ [y]) before x := by
  obtain ⟨after, rfl, holds, earlier, later⟩ := chosen
  refine ⟨after ++ [y], by simp, holds, earlier, fun z member property => ?_⟩
  rcases List.mem_append.mp member with inside | inside
  · exact later z inside property
  · obtain rfl := List.mem_singleton.mp inside
    exact larger property

theorem Chooses.last (holds : p y) (smaller : ∀ x ∈ xs, p x → value y < value x) :
    Chooses p value (xs ++ [y]) xs y :=
  ⟨[], rfl, holds, smaller, fun _ member => absurd member List.not_mem_nil⟩

/-- Every list with a member to choose has one that is chosen. -/
theorem exists_chooses (xs : List α) (some : ∃ x ∈ xs, p x) : ∃ before x, Chooses p value xs before x := by
  induction xs using List.reverseRecOn with
  | nil => simp at some
  | append_singleton xs y ih =>
    by_cases found : ∃ x ∈ xs, p x
    · obtain ⟨before, x, chosen⟩ := ih found
      by_cases smaller : p y ∧ value y < value x
      · refine ⟨xs, y, Chooses.last smaller.1 fun z member holds => ?_⟩
        exact lt_of_lt_of_le smaller.2 (chosen.least member holds)
      · refine ⟨before, x, chosen.kept fun holds => ?_⟩
        exact not_lt.mp fun less => smaller ⟨holds, less⟩
    · obtain ⟨x, member, holds⟩ := some
      have last : x = y := by
        rcases List.mem_append.mp member with inside | inside
        · exact absurd ⟨x, inside, holds⟩ found
        · exact List.mem_singleton.mp inside
      subst last
      exact ⟨xs, x, Chooses.last holds fun z inside property => absurd ⟨z, inside, property⟩ found⟩

theorem Chooses.unique (one : Chooses p value xs before x) (other : Chooses p value xs before' x') :
    before = before' ∧ x = x' := by
  have alike : value x = value x' := by
    obtain ⟨after, shape, holds, -⟩ := id one
    obtain ⟨after', shape', holds', -⟩ := id other
    refine le_antisymm (one.least ?_ holds') (other.least ?_ holds)
    · simp [shape']
    · simp [shape]
  obtain ⟨after, rfl, holds, earlier, later⟩ := one
  obtain ⟨after', shape, holds', earlier', later'⟩ := other
  rcases List.append_eq_append_iff.mp shape with ⟨between, longer, tail⟩ | ⟨between, longer, tail⟩
  · cases between with
    | nil => simp_all
    | cons y between =>
      obtain ⟨rfl, -⟩ := List.cons.inj tail
      have less := earlier' x (by simp [longer]) holds
      omega
  · cases between with
    | nil => simp_all
    | cons y between =>
      obtain ⟨rfl, -⟩ := List.cons.inj tail
      have less := earlier x' (by simp [longer]) holds'
      omega

/-- Elements without the property may be left out. -/
theorem Chooses.filter {keep : α → Bool} (enough : ∀ x, p x → keep x) (chosen : Chooses p value xs before x) :
    Chooses p value (xs.filter keep) (before.filter keep) x := by
  obtain ⟨after, rfl, holds, earlier, later⟩ := chosen
  refine ⟨after.filter keep, by simp [enough x holds], holds, ?_, ?_⟩
  · exact fun y member => earlier y (List.mem_of_mem_filter member)
  · exact fun y member => later y (List.mem_of_mem_filter member)

end Choice

theorem int32_holds_iff (z : Int) : int32.Holds z ↔ -2147483648 ≤ z ∧ z < 2147483648 := by
  simp only [IntFormat.Holds, int32, if_true]
  omega

theorem int_ok (low : 0 ≤ z) (high : z < 2147483648) : int z = .ok z :=
  if_pos ((int32_holds_iff z).mpr (by omega))

theorem int_undefined (high : 2147483648 ≤ z) : int z = .error .undefined :=
  if_neg fun holds => by have := ((int32_holds_iff z).mp holds).2; omega

theorem int_cases (z : Int) : int z = .ok z ∨ int z = .error .undefined := by
  unfold int
  split
  · exact .inl rfl
  · exact .inr rfl

theorem bind_known {first : Except Failure α} {next : α → Except Failure β} (known : first = .ok a) :
    (first >>= next) = next a := by
  rw [known]
  rfl

theorem digitsValue_lt (t : Text) (digits : ∀ c ∈ t, isDigit c) : digitsValue t < 10 ^ t.length := by
  induction t using List.reverseRecOn with
  | nil => simp [digitsValue]
  | append_singleton t c ih =>
    have smaller := ih fun d member => digits d (List.mem_append_left _ member)
    have last := (isDigit_iff c).mp (digits c (by simp))
    rw [digitsValue_append, List.length_append, List.length_singleton, pow_succ]
    omega

theorem isDigit_value (digit : isDigit c) : ∃ d : Nat, (c.val : Int) - 48 = d ∧ c.val - 48 = d ∧ d ≤ 9 := by
  obtain ⟨low, high⟩ := (isDigit_iff c).mp digit
  exact ⟨c.val - 48, by omega, rfl, by omega⟩

/-- One digit more. -/
theorem countSuffix_digit (before : Text) (a po : Nat) (digit : isDigit c)
    (sum : a + (c.val - 48) * po < 2147483648) (power : po * 10 < 2147483648) :
    countSuffix (c :: before) a po = countSuffix before ↑(a + (c.val - 48) * po) ↑(po * 10) := by
  obtain ⟨d, signed, unsigned, -⟩ := isDigit_value digit
  rw [unsigned] at sum ⊢
  have product : int (((c.val : Int) - 48) * po) = .ok ↑(d * po) := by
    rw [signed, ← Int.natCast_mul]
    exact int_ok (by omega) (by omega)
  have total : int (↑a + ↑(d * po)) = .ok ↑(a + d * po) := by
    rw [← Int.natCast_add]
    exact int_ok (by omega) (by omega)
  have next : int (↑po * 10) = .ok ↑(po * 10) := by
    exact int_ok (by omega) (by omega)
  rw [countSuffix, if_pos digit, bind_known product, bind_known total, bind_known next]

/-- The power is taken past `int` together with the digit it is not used for any more. -/
theorem countSuffix_overflow (before : Text) (a po : Nat) (digit : isDigit c) (power : 2147483648 ≤ po * 10) :
    countSuffix (c :: before) a po = .error .undefined := by
  have next : int (↑po * 10) = .error .undefined := int_undefined (by omega)
  rw [countSuffix, if_pos digit]
  rcases int_cases (((c.val : Int) - 48) * po) with product | product
  · rw [bind_known product]
    rcases int_cases (a + ((c.val : Int) - 48) * po) with total | total
    · rw [bind_known total, next]
      rfl
    · rw [total]
      rfl
  · rw [product]
    rfl

/-- With `k` digits counted, the power of ten is the `k`th. The tenth digit takes it past `int`. -/
theorem countSuffix_eq (cs : Text) (k a : Nat) (few : k ≤ 9) (smaller : a < 10 ^ k) :
    countSuffix cs a (10 ^ k : Nat) =
      if k + (cs.takeWhile isDigit).length ≤ 9 then .ok ↑(a + 10 ^ k * digitsValue (cs.takeWhile isDigit).reverse)
      else .error .undefined := by
  induction cs generalizing k a with
  | nil => simp [countSuffix, few, digitsValue]
  | cons c before ih =>
    by_cases digit : isDigit c
    · rw [List.takeWhile_cons_of_pos digit, List.length_cons, List.reverse_cons, digitsValue_append]
      obtain ⟨d, -, value, bound⟩ := isDigit_value digit
      rcases few.lt_or_eq with room | rfl
      · have power : 10 ^ k ≤ 10 ^ 8 := Nat.pow_le_pow_right (by decide) (by omega)
        have term : (c.val - 48) * 10 ^ k ≤ 9 * 10 ^ k := Nat.mul_le_mul_right _ (value ▸ bound)
        have counted : a + (c.val - 48) * 10 ^ k < 10 ^ (k + 1) := by
          rw [pow_succ]
          omega
        have total : a + (c.val - 48) * 10 ^ k + 10 ^ (k + 1) * digitsValue (before.takeWhile isDigit).reverse =
            a + 10 ^ k * (10 * digitsValue (before.takeWhile isDigit).reverse + (c.val - 48)) := by
          ring
        rw [countSuffix_digit before a _ digit (by omega) (by omega), ← pow_succ, ih (k + 1) _ room counted, total,
          Nat.add_right_comm k 1, Nat.add_assoc k]
      · rw [if_neg (by omega)]
        exact countSuffix_overflow before a _ digit (by decide)
    · simp [countSuffix, digit, few, digitsValue]

def countedDigits (t : Text) : Text := (counted t).rtakeWhile isDigit

def countedSuffix (t : Text) : Nat := suffix (counted t)

theorem countSuffix_counted (t : Text) : countSuffix (counted t).reverse 0 1 =
    if (countedDigits t).length ≤ 9 then .ok ↑(countedSuffix t) else .error .undefined := by
  have loop := countSuffix_eq (counted t).reverse 0 0 (by decide) (by decide)
  simpa [countedDigits, countedSuffix, suffix, List.rtakeWhile] using loop

/-- Nine digits make less than the largest `int`. -/
theorem countedSuffix_lt (few : (countedDigits t).length ≤ 9) : countedSuffix t < 1000000000 := by
  have digits : ∀ c ∈ countedDigits t, isDigit c := fun c member => List.mem_rtakeWhile_imp member
  have bound := digitsValue_lt _ digits
  exact bound.trans_le (Nat.pow_le_pow_right (n := 10) (by decide) few)

/-- Up to the largest `int` nothing of a name is left out. -/
theorem counted_eq (short : t.length ≤ 2147483648) : counted t = t := by
  have fits : int32.wrap ((t.length : Int) - 1) = t.length - 1 :=
    (int32.wrap_eq_iff _).mpr ((int32_holds_iff _).mpr (by omega))
  rw [counted, fits]
  exact List.take_of_length_le (by omega)

theorem numbered_iff (t : Text) : Numbered t ↔ byte '_' ∈ t ∧ (t.getLast?.all fun c => !isDigit c) = false := by
  unfold Numbered
  cases t.getLast? <;> simp

theorem step_skip (s : Search) (distance : Nat) (other : ¬Numbered it) : s.step distance it = .ok s := by
  unfold Search.step
  by_cases separated : byte '_' ∈ it
  · have digit : (it.getLast?.all fun c => !isDigit c) = true := by
      by_contra none
      exact other ((numbered_iff it).mpr ⟨separated, Bool.eq_false_iff.mpr none⟩)
    rw [if_neg (by simpa using separated), if_pos digit]
  · rw [if_pos (by simpa using separated)]

theorem step_numbered (s : Search) (distance : Nat) (numbered : Numbered it) : s.step distance it =
    if (countedDigits it).length ≤ 9 then
      .ok (if (countedSuffix it : Int) < s.smallest_suffix then ⟨int32.wrap distance, countedSuffix it⟩ else s)
    else .error .undefined := by
  obtain ⟨separated, digit⟩ := (numbered_iff it).mp numbered
  unfold Search.step
  rw [if_neg (by simpa using separated), if_neg (Bool.eq_false_iff.mp digit), countSuffix_counted]
  split
  · rw [bind_known rfl]
    split <;> rfl
  · rfl

/-- What is known after the names that were seen. -/
inductive Seen (seen : List Text) : Search → Prop where
  | nothing (none : ∀ t ∈ seen, ¬Numbered t) : Seen seen Search.start
  | something (chosen : Chooses Numbered countedSuffix seen before t) :
    Seen seen ⟨int32.wrap before.length, countedSuffix t⟩

theorem step_seen (s : Search) (known : Seen seen s) (few : Numbered it → (countedDigits it).length ≤ 9) :
    ∃ s', s.step seen.length it = .ok s' ∧ Seen (seen ++ [it]) s' := by
  by_cases numbered : Numbered it
  · rw [step_numbered s _ numbered, if_pos (few numbered)]
    refine ⟨_, rfl, ?_⟩
    cases known with
    | nothing none =>
      have small : (countedSuffix it : Int) < Search.start.smallest_suffix := by
        have bound := countedSuffix_lt (few numbered)
        unfold Search.start
        dsimp only
        omega
      rw [if_pos small]
      exact .something (Chooses.last numbered fun t member holds => absurd holds (none t member))
    | something chosen =>
      split
      · rename_i smaller
        refine .something (Chooses.last numbered fun t member holds => ?_)
        exact (Int.ofNat_lt.mp smaller).trans_le (chosen.least member holds)
      · rename_i larger
        exact .something (chosen.kept fun _ => by simpa using larger)
  · refine ⟨s, step_skip s _ numbered, ?_⟩
    cases known with
    | nothing none =>
      refine .nothing fun t member => ?_
      rcases List.mem_append.mp member with inside | inside
      · exact none t inside
      · exact List.mem_singleton.mp inside ▸ numbered
    | something chosen => exact .something (chosen.kept fun holds => absurd holds numbered)

theorem search_seen (rest : List Text) (s : Search) (known : Seen seen s)
    (few : ∀ t ∈ rest, Numbered t → (countedDigits t).length ≤ 9) :
    ∃ s', search seen.length rest s = .ok s' ∧ Seen (seen ++ rest) s' := by
  induction rest generalizing seen s with
  | nil => exact ⟨s, rfl, by simpa using known⟩
  | cons it rest ih =>
    obtain ⟨next, stepped, after⟩ := step_seen s known (few it List.mem_cons_self)
    obtain ⟨last, ran, final⟩ := ih next after fun t member => few t (List.mem_cons_of_mem _ member)
    refine ⟨last, ?_, by simpa using final⟩
    rw [search, bind_known stepped]
    simpa using ran

/-- One name with ten digits leaves the behaviour of the whole search undefined. -/
theorem search_undefined (rest : List Text) (distance : Nat) (s : Search)
    (many : ∃ t ∈ rest, Numbered t ∧ 9 < (countedDigits t).length) :
    search distance rest s = .error .undefined := by
  induction rest generalizing distance s with
  | nil => simp at many
  | cons it rest ih =>
    rw [search]
    by_cases first : Numbered it ∧ 9 < (countedDigits it).length
    · rw [step_numbered s distance first.1, if_neg (not_le.mpr first.2)]
      rfl
    · have later : ∃ t ∈ rest, Numbered t ∧ 9 < (countedDigits t).length := by
        obtain ⟨t, member, long⟩ := many
        rcases List.mem_cons.mp member with rfl | inside
        · exact absurd long first
        · exact ⟨t, inside, long⟩
      by_cases numbered : Numbered it
      · have few : (countedDigits it).length ≤ 9 := not_lt.mp fun long => first ⟨numbered, long⟩
        rw [step_numbered s distance numbered, if_pos few, bind_known rfl]
        exact ih _ _ later
      · rw [step_skip s distance numbered, bind_known rfl]
        exact ih _ _ later

theorem matching_iff (t : Text) : Matching t ↔ started t ∧ Numbered t := by
  rw [Matching, List.prefix_iff_eq_take, started, decide_eq_true_eq, eq_comm]

/-- Among the names that are searched, the matching ones are the numbered ones. -/
theorem Chooses.searched {cut : List Text} (chosen : Chooses Matching countedSuffix cut before t) :
    Chooses Numbered countedSuffix (cut.filter started) (before.filter started) t := by
  obtain ⟨after, shape, holds, earlier, later⟩ := chosen.filter fun x holds => ((matching_iff x).mp holds).1
  refine ⟨after, shape, ((matching_iff t).mp holds).2, fun y member numbered => ?_, fun y member numbered => ?_⟩
  · exact earlier y member ((matching_iff y).mpr ⟨(List.mem_filter.mp member).2, numbered⟩)
  · have inside : y ∈ cut.filter started := by simp [shape, member]
    exact later y member ((matching_iff y).mpr ⟨(List.mem_filter.mp inside).2, numbered⟩)

def atIndex (slavereqids : List Text) (smallest_suffix_index : Int) : Except Failure Text :=
  if smallest_suffix_index = -1 then .error (.mujin notFound) else nameAt slavereqids smallest_suffix_index

/-- The index of the name that is chosen, when `int` reaches that far. -/
theorem atIndex_near (chosen : Chooses Numbered countedSuffix ids before t) (near : before.length < 2147483648) :
    atIndex ids (int32.wrap before.length) = .ok t := by
  obtain ⟨after, rfl, -⟩ := chosen
  have fits : int32.wrap before.length = before.length :=
    (int32.wrap_eq_iff _).mpr ((int32_holds_iff _).mpr (by omega))
  rw [fits, atIndex, if_neg (by omega), nameAt, if_neg (by omega), Int.toNat_natCast,
    List.getElem?_append_right le_rfl]
  simp

/-- Further names get a negative index, other than the one that stands for none. -/
theorem atIndex_far (ids : List Text) (far : 2147483648 ≤ n) (few : n < 4294967295) :
    atIndex ids (int32.wrap (n : Nat)) = .error .undefined := by
  have wrapped : int32.wrap (n : Nat) = (n : Int) - 4294967296 := by
    have alike : int32.wrap (n : Nat) = int32.wrap ((n : Int) - 4294967296) := int32.wrap_congr (by simp [int32])
    rw [alike]
    exact (int32.wrap_eq_iff _).mpr ((int32_holds_iff _).mpr (by omega))
  rw [wrapped, atIndex, if_neg (by omega), nameAt, if_pos (by omega)]

theorem findSmallestSlaveRequestId_object
    (found : Json.findMember pt (lit "slavestates") = some (.object slavestates)) :
    findSmallestSlaveRequestId (.object pt) =
      search 0 (((slavestates.map Prod.fst).map cString).filter started) Search.start >>= fun s =>
        atIndex (((slavestates.map Prod.fst).map cString).filter started) s.smallest_suffix_index := by
  have ids : slavereqids (.object pt) = .ok (((slavestates.map Prod.fst).map cString).filter started) := by
    simp [slavereqids, found]
    rfl
  rw [findSmallestSlaveRequestId, bind_known ids]
  rfl

/-- What the search is for: of the names that match, the first of those with the smallest number,
and an exception when there is none. -/
def FindsSmallest (names : List Text) (found : Except Failure Text) : Prop :=
  ((∃ t ∈ names, Matching t) → ∃ t, FirstSmallest Matching suffix names t ∧ found = .ok t) ∧
    ((∃ e, found = .error (.mujin e)) ↔ ∀ t ∈ names, ¬Matching t)

/-- The names as they are read, cut at a zero byte and counted from where an `int` can point to,
give the same name. -/
structure ReadsAlike (names : List Text) : Prop where
  few : ∀ t ∈ names.map cString, Matching t → (countedDigits t).length ≤ 9
  same : ∀ t, FirstSmallest Matching suffix names t →
    ∃ before, Chooses Matching countedSuffix (names.map cString) before t ∧
      (before.filter started).length < 2147483648
  none : (∀ t ∈ names, ¬Matching t) → ∀ t ∈ names.map cString, ¬Matching t

theorem undefined_not_found (names : List Text) : ¬FindsSmallest names (.error .undefined) := by
  rintro ⟨returns, throws⟩
  by_cases some : ∃ t ∈ names, Matching t
  · obtain ⟨t, -, ended⟩ := returns some
    cases ended
  · obtain ⟨e, ended⟩ := throws.mpr fun t member holds => some ⟨t, member, holds⟩
    cases ended

theorem search_few (cut : List Text) (few : ∀ t ∈ cut, Matching t → (countedDigits t).length ≤ 9) :
    ∃ s, search 0 (cut.filter started) Search.start = .ok s ∧ Seen (cut.filter started) s := by
  have start : Seen [] Search.start := .nothing fun t member => absurd member List.not_mem_nil
  refine search_seen _ _ start fun t member numbered => ?_
  obtain ⟨inside, begins⟩ := List.mem_filter.mp member
  exact few t inside ((matching_iff t).mpr ⟨begins, numbered⟩)

theorem search_many (cut : List Text) (many : ¬∀ t ∈ cut, Matching t → (countedDigits t).length ≤ 9) :
    search 0 (cut.filter started) Search.start = .error .undefined := by
  obtain ⟨t, member, holds, long⟩ : ∃ t ∈ cut, Matching t ∧ 9 < (countedDigits t).length := by simpa using many
  obtain ⟨start, numbered⟩ := (matching_iff t).mp holds
  exact search_undefined _ 0 _ ⟨t, List.mem_filter.mpr ⟨member, start⟩, numbered, long⟩

/-- The last state of the search belongs to the name that is chosen of all, or to none. -/
theorem Seen.cases {cut : List Text} (known : Seen (cut.filter started) s) :
    (s.smallest_suffix_index = -1 ∧ ∀ t ∈ cut, ¬Matching t) ∨
      ∃ before t, Chooses Matching countedSuffix cut before t ∧
        s.smallest_suffix_index = int32.wrap (before.filter started).length := by
  by_cases found : ∃ t ∈ cut, Matching t
  · obtain ⟨before, t, chosen⟩ : ∃ before t, Chooses Matching countedSuffix cut before t :=
      exists_chooses cut found
    refine .inr ⟨before, t, chosen, ?_⟩
    have searched := chosen.searched
    cases known with
    | nothing none =>
      obtain ⟨after, shape, numbered, -⟩ := searched
      exact absurd numbered (none t (by simp [shape]))
    | something other => rw [(other.unique searched).1]
  · have none : ∀ t ∈ cut, ¬Matching t := fun t member holds => found ⟨t, member, holds⟩
    refine .inl ⟨?_, none⟩
    cases known with
    | nothing => rfl
    | something chosen =>
      rename_i before t
      obtain ⟨after, shape, numbered, -⟩ := chosen
      have member : t ∈ cut.filter started := by simp [shape]
      obtain ⟨inside, start⟩ := List.mem_filter.mp member
      exact absurd ((matching_iff t).mpr ⟨start, numbered⟩) (none t inside)

/-- What is returned for the name that is chosen of the names as they are read. -/
theorem finds_chosen_iff (names : List Text) (members : names.length < 4294967296)
    (chosen : Chooses Matching countedSuffix (names.map cString) before t) :
    FindsSmallest names
      (atIndex ((names.map cString).filter started) (int32.wrap (before.filter started).length)) ↔
      FirstSmallest Matching suffix names t ∧ (before.filter started).length < 2147483648 := by
  have bound : (before.filter started).length < 4294967295 := by
    obtain ⟨after, shape, -⟩ := id chosen
    have total := congrArg List.length shape
    rw [List.length_map, List.length_append, List.length_cons] at total
    have := List.length_filter_le started before
    omega
  unfold FindsSmallest
  rcases lt_or_ge (before.filter started).length 2147483648 with near | far
  · rw [atIndex_near chosen.searched near]
    constructor
    · rintro ⟨returns, throws⟩
      refine ⟨?_, near⟩
      by_cases some : ∃ t ∈ names, Matching t
      · obtain ⟨m, first, same⟩ := returns some
        cases same
        exact first
      · obtain ⟨e, thrown⟩ := throws.mpr fun t member holds => some ⟨t, member, holds⟩
        cases thrown
    · rintro ⟨first, -⟩
      refine ⟨fun _ => ⟨t, first, rfl⟩, iff_of_false (by simp) fun none => ?_⟩
      obtain ⟨_, after, shape, holds, -⟩ := first
      exact none t (by simp [shape]) holds
  · rw [atIndex_far _ far bound]
    refine iff_of_false (fun ⟨returns, throws⟩ => ?_) fun ⟨_, near⟩ => absurd near (not_lt.mpr far)
    exact undefined_not_found names ⟨returns, throws⟩

theorem FirstSmallest.member (first : FirstSmallest p value xs x) : ∃ y ∈ xs, p y := by
  obtain ⟨before, after, shape, holds, -⟩ := first
  exact ⟨x, by simp [shape], holds⟩

/-- The exception is right when no name matches as it stands either. -/
theorem thrown_iff (names : List Text) (few : ∀ t ∈ names.map cString, Matching t → (countedDigits t).length ≤ 9)
    (nothing : ∀ t ∈ names.map cString, ¬Matching t) :
    FindsSmallest names (.error (.mujin notFound)) ↔ ReadsAlike names := by
  constructor
  · rintro ⟨-, throws⟩
    have none := throws.mp ⟨notFound, rfl⟩
    refine ⟨few, fun m first => ?_, fun _ => nothing⟩
    obtain ⟨t, member, holds⟩ := first.member
    exact absurd holds (none t member)
  · intro alike
    have none : ¬∃ t ∈ names, Matching t := fun some => by
      obtain ⟨before, m, first⟩ : ∃ before m, Chooses Matching suffix names before m := exists_chooses names some
      obtain ⟨_, chosen, -⟩ := alike.same m ⟨before, first⟩
      obtain ⟨t, member, holds⟩ := FirstSmallest.member ⟨_, chosen⟩
      exact nothing t member holds
    exact ⟨fun some => absurd some none, iff_of_true ⟨notFound, rfl⟩ fun t member holds => none ⟨t, member, holds⟩⟩

theorem chosen_iff (names : List Text) (few : ∀ t ∈ names.map cString, Matching t → (countedDigits t).length ≤ 9)
    (chosen : Chooses Matching countedSuffix (names.map cString) before t) :
    FirstSmallest Matching suffix names t ∧ (before.filter started).length < 2147483648 ↔ ReadsAlike names := by
  constructor
  · rintro ⟨first, near⟩
    refine ⟨few, fun m other => ?_, fun none => ?_⟩
    · obtain ⟨_, one⟩ := id first
      obtain ⟨_, other⟩ := other
      obtain rfl := (one.unique other).2
      exact ⟨before, chosen, near⟩
    · obtain ⟨u, member, holds⟩ := first.member
      exact absurd holds (none u member)
  · intro alike
    have some : ∃ u ∈ names, Matching u := by
      by_contra none
      obtain ⟨u, member, holds⟩ := FirstSmallest.member ⟨_, chosen⟩
      exact alike.none (fun v inside matching => none ⟨v, inside, matching⟩) u member holds
    obtain ⟨place, m, first⟩ : ∃ place m, Chooses Matching suffix names place m := exists_chooses names some
    obtain ⟨before', chosen', near⟩ := alike.same m ⟨place, first⟩
    obtain ⟨rfl, rfl⟩ := chosen.unique chosen'
    exact ⟨⟨place, first⟩, near⟩

/-- An object has less than `2 ^ 32` members: they are counted by a `SizeType`. The tenth digit of a
name is one too many, even where the number fits. -/
theorem findSmallestSlaveRequestId_iff (pt slavestates : Json.Members)
    (found : Json.findMember pt (lit "slavestates") = some (.object slavestates))
    (members : slavestates.length < 4294967296) :
    FindsSmallest (slavestates.map Prod.fst) (findSmallestSlaveRequestId (.object pt)) ↔
      ReadsAlike (slavestates.map Prod.fst) := by
  rw [findSmallestSlaveRequestId_object found]
  have bound : (slavestates.map Prod.fst).length < 4294967296 := by simpa using members
  generalize slavestates.map Prod.fst = names at bound
  by_cases few : ∀ t ∈ names.map cString, Matching t → (countedDigits t).length ≤ 9
  · obtain ⟨s, ran, known⟩ := search_few _ few
    rw [ran, bind_known rfl]
    rcases known.cases with ⟨index, nothing⟩ | ⟨before, t, chosen, index⟩
    · rw [index]
      exact thrown_iff names few nothing
    · rw [index, finds_chosen_iff names bound chosen]
      exact chosen_iff names few chosen
  · rw [search_many _ few]
    exact iff_of_false (undefined_not_found names) fun alike => few alike.few

theorem Chooses.congr (same : ∀ y ∈ xs, value y = value' y) (chosen : Chooses p value xs before x) :
    Chooses p value' xs before x := by
  obtain ⟨after, rfl, holds, earlier, later⟩ := chosen
  have here := same x (by simp)
  refine ⟨after, rfl, holds, fun y member matching => ?_, fun y member matching => ?_⟩
  · rw [← here, ← same y (by simp [member])]
    exact earlier y member matching
  · rw [← here, ← same y (by simp [member])]
    exact later y member matching

/-- A name every character of which is read. -/
def Ordinary (t : Text) : Prop := NulFree t ∧ t.length ≤ 2147483648 ∧ (t.rtakeWhile isDigit).length ≤ 9

theorem readsAlike_ordinary (names : List Text) (ordinary : ∀ t ∈ names, Ordinary t)
    (short : names.length ≤ 2147483648) : ReadsAlike names := by
  have uncut : names.map cString = names := by
    conv_rhs => rw [← List.map_id names]
    exact List.map_congr_left fun t member => cString_of_nulFree t (ordinary t member).1
  refine ⟨?_, fun t first => ?_, ?_⟩
  · rw [uncut]
    intro t member _
    rw [countedDigits, counted_eq (ordinary t member).2.1]
    exact (ordinary t member).2.2
  · obtain ⟨before, chosen⟩ := first
    refine ⟨before, ?_, ?_⟩
    · rw [uncut]
      exact chosen.congr fun u member => by rw [countedSuffix, counted_eq (ordinary u member).2.1]
    · obtain ⟨after, rfl, -⟩ := chosen
      have := List.length_filter_le started before
      rw [List.length_append, List.length_cons] at short
      omega
  · rw [uncut]
    exact id

def twelveAndSeven : Json.Members :=
  [(lit "slaverequestid-host_slave12", .null), (lit "slaverequestid-host_slave7", .null)]

theorem findSmallestSlaveRequestId_seven : FindsSmallest (twelveAndSeven.map Prod.fst)
    (findSmallestSlaveRequestId (.object [(lit "slavestates", .object twelveAndSeven)])) := by
  have members : twelveAndSeven.length < 4294967296 := by simp [twelveAndSeven]
  have ordinary : ∀ t ∈ twelveAndSeven.map Prod.fst, Ordinary t := by
    unfold Ordinary
    decide
  apply (findSmallestSlaveRequestId_iff _ twelveAndSeven Json.findMember_cons_same members).mpr
  exact readsAlike_ordinary _ ordinary (by simp [twelveAndSeven])

def largestInt : Json.Members := [(lit "slaverequestid-host_slave2147483647", .null)]

set_option maxRecDepth 4096 in
/-- The largest `int` is not found. -/
theorem largest_not_found : ¬FindsSmallest (largestInt.map Prod.fst)
    (findSmallestSlaveRequestId (.object [(lit "slavestates", .object largestInt)])) := by
  rw [findSmallestSlaveRequestId_object Json.findMember_cons_same, search_many]
  · exact undefined_not_found _
  · intro few
    have long := few (lit "slaverequestid-host_slave2147483647") (by decide) (by decide)
    rw [countedDigits, counted_eq (by decide)] at long
    exact absurd long (by decide)

end SlaveRequests
end MujinClient
