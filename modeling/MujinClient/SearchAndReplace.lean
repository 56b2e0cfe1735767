import MujinClient.Text

/-! Replacing several patterns of a text at once, the loop over positions of the source and the
replacement from left to right that it computes. -/
namespace MujinClient

/-- A pattern with what it is replaced by. `SearchAndReplace` asserts that no pattern is empty. -/
structure Replacement where
  first : Text
  second : Text
  nonempty : first ≠ []

namespace Replacement

/-- `PairStringLengthCompare(p1, p0)` is false. -/
def longerOrEqual (p0 p1 : Replacement) : Prop := p1.first.length ≤ p0.first.length

instance : DecidableRel longerOrEqual :=
  fun p0 p1 => inferInstanceAs (Decidable (p1.first.length ≤ p0.first.length))

/-- `stable_sort(pairs.begin(), pairs.end(), PairStringLengthCompare)`. -/
def sortedPairs (pairs : List Replacement) : List Replacement := pairs.insertionSort longerOrEqual

def offset (pattern : Text) : Text → Option Nat
  | [] => none
  | b :: t => if pattern <+: b :: t then some 0 else (offset pattern t).map (· + 1)

/-- `in.find(pattern, startindex)` of a pattern that is not empty. -/
def find (input pattern : Text) (startindex : Nat) : Option Nat :=
  (offset pattern (input.drop startindex)).map (startindex + ·)

/-- `nextindex` and `itbestp`. -/
structure Next where
  index : Nat
  pair : Replacement

/-- The body of the loop over the pairs. Without a match so far, each pair takes over. -/
def better (input : Text) (startindex : Nat) (next : Option Next) (p : Replacement) : Option Next :=
  match next, find input p.first startindex with
  | none, index => index.map fun index => ⟨index, p⟩
  | some next, some index => if index < next.index then some ⟨index, p⟩ else some next
  | some next, none => some next

def nextMatch (input : Text) (pairs : List Replacement) (startindex : Nat) : Option Next :=
  pairs.foldl (better input startindex) none

variable {pairs : List Replacement} {input pattern t : Text} {startindex : Nat} {next : Next}

theorem offset_none (nonempty : pattern ≠ []) : offset pattern t = none ↔ ∀ n, ¬pattern <+: t.drop n := by
  induction t with
  | nil => simp [offset, nonempty]
  | cons b t ih =>
    constructor
    · intro absent n
      unfold offset at absent
      split at absent
      · cases absent
      · rename_i here
        cases n with
        | zero => exact here
        | succ n => exact ih.mp (Option.map_eq_none_iff.mp absent) n
    · intro each
      have start : ¬pattern <+: b :: t := each 0
      rw [offset, if_neg start, ih.mpr fun n => each (n + 1)]
      rfl

theorem offset_some (found : offset pattern t = some n) :
    pattern <+: t.drop n ∧ ∀ m < n, ¬pattern <+: t.drop m := by
  induction t generalizing n with
  | nil => cases found
  | cons b t ih =>
    unfold offset at found
    split at found
    · rename_i here
      obtain rfl := Option.some.inj found
      exact ⟨here, by simp⟩
    · rename_i here
      obtain ⟨n, later, rfl⟩ := Option.map_eq_some_iff.mp found
      obtain ⟨there, before⟩ := ih later
      refine ⟨there, fun m earlier => ?_⟩
      cases m with
      | zero => exact here
      | succ m => exact before m (by omega)

theorem find_none (nonempty : pattern ≠ []) (absent : find input pattern startindex = none) :
    ∀ n, startindex ≤ n → ¬pattern <+: input.drop n := by
  intro n later
  have each := (offset_none nonempty).mp (Option.map_eq_none_iff.mp absent) (n - startindex)
  rwa [List.drop_drop, show startindex + (n - startindex) = n by omega] at each

theorem find_some (found : find input pattern startindex = some index) :
    pattern <+: input.drop index ∧ ∀ n, startindex ≤ n → n < index → ¬pattern <+: input.drop n := by
  obtain ⟨n, place, rfl⟩ := Option.map_eq_some_iff.mp found
  obtain ⟨here, before⟩ := offset_some place
  rw [List.drop_drop] at here
  refine ⟨here, fun m later earlier => ?_⟩
  have each := before (m - startindex) (by omega)
  rwa [List.drop_drop, show startindex + (m - startindex) = m by omega] at each

def Free (pairs : List Replacement) (input : Text) (first last : Nat) : Prop :=
  ∀ p ∈ pairs, ∀ n, first ≤ n → n < last → ¬p.first <+: input.drop n

/-- The pair is found at the position, and of the pairs in front of it none is. -/
structure Found (pairs : List Replacement) (input : Text) (startindex : Nat) (next : Next) : Prop where
  split : ∃ before after, pairs = before ++ next.pair :: after ∧ ∀ q ∈ before, ¬q.first <+: input.drop next.index
  here : next.pair.first <+: input.drop next.index
  later : startindex ≤ next.index
  free : Free pairs input startindex next.index

theorem find_ge (found : find input pattern startindex = some index) : startindex ≤ index := by
  obtain ⟨n, -, rfl⟩ := Option.map_eq_some_iff.mp found
  omega

theorem nextMatch_concat (p : Replacement) :
    nextMatch input (pairs ++ [p]) startindex = better input startindex (nextMatch input pairs startindex) p :=
  List.foldl_concat ..

theorem nextMatch_none (none : nextMatch input pairs startindex = none) :
    ∀ p ∈ pairs, find input p.first startindex = .none := by
  induction pairs using List.reverseRecOn with
  | nil => simp
  | append_singleton pairs p ih =>
    rw [nextMatch_concat] at none
    unfold better at none
    split at none
    · rename_i before
      have absent := Option.map_eq_none_iff.mp none
      exact List.forall_mem_append.mpr ⟨ih before, by simpa using absent⟩
    · split at none <;> cases none
    · cases none

theorem free_of_absent (absent : ∀ p ∈ pairs, find input p.first startindex = none) (last : Nat) :
    Free pairs input startindex last :=
  fun p member n later _ => find_none p.nonempty (absent p member) n later

theorem nextMatch_some (some : nextMatch input pairs startindex = some next) :
    Found pairs input startindex next := by
  induction pairs using List.reverseRecOn generalizing next with
  | nil => cases some
  | append_singleton pairs p ih =>
    have both {last : Nat} (front : Free pairs input startindex last)
        (there : ∀ n, startindex ≤ n → n < last → ¬p.first <+: input.drop n) : Free (pairs ++ [p]) input
          startindex last :=
      List.forall_mem_append.mpr ⟨front, by simpa using there⟩
    rw [nextMatch_concat] at some
    unfold better at some
    split at some
    · -- the first match of all
      rename_i before
      obtain ⟨index, found, rfl⟩ := Option.map_eq_some_iff.mp some
      obtain ⟨here, earlier⟩ := find_some found
      have absent := nextMatch_none before
      exact ⟨⟨pairs, [], rfl, fun q member => find_none q.nonempty (absent q member) _ (find_ge found)⟩,
        here, find_ge found,
        both (free_of_absent absent index) earlier⟩
    · rename_i old index before found
      obtain ⟨here, earlier⟩ := find_some found
      obtain ⟨⟨front, after, rfl, absent⟩, there, later, free⟩ := ih before
      split at some
      · -- a match in front of the one so far
        rename_i nearer
        obtain rfl := Option.some.inj some
        exact ⟨⟨_, [], rfl, fun q member => free q member _ (find_ge found) nearer⟩, here, find_ge found,
          both (fun q member n first last => free q member n first (lt_trans last nearer)) earlier⟩
      · obtain rfl := Option.some.inj some
        exact ⟨⟨front, after ++ [p], by simp, absent⟩, there, later, both free fun n first last =>
          earlier n first (by omega)⟩
    · rename_i old before found
      obtain ⟨⟨front, after, rfl, absent⟩, there, later, free⟩ := ih before
      obtain rfl := Option.some.inj some
      exact ⟨⟨front, after ++ [p], by simp, absent⟩, there, later, both free fun n first _ =>
        find_none p.nonempty found n first⟩

def replaceFrom (input : Text) (pairs : List Replacement) (out : Text) (startindex : Nat) : Text :=
  if startindex < input.length then
    match _found : nextMatch input pairs startindex with
    | none => out ++ input.drop startindex
    | some next => replaceFrom input pairs
        (out ++ (input.drop startindex).take (next.index - startindex) ++ next.pair.second)
          (next.index + next.pair.first.length)
  else out
termination_by input.length - startindex
decreasing_by
  have later := (nextMatch_some _found).later
  have positive := List.length_pos_iff.mpr next.pair.nonempty
  omega

def searchAndReplace (input : Text) (pairs : List Replacement) : Text := replaceFrom input (sortedPairs pairs) [] 0

/-- Among the pairs whose pattern the text starts with, this is the first of those with the longest one. -/
def Longest (pairs : List Replacement) (p : Replacement) (t : Text) : Prop :=
  ∃ before after, pairs = before ++ p :: after ∧ p.first <+: t ∧
    (∀ q ∈ before, q.first <+: t → q.first.length < p.first.length) ∧ ∀ q ∈ after, q.first <+: t →
      q.first.length ≤ p.first.length

/-- The result of replacing the patterns of a text from left to right. -/
inductive Replaces (pairs : List Replacement) : Text → Text → Prop
  | done : Replaces pairs [] []
  | copies {t out : Text} (b : Byte) (none : ∀ p ∈ pairs, ¬p.first <+: b :: t)
    (rest : Replaces pairs t out) : Replaces pairs (b :: t) (b :: out)
  | replaces {t out : Text} (p : Replacement) (longest : Longest pairs p (p.first ++ t))
    (rest : Replaces pairs t out) :
    Replaces pairs (p.first ++ t) (p.second ++ out)

theorem sortedPairs_pairwise (pairs : List Replacement) : (sortedPairs pairs).Pairwise longerOrEqual := by
  have total : Std.Total longerOrEqual := ⟨fun p q => Nat.le_total q.first.length p.first.length⟩
  have transitive : IsTrans Replacement longerOrEqual := ⟨fun _ _ _ first second => Nat.le_trans second first⟩
  exact List.pairwise_insertionSort _ pairs

/-- The sort is stable: pairs whose patterns are equally long stay in order. -/
theorem filter_sortedPairs {length : Nat} (among : Replacement → Bool)
    (equal : ∀ p, among p = true → p.first.length = length)
    (pairs : List Replacement) : (sortedPairs pairs).filter among = pairs.filter among := by
  have total : Std.Total longerOrEqual := ⟨fun p q => Nat.le_total q.first.length p.first.length⟩
  have transitive : IsTrans Replacement longerOrEqual := ⟨fun _ _ _ first second => Nat.le_trans second first⟩
  have ordered : (pairs.filter among).Pairwise longerOrEqual := by
    refine List.pairwise_iff_forall_sublist.mpr fun {p q} both => ?_
    have inside := both.subset
    have first := equal p (List.mem_filter.mp (inside List.mem_cons_self)).2
    have second := equal q (List.mem_filter.mp (inside (by simp))).2
    rw [longerOrEqual, first, second]
  have kept := (List.sublist_insertionSort ordered List.filter_sublist).filter among
  rw [List.filter_filter] at kept
  simp only [Bool.and_self] at kept
  exact (kept.eq_of_length ((List.perm_insertionSort longerOrEqual pairs).filter among).length_eq.symm).symm

/-- The pair that the loop over the sorted pairs finds is the one that is to be replaced. -/
theorem Found.longest (found : Found (sortedPairs pairs) input startindex next) :
    Longest pairs next.pair (input.drop next.index) := by
  obtain ⟨⟨before, after, split, absent⟩, here, -, -⟩ := found
  have sorted := sortedPairs_pairwise pairs
  rw [split] at sorted
  obtain ⟨-, tail, -⟩ := List.pairwise_append.mp sorted
  have shorter : ∀ q ∈ pairs, q.first <+: input.drop next.index → q.first.length ≤ next.pair.first.length := by
    intro q member there
    have inside : q ∈ before ++ next.pair :: after := split ▸ (List.mem_insertionSort longerOrEqual).mpr member
    rcases List.mem_append.mp inside with early | late
    · exact absurd there (absent q early)
    · rcases List.mem_cons.mp late with rfl | behind
      · exact le_rfl
      · exact (List.pairwise_cons.mp tail).1 q behind
  -- the pairs that are found here and as long as this one: it is the first of them in both orders
  let among : Replacement → Bool :=
    fun q => q.first <+: input.drop next.index ∧ q.first.length = next.pair.first.length
  have none : before.filter among = [] := by
    refine List.filter_eq_nil_iff.mpr fun q early there => ?_
    exact absent q early (of_decide_eq_true there).1
  have this : among next.pair = true := decide_eq_true ⟨here, rfl⟩
  have order := filter_sortedPairs among (fun q there => (of_decide_eq_true there).2) pairs
  rw [split, List.filter_append, none, List.nil_append, List.filter_cons_of_pos this] at order
  obtain ⟨front, back, shape, outside, -, -⟩ := List.filter_eq_cons_iff.mp order.symm
  refine ⟨front, back, shape, here, fun q early there => lt_of_le_of_ne (shorter q ?_ there) fun same => ?_,
    fun q late there => shorter q ?_ there⟩
  · rw [shape]
    exact List.mem_append_left _ early
  · exact outside q early (decide_eq_true ⟨there, same⟩)
  · rw [shape]
    exact List.mem_append_right _ (List.mem_cons_of_mem _ late)

theorem Free.ofSorted {last : Nat} (free : Free (sortedPairs pairs) input startindex last) :
    Free pairs input startindex last :=
  fun p member => free p ((List.mem_insertionSort longerOrEqual).mpr member)

/-- A part of the text without patterns is copied. -/
theorem Replaces.copied {out : Text} (n : Nat) (free : Free pairs t 0 n) (bound : n ≤ t.length)
    (rest : Replaces pairs (t.drop n) out) :
    Replaces pairs t (t.take n ++ out) := by
  induction n generalizing t with
  | zero => simpa using rest
  | succ n ih =>
    cases t with
    | nil => simp at bound
    | cons b t =>
      refine .copies b (fun p member => free p member 0 (by omega) (by omega)) (ih ?_ (by simpa using bound) rest)
      intro p member m first last
      exact free p member (m + 1) (by omega) (by omega)

theorem Replaces.nothing (free : Free pairs t 0 t.length) : Replaces pairs t t := by
  have copied : Replaces pairs t (t.take t.length ++ []) :=
    Replaces.copied t.length free le_rfl (by simpa using Replaces.done)
  simpa using copied

theorem Free.drop (free : Free pairs input startindex last) :
    Free pairs (input.drop startindex) 0 (last - startindex) := by
  intro p member n first bound there
  rw [List.drop_drop] at there
  exact free p member _ (by omega) (by omega) there

theorem replaceFrom_none {out : Text} (none : nextMatch input pairs startindex = none) :
    replaceFrom input pairs out startindex = out ++ input.drop startindex := by
  rw [replaceFrom]
  split
  · split <;> simp_all
  · rw [List.drop_eq_nil_of_le (by omega), List.append_nil]

theorem replaceFrom_some {out : Text} (some : nextMatch input pairs startindex = some next) :
    replaceFrom input pairs out startindex = replaceFrom input pairs
      (out ++ (input.drop startindex).take (next.index - startindex) ++ next.pair.second)
    (next.index + next.pair.first.length) := by
  have inside : startindex < input.length := by
    have found := nextMatch_some some
    have here := found.here.length_le
    have later := found.later
    have positive := List.length_pos_iff.mpr next.pair.nonempty
    rw [List.length_drop] at here
    omega
  conv_lhs => rw [replaceFrom, if_pos inside]
  split <;> simp_all

/-- From a position on, the loop appends what the rest is replaced by. -/
theorem replaceFrom_replaces (pairs : List Replacement) (input out : Text) (startindex : Nat) : ∃ result,
    replaceFrom input (sortedPairs pairs) out startindex = out ++ result ∧
      Replaces pairs (input.drop startindex) result := by
  induction remaining : input.length - startindex using Nat.strong_induction_on generalizing out startindex with
  | _ n ih =>
    cases step : nextMatch input (sortedPairs pairs) startindex with
    | none =>
      refine ⟨input.drop startindex, replaceFrom_none step, Replaces.nothing ?_⟩
      have absent := free_of_absent (nextMatch_none step) input.length
      rw [List.length_drop]
      exact absent.ofSorted.drop
    | some next =>
      have found := nextMatch_some step
      have here := found.here
      have later := found.later
      have bound := here.length_le
      have positive := List.length_pos_iff.mpr next.pair.nonempty
      rw [List.length_drop] at bound
      obtain ⟨result, run, rest⟩ := ih (input.length - (next.index + next.pair.first.length)) (by omega)
        (out ++ (input.drop startindex).take (next.index - startindex) ++ next.pair.second) _ rfl
      refine ⟨(input.drop startindex).take (next.index - startindex) ++ (next.pair.second ++ result), ?_, ?_⟩
      · rw [replaceFrom_some step, run]
        simp
      · -- the gap is copied, the match behind it is replaced
        refine Replaces.copied _ found.free.ofSorted.drop (by rw [List.length_drop]; omega) ?_
        rw [List.drop_drop, Nat.add_sub_cancel' later]
        have matched : input.drop next.index = next.pair.first ++
            input.drop (next.index + next.pair.first.length) := by
          obtain ⟨t, same⟩ := here
          rw [← List.drop_drop, ← same, List.drop_left]
        have longest := found.longest
        rw [matched] at longest ⊢
        exact .replaces next.pair longest rest

theorem Longest.unique {p q : Replacement} (one : Longest pairs p t) (other : Longest pairs q t) : p = q := by
  obtain ⟨before, after, rfl, here, shorter, noLonger⟩ := one
  obtain ⟨front, back, shape, there, less, atMost⟩ := other
  rcases List.append_eq_append_iff.mp shape with ⟨between, rfl, tail⟩ | ⟨between, rfl, tail⟩
  · cases between with
    | nil => exact (List.cons.inj tail).1
    | cons r between =>
      obtain ⟨rfl, rfl⟩ := List.cons.inj tail
      have first := less p (by simp) here
      have second := noLonger q (by simp) there
      omega
  · cases between with
    | nil => exact (List.cons.inj tail).1.symm
    | cons r between =>
      obtain ⟨rfl, rfl⟩ := List.cons.inj tail
      have first := shorter q (by simp) there
      have second := atMost p (by simp) here
      omega

theorem Longest.here {p : Replacement} (longest : Longest pairs p t) : p ∈ pairs ∧ p.first <+: t := by
  obtain ⟨before, after, rfl, here, -, -⟩ := longest
  exact ⟨by simp, here⟩

theorem Replaces.unique {out other : Text} (one : Replaces pairs t out) (two : Replaces pairs t other) :
    out = other := by
  induction one generalizing other with
  | done =>
    generalize empty : ([] : Text) = t at two
    cases two with
    | done => rfl
    | copies => cases empty
    | replaces p => exact absurd (List.append_eq_nil_iff.mp empty.symm).1 p.nonempty
  | @copies t out b none rest ih =>
    generalize shape : b :: t = u at two
    cases two with
    | done => cases shape
    | copies c _ later =>
      obtain ⟨rfl, rfl⟩ := List.cons.inj shape
      rw [ih later]
    | replaces p longest => exact absurd (shape ▸ longest.here.2) (none p longest.here.1)
  | @replaces t out p longest rest ih =>
    generalize shape : p.first ++ t = u at two longest
    cases two with
    | done => exact absurd (List.append_eq_nil_iff.mp shape).1 p.nonempty
    | copies b none => exact absurd longest.here.2 (none p longest.here.1)
    | replaces q other later =>
      obtain rfl := longest.unique other
      obtain rfl := List.append_cancel_left shape
      rw [ih later]

/-- The function computes the replacement from left to right. -/
theorem searchAndReplace_iff (input : Text) (pairs : List Replacement) (out : Text) :
    searchAndReplace input pairs = out ↔ Replaces pairs input out := by
  obtain ⟨result, run, replaces⟩ := replaceFrom_replaces pairs input [] 0
  rw [List.nil_append] at run
  rw [searchAndReplace, run]
  exact ⟨fun same => same ▸ replaces, fun other => replaces.unique other⟩

end Replacement

end MujinClient
