import MujinClient.Transition
import MujinClient.Machine
import MujinClient.SearchAndReplace

/-! Timestamps that are made numbers with a dot, and what a second conversion makes of them. -/
namespace MujinClient

open Transition (iterate_settled)
open Replacement (offset offset_some offset_none)

namespace Timestamps

def key : Text := lit "\"timestamp\":"

structure Loop where
  processed : Nat
  outss : Text

inductive Outcome where
  | running (loop : Loop)
  | returned (outss : Text)
  | threw (e : MujinException)

/-- `comma < closingCurly ? comma : closingCurly`. What is not found is at `npos`, behind everything. -/
def smaller : Option Nat → Option Nat → Option Nat
  | some comma, some closingCurly => some (if comma < closingCurly then comma else closingCurly)
  | some comma, none => some comma
  | none, closingCurly => closingCurly

/-- `period == std::string::npos || timestampbegin + period > timestampend` -/
def periodBehind (timestampbegin timestampend : Nat) : Option Nat → Bool
  | none => true
  | some period => timestampend < timestampbegin + period

/-- One round. No position of a text is `npos`. -/
def step (input : Text) (loop : Loop) : Outcome :=
  if loop.processed < input.length then
    match offset key (input.drop loop.processed) with
    | none => .returned (loop.outss ++ input.drop loop.processed)
    | some deltabegin =>
      let timestampbegin := loop.processed + deltabegin
      let timestamp := input.drop timestampbegin
      match smaller (offset (lit ",") timestamp) (offset (lit "\x7d") timestamp) with
      | none => .threw ⟨lit "error while converting timestamp value format for " ++ input, .failed⟩
      | some delimiter =>
        let timestampend := timestampbegin + delimiter
        let slice := (input.drop loop.processed).take (timestampend - loop.processed)
        if periodBehind timestampbegin timestampend (offset (lit ".") timestamp) then
          .running ⟨timestampend, loop.outss ++ (slice ++ lit ".")⟩
        else .running ⟨timestampend, loop.outss ++ slice⟩
  else .returned loop.outss

def Outcome.advance (input : Text) : Outcome → Outcome
  | running loop => step input loop
  | settled => settled

/-- `ConvertTimestampToFloat` after so many rounds, on a stream that has `outss` in it. -/
def convertTimestampToFloat (input outss : Text) (n : Nat) : Outcome :=
  (Outcome.advance input)^[n] (.running ⟨0, outss⟩)

/-- An occurrence of the key with what is in front of it, its value, and whether a dot is added. -/
structure Occurrence where
  front : Text
  value : Text
  dotted : Bool

namespace Occurrence

def text (o : Occurrence) : Text := o.front ++ (key ++ o.value)

def written (o : Occurrence) : Text := o.text ++ if o.dotted then lit "." else []

end Occurrence

def IsDelimiter (b : Byte) : Prop := b = byte ',' ∨ b = byte '}'

/-- The output is the input with at most one dot for each of the occurrences, right in front of a comma or
a brace, and each round processes one of them. -/
structure AddsDots (input outss output : Text) (occurrences : List Occurrence) (rest : Text) : Prop where
  input_eq : input = occurrences.flatMap Occurrence.text ++ rest
  output_eq : output = occurrences.flatMap Occurrence.written ++ rest
  delimited : ∀ before o behind, occurrences = before ++ o :: behind →
    ∃ b t, IsDelimiter b ∧ behind.flatMap Occurrence.written ++ rest = b :: t
  rounds : ∀ k ≤ occurrences.length, convertTimestampToFloat input outss k =
    .running ⟨((occurrences.take k).flatMap Occurrence.text).length, outss ++ (occurrences.take k).flatMap
      Occurrence.written⟩

/-- The conversion ends. If it returns, only dots were added, and converting the output again adds none. -/
structure Converts (input outss : Text) : Prop where
  ends : ∃ n, ∀ loop, convertTimestampToFloat input outss n ≠ .running loop
  returns : ∀ n final, convertTimestampToFloat input outss n = .returned final → ∃ output occurrences rest,
    final = outss ++ output ∧ AddsDots input outss output occurrences rest ∧
      ∀ other, ∃ m, convertTimestampToFloat output other m = .returned (other ++ output)

/-- The next occurrence of the key, with a value that ends at a delimiter. -/
def Occurrence.of (front value : Text) : Occurrence := ⟨front, value, !value.contains (byte '.')⟩

/-- In front of a key, no key starts. -/
def Fronts (front : Text) : Prop := ∀ m < front.length, ¬key <+: (front ++ key).drop m

/-- A text whose timestamps all have an end. -/
inductive Converted : Text → List Occurrence → Text → Prop where
  | rest : offset key rest = none → Converted rest [] rest
  | next : Fronts front → (∀ c ∈ value, ¬IsDelimiter c) → IsDelimiter b → Converted (b :: t) occurrences rest →
      Converted (front ++ (key ++ (value ++ b :: t))) (.of front value :: occurrences) rest

def withDot (value : Text) : Text := value ++ if value.contains (byte '.') then [] else lit "."

variable {input outss t u front value rest : Text} {occurrences : List Occurrence} {b c : Byte}
    {processed m n : Nat}

theorem offset_eq {pattern : Text} (nonempty : pattern ≠ []) (here : pattern <+: t.drop n)
    (before : ∀ m < n, ¬pattern <+: t.drop m) : offset pattern t = some n := by
  cases found : offset pattern t with
  | none => exact absurd here ((offset_none nonempty).mp found n)
  | some m =>
    obtain ⟨there, earlier⟩ := offset_some found
    have low : m ≤ n := by
      by_contra late
      exact earlier n (by omega) here
    have high : n ≤ m := by
      by_contra early
      exact before m (by omega) there
    rw [show m = n by omega]

theorem offset_single (c : Byte) (t : Text) : offset [c] t = t.findIdx? (· == c) := by
  induction t with
  | nil => rfl
  | cons b t ih =>
    rw [offset, List.findIdx?_cons, ih]
    by_cases here : b = c
    · simp [here]
    · have apart : c ≠ b := fun same => here same.symm
      simp [here, apart]

theorem key_ne_nil : key ≠ [] := by decide

/-- Whether a key starts in front of a key does not depend on what is behind that. -/
theorem fronts_iff (u : Text) : Fronts front ↔ offset key (front ++ (key ++ u)) = some front.length := by
  have alike : ∀ m < front.length, (key <+: (front ++ (key ++ u)).drop m ↔ key <+: (front ++ key).drop m) := by
    intro m inside
    rw [← List.append_assoc, List.drop_append_of_le_length (by simp; omega)]
    constructor
    · intro starts
      exact List.prefix_of_prefix_length_le starts (List.prefix_append ..) (by simp; omega)
    · intro starts
      exact starts.trans (List.prefix_append ..)
  constructor
  · intro fronts
    exact offset_eq key_ne_nil (by simp) fun m inside starts => fronts m inside ((alike m inside).mp starts)
  · intro found m inside starts
    exact (offset_some found).2 m inside ((alike m inside).mpr starts)

theorem smaller_map (comma closingCurly : Option Nat) :
    smaller (comma.map (· + 1)) (closingCurly.map (· + 1)) = (smaller comma closingCurly).map (· + 1) := by
  cases comma <;> cases closingCurly <;> simp only [smaller, Option.map_some, Option.map_none]
  split <;> split <;> simp <;> omega

instance : DecidablePred IsDelimiter := fun b => inferInstanceAs (Decidable (b = byte ',' ∨ b = byte '}'))

theorem smaller_eq (t : Text) :
    smaller (offset (lit ",") t) (offset (lit "\x7d") t) = t.findIdx? (fun c => decide (IsDelimiter c)) := by
  rw [show lit "," = [byte ','] from rfl, show lit "\x7d" = [byte '}'] from rfl, offset_single, offset_single]
  -- a byte is one of the delimiters or neither, and then both searches go on
  induction t with
  | nil => rfl
  | cons b t ih =>
    rw [List.findIdx?_cons, List.findIdx?_cons, List.findIdx?_cons, ← ih]
    by_cases comma : b = byte ','
    · subst comma
      have apart : (byte ',' == byte '}') = false := rfl
      simp only [beq_self_eq_true, IsDelimiter, apart, if_true, true_or, decide_true, Bool.false_eq_true, if_false]
      cases t.findIdx? (· == byte '}') <;> simp [smaller]
    · have other : (b == byte ',') = false := by simpa using comma
      by_cases brace : b = byte '}'
      · subst brace
        simp only [other, IsDelimiter, beq_self_eq_true, if_true, or_true, decide_true, Bool.false_eq_true,
          if_false]
        cases t.findIdx? (· == byte ',') <;> simp [smaller]
      · have neither : (b == byte '}') = false := by simpa using brace
        have ordinary : decide (IsDelimiter b) = false := by simp [IsDelimiter, comma, brace]
        rw [other, neither, ordinary]
        exact smaller_map _ _

/-- A value goes on to the first delimiter. -/
theorem smaller_at (plain : ∀ c ∈ value, ¬IsDelimiter c) (delimiter : IsDelimiter b) :
    smaller (offset (lit ",") (value ++ b :: rest))
    (offset (lit "\x7d") (value ++ b :: rest)) = some value.length := by
  rw [smaller_eq, List.findIdx?_append, List.findIdx?_eq_none_iff.mpr (by simpa using plain)]
  simp [List.findIdx?_cons, delimiter]

/-- There is no dot in front of the delimiter. -/
theorem periodBehind_at (delimiter : IsDelimiter b) (begun : Nat) :
    periodBehind begun (begun + value.length)
    (offset (lit ".") (value ++ b :: rest)) = !value.contains (byte '.') := by
  rw [show lit "." = [byte '.'] from rfl, offset_single, List.findIdx?_append]
  cases dot : value.findIdx? (· == byte '.') with
  | some period =>
    obtain ⟨inside, here, -⟩ := List.findIdx?_eq_some_iff_getElem.mp dot
    have contained : value.contains (byte '.') = true := by
      rw [← beq_iff_eq.mp here]
      simp
    rw [contained]
    simp [periodBehind]
    omega
  | none =>
    have absent : value.contains (byte '.') = false := by
      rw [List.findIdx?_eq_none_iff] at dot
      simpa using fun member => absurd (dot _ member) (by simp)
    have ordinary : (b == byte '.') = false := by
      rcases delimiter with rfl | rfl <;> rfl
    rw [absent, List.findIdx?_cons, ordinary]
    cases rest.findIdx? (· == byte '.') <;> simp [periodBehind]

@[simp] theorem Occurrence.text_of (front value : Text) :
    (Occurrence.of front value).text = front ++ (key ++ value) := rfl

@[simp] theorem Occurrence.written_of (front value : Text) :
    (Occurrence.of front value).written = front ++ (key ++ withDot value) := by
  unfold Occurrence.of Occurrence.written Occurrence.text withDot
  cases value.contains (byte '.') <;> simp

theorem withDot_plain (plain : ∀ c ∈ value, ¬IsDelimiter c) : ∀ c ∈ withDot value, ¬IsDelimiter c := by
  intro c member
  rcases List.mem_append.mp member with member | member
  · exact plain c member
  · split at member
    · cases member
    · obtain rfl := List.mem_singleton.mp member
      rintro (comma | brace) <;> contradiction

theorem withDot_withDot (value : Text) : withDot (withDot value) = withDot value := by
  cases dot : value.contains (byte '.') with
  | true => simp only [withDot, dot, if_true, List.append_nil]
  | false =>
    have contained : (value ++ lit ".").contains (byte '.') = true :=
      List.contains_iff_mem.mpr (List.mem_append_right _ List.mem_cons_self)
    simp only [withDot, dot, Bool.false_eq_true, if_false, contained, if_true, List.append_nil]

theorem step_rest (absent : offset key (input.drop processed) = none) :
    step input ⟨processed, outss⟩ = .returned (outss ++ input.drop processed) := by
  unfold step
  split
  · simp only [absent]
  · rename_i behind
    rw [List.drop_eq_nil_of_le (by simpa using behind), List.append_nil]

theorem key_plain : ∀ c ∈ key, ¬IsDelimiter c := by
  intro c member
  have all : key.all (fun c => !decide (IsDelimiter c)) = true := rfl
  simpa using List.all_eq_true.mp all c member

theorem key_dotless : key.contains (byte '.') = false := rfl

theorem key_append_plain (plain : ∀ c ∈ value, ¬IsDelimiter c) : ∀ c ∈ key ++ value, ¬IsDelimiter c := by
  intro c member
  rcases List.mem_append.mp member with member | member
  · exact key_plain c member
  · exact plain c member

theorem drop_key (rest_eq : input.drop processed = front ++ (key ++ u)) :
    input.drop (processed + front.length) = key ++ u := by
  rw [← List.drop_drop, rest_eq, List.drop_left]

theorem inside_of_key (rest_eq : input.drop processed = front ++ (key ++ u)) : processed < input.length := by
  by_contra behind
  rw [List.drop_eq_nil_of_le (by omega)] at rest_eq
  simp [key_ne_nil] at rest_eq

theorem step_next (fronts : Fronts front) (plain : ∀ c ∈ value, ¬IsDelimiter c) (delimiter : IsDelimiter b)
    (rest_eq : input.drop processed = front ++ (key ++ (value ++ b :: t))) : step input ⟨processed, outss⟩ =
      .running ⟨processed + (Occurrence.of front value).text.length, outss ++
        (Occurrence.of front value).written⟩ := by
  have inside := inside_of_key rest_eq
  have found : offset key (input.drop processed) = some front.length := by
    rw [rest_eq]
    exact (fronts_iff _).mp fronts
  have timestamp : input.drop (processed + front.length) = (key ++ value) ++ b :: t := by
    rw [drop_key rest_eq, List.append_assoc]
  have slice : (input.drop processed).take (processed + front.length + (key ++ value).length - processed) =
      front ++ (key ++ value) := by
    rw [rest_eq, show processed + front.length + (key ++ value).length - processed =
      (front ++ (key ++ value)).length by simp; omega]
    rw [show front ++ (key ++ (value ++ b :: t)) = (front ++ (key ++ value)) ++ b :: t by simp, List.take_left]
  have dots : (key ++ value).contains (byte '.') = value.contains (byte '.') := by
    rw [List.contains_eq_any_beq, List.any_append, ← List.contains_eq_any_beq, ← List.contains_eq_any_beq,
      key_dotless, Bool.false_or]
  have length : processed + front.length + (key ++ value).length =
      processed + (Occurrence.of front value).text.length := by
    simp only [Occurrence.text_of, List.length_append]
    omega
  unfold step
  simp only [inside, if_true, found, timestamp, smaller_at (key_append_plain plain) delimiter, slice,
    periodBehind_at delimiter, dots]
  rw [length, Occurrence.written_of, withDot]
  cases value.contains (byte '.') <;> simp

theorem step_unended (found : offset key (input.drop processed) = some front.length)
    (rest_eq : input.drop processed = front ++ (key ++ u)) (unended : ∀ c ∈ u, ¬IsDelimiter c) :
    ∃ e, step input ⟨processed, outss⟩ = .threw e := by
  have inside := inside_of_key rest_eq
  have nowhere : (key ++ u).findIdx? (fun c => decide (IsDelimiter c)) = none := by
    rw [List.findIdx?_eq_none_iff]
    intro c member
    exact decide_eq_false (key_append_plain unended c member)
  unfold step
  simp only [inside, if_true, found, drop_key rest_eq, smaller_eq, nowhere]
  exact ⟨_, rfl⟩

namespace Converted

theorem text_eq (converted : Converted t occurrences rest) : t = occurrences.flatMap Occurrence.text ++ rest := by
  induction converted with
  | rest => rfl
  | next fronts plain delimiter converted ih => simp [← ih]

/-- Nothing is written in front of a delimiter that a value ends at. -/
theorem head_eq (converted : Converted t occurrences rest) :
    (occurrences.flatMap Occurrence.written ++ rest).head? = t.head? := by
  cases converted with
  | rest => rfl
  | next => simp [List.head?_append, key, lit]

theorem written_cons (converted : Converted (b :: t) occurrences rest) :
    ∃ u, occurrences.flatMap Occurrence.written ++ rest = b :: u := by
  exact List.head?_eq_some_iff.mp converted.head_eq

theorem absent (converted : Converted t occurrences rest) : offset key rest = none := by
  induction converted with
  | rest absent => exact absent
  | next fronts plain delimiter converted ih => exact ih

theorem delimited (converted : Converted t occurrences rest) :
    ∀ before o behind, occurrences = before ++ o :: behind →
    ∃ b u, IsDelimiter b ∧ behind.flatMap Occurrence.written ++ rest = b :: u := by
  induction converted with
  | rest =>
    intro before o behind split
    simp at split
  | next fronts plain delimiter converted ih =>
    intro before o behind split
    cases before with
    | nil =>
      obtain ⟨-, rfl⟩ := List.cons.inj split
      obtain ⟨u, written⟩ := converted.written_cons
      exact ⟨_, u, delimiter, written⟩
    | cons p before => exact ih before o behind (List.cons.inj split).2

/-- The rounds of the loop, from wherever the text is the rest of the input. -/
theorem rounds (converted : Converted t occurrences rest) (processed : Nat) (outss : Text)
    (rest_eq : input.drop processed = t) :
    ∀ k ≤ occurrences.length, (Outcome.advance input)^[k] (.running ⟨processed, outss⟩) =
      .running ⟨processed + ((occurrences.take k).flatMap Occurrence.text).length,
        outss ++ (occurrences.take k).flatMap Occurrence.written⟩ := by
  induction converted generalizing processed outss with
  | rest =>
    intro k bound
    obtain rfl : k = 0 := by simpa using bound
    simp
  | next fronts plain delimiter converted ih =>
    intro k bound
    cases k with
    | zero => simp
    | succ k =>
      rw [Function.iterate_succ_apply, Outcome.advance, step_next fronts plain delimiter rest_eq]
      rw [ih _ _ ?_ k (by simpa using bound)]
      · simp [Nat.add_assoc]
      · rw [← List.drop_drop, rest_eq]
        simp

/-- In the output each value has its dot, and none is added again. -/
theorem again (converted : Converted t occurrences rest) : ∃ settled : List Occurrence,
    Converted (occurrences.flatMap Occurrence.written ++ rest) settled rest ∧
      settled.flatMap Occurrence.written = occurrences.flatMap Occurrence.written := by
  induction converted with
  | rest absent => exact ⟨[], .rest absent, rfl⟩
  | @next front value b t occurrences rest fronts plain delimiter converted ih =>
    obtain ⟨settled, later, same⟩ := ih
    obtain ⟨u, written⟩ := converted.written_cons
    rw [written] at later
    refine ⟨.of front (withDot value) :: settled, ?_, ?_⟩
    · -- the key is found at the same place, and the delimiter still follows the value
      simpa [written] using Converted.next fronts (withDot_plain plain) delimiter later
    · simp [same, withDot_withDot]

end Converted

/-- A key that is found has in front of it what it is found behind. -/
theorem front_of_offset (found : offset key t = some n) :
    ∃ front u, t = front ++ (key ++ u) ∧ n = front.length ∧ Fronts front := by
  obtain ⟨⟨u, here⟩, -⟩ := offset_some found
  have split : t = t.take n ++ (key ++ u) := by
    rw [here, List.take_append_drop]
  have bound : n ≤ t.length := by
    by_contra past
    rw [List.drop_eq_nil_of_le (by omega)] at here
    simp [key_ne_nil] at here
  have length : (t.take n).length = n := by simp [bound]
  refine ⟨t.take n, u, split, length.symm, (fronts_iff u).mpr ?_⟩
  rw [← split, length, found]

/-- The first of the delimiters ends the value. -/
theorem value_of_delimiter (found : c ∈ u) (delimiter : IsDelimiter c) :
    ∃ value b t, u = value ++ b :: t ∧ IsDelimiter b ∧ ∀ c ∈ value, ¬IsDelimiter c := by
  obtain ⟨i, place⟩ : ∃ i, u.findIdx? (fun c => decide (IsDelimiter c)) = some i := by
    rw [← Option.isSome_iff_exists, List.findIdx?_isSome]
    exact List.any_eq_true.mpr ⟨c, found, decide_eq_true delimiter⟩
  obtain ⟨inside, here, before⟩ := List.findIdx?_eq_some_iff_getElem.mp place
  refine ⟨u.take i, u[i], u.drop (i + 1), ?_, of_decide_eq_true here, ?_⟩
  · rw [← List.drop_eq_getElem_cons inside, List.take_append_drop]
  · intro c member
    obtain ⟨j, early, rfl⟩ := List.getElem_of_mem member
    have low : j < i := by
      rw [List.length_take] at early
      omega
    rw [List.getElem_take]
    simpa using before j low

/-- From anywhere, the text can be converted or the loop throws. -/
theorem converted_or_throws (input : Text) (processed : Nat) (outss : Text) :
    (∃ occurrences rest, Converted (input.drop processed) occurrences rest) ∨
      ∃ n e, (Outcome.advance input)^[n] (.running ⟨processed, outss⟩) = .threw e := by
  cases found : offset key (input.drop processed) with
  | none => exact .inl ⟨[], _, .rest found⟩
  | some n =>
    obtain ⟨front, u, rest_eq, rfl, fronts⟩ := front_of_offset found
    by_cases ended : ∃ c ∈ u, IsDelimiter c
    · obtain ⟨c, member, delimiter⟩ := ended
      obtain ⟨value, b, t, rfl, delimiter, plain⟩ := value_of_delimiter member delimiter
      have inside := inside_of_key rest_eq
      have left : input.drop (processed + (Occurrence.of front value).text.length) = b :: t := by
        rw [← List.drop_drop, rest_eq]
        simp
      rcases converted_or_throws input (processed + (Occurrence.of front value).text.length)
        (outss ++ (Occurrence.of front value).written) with ⟨occurrences, rest, converted⟩ | ⟨n, e, threw⟩
      · rw [left] at converted
        rw [rest_eq]
        exact .inl ⟨_, rest, .next fronts plain delimiter converted⟩
      · refine .inr ⟨n + 1, e, ?_⟩
        rw [Function.iterate_succ_apply, Outcome.advance, step_next fronts plain delimiter rest_eq]
        exact threw
    · have plain : ∀ c ∈ u, ¬IsDelimiter c := fun c member delimiter => ended ⟨c, member, delimiter⟩
      obtain ⟨e, threw⟩ : ∃ e, step input ⟨processed, outss⟩ = .threw e := step_unended found rest_eq plain
      exact .inr ⟨1, e, threw⟩
termination_by input.length - processed
decreasing_by
  have positive : 0 < key.length := List.length_pos_iff.mpr key_ne_nil
  rw [Occurrence.text_of, List.length_append, List.length_append]
  omega

theorem Converted.returned (converted : Converted input occurrences rest) (outss : Text) :
    convertTimestampToFloat input outss (occurrences.length + 1) = .returned
      (outss ++ (occurrences.flatMap Occurrence.written ++ rest)) := by
  have rounds := converted.rounds 0 outss (List.drop_zero ..) occurrences.length (le_refl _)
  have left : input.drop (occurrences.flatMap Occurrence.text).length = rest := by
    conv_lhs => rw [converted.text_eq]
    exact List.drop_left
  have ending : step input
      ⟨(occurrences.flatMap Occurrence.text).length, outss ++ occurrences.flatMap Occurrence.written⟩ =
      .returned (outss ++ (occurrences.flatMap Occurrence.written ++ rest)) := by
    rw [step_rest (by rw [left]; exact converted.absent), left, List.append_assoc]
  rw [List.take_length, Nat.zero_add] at rounds
  rw [convertTimestampToFloat, Function.iterate_succ_apply', rounds, Outcome.advance, ending]

theorem Converted.addsDots (converted : Converted input occurrences rest) (outss : Text) :
    AddsDots input outss (occurrences.flatMap Occurrence.written ++ rest) occurrences rest where
  input_eq := converted.text_eq
  output_eq := rfl
  delimited := converted.delimited
  rounds := by simpa [convertTimestampToFloat] using converted.rounds 0 outss (List.drop_zero ..)

theorem converts (input outss : Text) : Converts input outss := by
  rcases converted_or_throws input 0 outss with ⟨occurrences, rest, converted⟩ | ⟨n, e, threw⟩
  · rw [List.drop_zero] at converted
    have returned := converted.returned outss
    obtain ⟨settled, later, same⟩ := converted.again
    -- the loop has returned with this output, and no other end is possible
    refine ⟨⟨occurrences.length + 1, fun loop running => ?_⟩, fun n final ended => ?_⟩
    · rw [returned] at running
      cases running
    · obtain rfl := Outcome.returned.inj (iterate_settled ended returned rfl rfl)
      refine ⟨_, occurrences, rest, rfl, converted.addsDots outss, fun other => ⟨settled.length + 1, ?_⟩⟩
      rw [later.returned other, same]
  · refine ⟨⟨n, fun loop running => ?_⟩, fun m final ended => ?_⟩
    · rw [convertTimestampToFloat, threw] at running
      cases running
    · cases iterate_settled ended threw rfl rfl

/-- The second value has its dot already. -/
example : convertTimestampToFloat (lit "\x7b\"timestamp\":12,\"a\":\x7b\"timestamp\":1.5\x7d\x7d") [] 3 =
    .returned (lit "\x7b\"timestamp\":12.,\"a\":\x7b\"timestamp\":1.5\x7d\x7d") := rfl

end Timestamps

end MujinClient
