import Mathlib.Data.List.Basic

/-! Texts cut at a mark, and encodings of characters that keep the mark apart. -/
namespace MarkedTexts

variable {α β : Type}

section

variable [DecidableEq α]

def afterLast (mark : α) (s : List α) : List α := (s.reverse.takeWhile (· ≠ mark)).reverse

/-- Nothing, where the mark is absent. -/
def throughLast (mark : α) (s : List α) : List α := (s.reverse.dropWhile (· ≠ mark)).reverse

/-- Nothing, where the mark is absent. -/
def beforeLast (mark : α) (s : List α) : List α := (s.reverse.dropWhile (· ≠ mark)).tail.reverse

def replace (mark other : α) (s : List α) : List α := s.map fun c => if c = mark then other else c

theorem throughLast_append_afterLast (mark : α) (s : List α) : throughLast mark s ++ afterLast mark s = s := by
  rw [throughLast, afterLast, ← List.reverse_append, List.takeWhile_append_dropWhile, List.reverse_reverse]

end

/-- The mark is one letter of the code, and no letter of the code of anything else. -/
structure KeepsMark (encode : α → List β) (mark : α) (letter : β) : Prop where
  mark_eq : encode mark = [letter]
  not_mem : ∀ c, c ≠ mark → letter ∉ encode c
  nonempty : ∀ c, encode c ≠ []

namespace KeepsMark

variable {encode : α → List β} {mark other : α} {letter otherLetter : β}

/-- Read from the end. -/
theorem backwards (keeps : KeepsMark encode mark letter) :
    KeepsMark (fun c => (encode c).reverse) mark letter where
  mark_eq := by rw [keeps.mark_eq, List.reverse_singleton]
  not_mem := fun c different member => keeps.not_mem c different (List.mem_reverse.mp member)
  nonempty := fun c => mt List.reverse_eq_nil_iff.mp (keeps.nonempty c)

theorem reverse_flatMap (encode : α → List β) (s : List α) :
    (s.flatMap encode).reverse = s.reverse.flatMap fun c => (encode c).reverse :=
  List.reverse_flatMap

theorem reverse_flatMap_reverse (encode : α → List β) (s : List α) :
    (s.flatMap fun c => (encode c).reverse).reverse = s.reverse.flatMap encode := by
  rw [reverse_flatMap]
  simp only [List.reverse_reverse]

/-- A text ends in the mark exactly where its code ends in the letter. -/
theorem getLast?_flatMap (keeps : KeepsMark encode mark letter) (s : List α) :
    (s.flatMap encode).getLast? = some letter ↔ s.getLast? = some mark := by
  rcases List.eq_nil_or_concat s with rfl | ⟨start, c, rfl⟩
  · simp
  · have code : (encode c).getLast? = some ((encode c).getLast (keeps.nonempty c)) :=
      List.getLast?_eq_some_getLast _
    rw [List.concat_eq_append, List.flatMap_append, List.flatMap_singleton, List.getLast?_append, code,
      Option.some_or, List.getLast?_concat]
    constructor
    · intro ends
      by_contra different
      have member := List.getLast_mem (keeps.nonempty c)
      rw [Option.some.inj ends] at member
      exact keeps.not_mem c (fun same => different (congrArg some same)) member
    · intro ends
      have code := keeps.mark_eq
      rw [← Option.some.inj ends] at code
      simp [code]

theorem flatMap_eq_nil (keeps : KeepsMark encode mark letter) {s : List α} : s.flatMap encode = [] ↔ s = [] := by
  rw [List.flatMap_eq_nil_iff]
  constructor
  · intro empty
    cases s with
    | nil => rfl
    | cons c rest => exact absurd (empty c List.mem_cons_self) (keeps.nonempty c)
  · rintro rfl
    simp

/-- Only the mark has a code that starts with the letter. -/
theorem flatMap_eq_cons (keeps : KeepsMark encode mark letter) {s : List α} {rest : List β}
    (starts : s.flatMap encode = letter :: rest) : ∃ after, s = mark :: after ∧ rest = after.flatMap encode := by
  cases s with
  | nil => cases starts
  | cons c after =>
    rw [List.flatMap_cons] at starts
    by_cases found : c = mark
    · rw [found, keeps.mark_eq] at starts
      exact ⟨after, congrArg (· :: after) found, (List.cons.inj starts).2.symm⟩
    · cases code : encode c with
      | nil => exact absurd code (keeps.nonempty c)
      | cons b bs =>
        rw [code] at starts
        have member : letter ∈ encode c := by simp [code, (List.cons.inj starts).1]
        exact absurd member (keeps.not_mem c found)

section

variable [DecidableEq β]

/-- A code that is none of the mark has no letter to stop at. -/
theorem passes (keeps : KeepsMark encode mark letter) {c : α} (different : c ≠ mark) :
    ∀ b ∈ encode c, decide (b ≠ letter) = true := by
  intro b member
  have apart : b ≠ letter := fun same => keeps.not_mem c different (same ▸ member)
  exact decide_eq_true apart

variable [DecidableEq α]

theorem takeWhile_flatMap (keeps : KeepsMark encode mark letter) (s : List α) :
    (s.flatMap encode).takeWhile (· ≠ letter) = (s.takeWhile (· ≠ mark)).flatMap encode := by
  induction s with
  | nil => rfl
  | cons c rest ih =>
    rw [List.flatMap_cons]
    by_cases found : c = mark
    · rw [found, keeps.mark_eq, List.takeWhile_cons_of_neg (by simp), List.singleton_append,
        List.takeWhile_cons_of_neg (by simp), List.flatMap_nil]
    · rw [List.takeWhile_append_of_pos (keeps.passes found), List.takeWhile_cons_of_pos (by simpa using found),
        List.flatMap_cons, ih]

theorem dropWhile_flatMap (keeps : KeepsMark encode mark letter) (s : List α) :
    (s.flatMap encode).dropWhile (· ≠ letter) = (s.dropWhile (· ≠ mark)).flatMap encode := by
  induction s with
  | nil => rfl
  | cons c rest ih =>
    rw [List.flatMap_cons]
    by_cases found : c = mark
    · rw [found, keeps.mark_eq, List.dropWhile_cons_of_neg (by simp), List.singleton_append,
        List.dropWhile_cons_of_neg (by simp), List.flatMap_cons, keeps.mark_eq, List.singleton_append]
    · rw [List.dropWhile_append_of_pos (keeps.passes found), List.dropWhile_cons_of_pos (by simpa using found), ih]

/-- What is left from the mark on starts with the mark, in one letter. -/
theorem tail_dropWhile_flatMap (keeps : KeepsMark encode mark letter) (s : List α) :
    ((s.flatMap encode).dropWhile (· ≠ letter)).tail = (s.dropWhile (· ≠ mark)).tail.flatMap encode := by
  rw [keeps.dropWhile_flatMap]
  cases left : s.dropWhile (· ≠ mark) with
  | nil => rfl
  | cons c rest =>
    have stopped : c = mark := by
      have kept := List.head?_dropWhile_not (fun c => decide (c ≠ mark)) s
      rw [left] at kept
      simpa using kept
    rw [stopped, List.flatMap_cons, keeps.mark_eq, List.singleton_append, List.tail_cons, List.tail_cons]

theorem afterLast_flatMap (keeps : KeepsMark encode mark letter) (s : List α) :
    afterLast letter (s.flatMap encode) = (afterLast mark s).flatMap encode := by
  rw [afterLast, reverse_flatMap, keeps.backwards.takeWhile_flatMap, reverse_flatMap_reverse, afterLast]

theorem throughLast_flatMap (keeps : KeepsMark encode mark letter) (s : List α) :
    throughLast letter (s.flatMap encode) = (throughLast mark s).flatMap encode := by
  rw [throughLast, reverse_flatMap, keeps.backwards.dropWhile_flatMap, reverse_flatMap_reverse, throughLast]

theorem beforeLast_flatMap (keeps : KeepsMark encode mark letter) (s : List α) :
    beforeLast letter (s.flatMap encode) = (beforeLast mark s).flatMap encode := by
  rw [beforeLast, reverse_flatMap, keeps.backwards.tail_dropWhile_flatMap, reverse_flatMap_reverse, beforeLast]

/-- Replacing a mark by a character with a code of one letter. -/
theorem replace_flatMap (keeps : KeepsMark encode mark letter) (single : encode other = [otherLetter])
    (s : List α) :
    replace letter otherLetter (s.flatMap encode) = (replace mark other s).flatMap encode := by
  induction s with
  | nil => rfl
  | cons c rest ih =>
    have first : replace letter otherLetter (encode c) = encode (if c = mark then other else c) := by
      by_cases found : c = mark
      · rw [found, keeps.mark_eq, if_pos rfl, single]
        simp [replace]
      · have untouched : ∀ b ∈ encode c, (if b = letter then otherLetter else b) = b := by
          intro b member
          rw [if_neg]
          exact fun same => keeps.not_mem c found (same ▸ member)
        rw [if_neg found, replace, List.map_congr_left untouched, List.map_id']
    rw [List.flatMap_cons, replace, List.map_append]
    exact congrArg₂ (· ++ ·) first ih

end

end KeepsMark

end MarkedTexts
