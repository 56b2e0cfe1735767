import MujinClient.SplicedStrings

/-! The strings that a document has as values, in the order of its text, and where in the text each of
them starts. A string that is spliced into a text without being escaped gives rise to no string that is
as long as itself, unless it is plain. -/
namespace MujinClient

open Transition

namespace Json

mutual
/-- The strings among the values, from left to right. -/
def leaves : Json → List Text
  | .string s => [s]
  | .array elements => elementLeaves elements
  | .object members => memberLeaves members
  | _ => []

def elementLeaves : List Json → List Text
  | [] => []
  | v :: vs => v.leaves ++ elementLeaves vs

def memberLeaves : List (Text × Json) → List Text
  | [] => []
  | (_, v) :: members => v.leaves ++ memberLeaves members
end

@[simp] theorem elementLeaves_append (vs ws : List Json) :
    elementLeaves (vs ++ ws) = elementLeaves vs ++ elementLeaves ws := by
  induction vs with
  | nil => rfl
  | cons v vs ih => rw [List.cons_append, elementLeaves, elementLeaves, ih, List.append_assoc]

@[simp] theorem memberLeaves_append (ms ns : Members) :
    memberLeaves (ms ++ ns) = memberLeaves ms ++ memberLeaves ns := by
  induction ms with
  | nil => rfl
  | cons m ms ih => rw [List.cons_append, memberLeaves, memberLeaves, ih, List.append_assoc]

theorem mem_memberLeaves {members : Members} (member : (name, .string s) ∈ members) :
    s ∈ memberLeaves members := by
  induction members with
  | nil => cases member
  | cons m members ih =>
    rw [memberLeaves, List.mem_append]
    rcases List.mem_cons.mp member with rfl | later
    · left
      simp [leaves]
    · exact .inr (ih later)

end Json

open Json

variable {token : Text → Option Json}

def Frame.leaves : Frame → List Text
  | .element before => elementLeaves before
  | .member before _ => memberLeaves before

/-- The outermost values come first. -/
def stackLeaves : List Frame → List Text
  | [] => []
  | frame :: rest => stackLeaves rest ++ frame.leaves

def Mode.leaves : Mode → List Text
  | .done v => v.leaves
  | .name before _ | .colon before _ | .string (some before) _ _ => memberLeaves before
  | _ => []

def positionLeaves (p : Position) : List Text := stackLeaves p.2 ++ p.1.leaves

/-- What is read so far comes first in the document. -/
theorem leaves_of_fill (fills : Fill stack v d) : ∃ later, d.leaves = stackLeaves stack ++ v.leaves ++ later := by
  induction stack generalizing v with
  | nil =>
    obtain rfl : d = v := fills
    exact ⟨[], by simp [stackLeaves]⟩
  | cons frame rest ih =>
    cases frame with
    | element before =>
      obtain ⟨more, fills⟩ := fills
      obtain ⟨later, all⟩ := ih fills
      exact ⟨elementLeaves more ++ later, by simp [all, stackLeaves, Frame.leaves, Json.leaves, elementLeaves]⟩
    | member before name =>
      obtain ⟨more, fills⟩ := fills
      obtain ⟨later, all⟩ := ih fills
      exact ⟨memberLeaves more ++ later, by simp [all, stackLeaves, Frame.leaves, Json.leaves, memberLeaves]⟩

theorem leaves_afterValue (taken : afterValue v stack b = some q) :
    positionLeaves q = stackLeaves stack ++ v.leaves := by
  unfold afterValue at taken
  split at taken
  · obtain rfl := Option.some.inj taken
    rfl
  · cases stack with
    | nil => cases taken
    | cons frame rest =>
      cases frame with
      | element before =>
        dsimp only at taken
        split_ifs at taken <;> obtain rfl := Option.some.inj taken <;>
          simp [positionLeaves, stackLeaves, Frame.leaves, Mode.leaves, Json.leaves, elementLeaves]
      | member before name =>
        dsimp only at taken
        split_ifs at taken <;> obtain rfl := Option.some.inj taken <;>
          simp [positionLeaves, stackLeaves, Frame.leaves, Mode.leaves, Json.leaves, memberLeaves]

theorem leaves_beforeValue (taken : beforeValue closable stack b = some q) :
    positionLeaves q = stackLeaves stack := by
  unfold beforeValue at taken
  repeat' split at taken
  all_goals
    first
    | cases taken; done
    | obtain rfl := Option.some.inj taken
      simp [positionLeaves, stackLeaves, Frame.leaves, Mode.leaves, Json.leaves, memberLeaves, elementLeaves]

/-- A byte adds a string only where it closes one. -/
theorem leaves_feed (bare : ∀ t v, token t = some v → v.leaves = []) (taken : feed token p b = some q) :
    positionLeaves q = positionLeaves p ∨
      ∃ seen stack, p = (.string none seen [], stack) ∧ b = byte '"' ∧
        positionLeaves q = positionLeaves p ++ [seen] := by
  obtain ⟨mode, stack⟩ := p
  cases mode with
  | start closable =>
    left
    rw [leaves_beforeValue taken]
    simp [positionLeaves, Mode.leaves]
  | token seen =>
    left
    cases more : isTokenByte b with
    | true =>
      rw [feed_token_byte more, Option.some.injEq] at taken
      exact taken ▸ rfl
    | false =>
      rw [feed_token_end more] at taken
      obtain ⟨v, known, taken⟩ := Option.bind_eq_some_iff.mp taken
      rw [leaves_afterValue taken, bare _ _ known]
      rfl
  | string names seen pending =>
    by_cases ends : pending = [] ∧ b = byte '"'
    · obtain ⟨rfl, rfl⟩ := ends
      rw [feed_quote, Option.some.injEq] at taken
      subst taken
      cases names with
      | none => exact .inr ⟨seen, stack, rfl, rfl, by simp [positionLeaves, closeString, Mode.leaves, Json.leaves]⟩
      | some before => exact .inl rfl
    · left
      rw [feed_inside ends] at taken
      obtain ⟨parts, -, rfl⟩ := Option.map_eq_some_iff.mp taken
      cases names <;> rfl
  | name before closable =>
    left
    simp only [feed_name, beforeName] at taken
    split_ifs at taken <;> obtain rfl := Option.some.inj taken <;> rfl
  | colon before name =>
    left
    simp only [feed] at taken
    split_ifs at taken <;> obtain rfl := Option.some.inj taken <;>
      simp [positionLeaves, stackLeaves, Frame.leaves, Mode.leaves]
  | done v =>
    left
    exact leaves_afterValue taken

/-- No letter or digit follows a closing quote. -/
def EndsToken (rest : Text) : Prop := ∀ b ∈ rest.head?, isTokenByte b = false

theorem not_token_space (space : isSpace b = true) : isTokenByte b = false := by
  simp only [isSpace, Bool.or_eq_true, decide_eq_true_eq] at space
  rcases space with ((rfl | rfl) | rfl) | rfl <;> decide

theorem ends_afterValue (taken : afterValue v stack b = some q) : isTokenByte b = false := by
  unfold afterValue at taken
  split at taken
  · exact not_token_space ‹_›
  · cases stack with
    | nil => cases taken
    | cons frame rest =>
      cases frame <;> dsimp only at taken <;> split_ifs at taken <;> subst b <;> decide

/-- A string value starts behind a quote of the text. -/
def Starts (t s : Text) : Prop :=
  ∃ before behind rest, t = before ++ byte '"' :: behind ∧ closes [] [] behind = some (s, rest) ∧
    EndsToken rest

/-- The value that is open where the text starts. -/
def Open (p : Position) (t s : Text) : Prop :=
  ∃ seen pending stack rest, p = (.string none seen pending, stack) ∧
    closes seen pending t = some (s, rest) ∧ EndsToken rest

theorem afterValue_string {before : Option Members}
    (taken : afterValue v stack b = some (.string before seen pending, rest)) : False := by
  unfold afterValue at taken
  repeat' split at taken
  all_goals simp at taken

theorem open_feed (taken : feed token p b = some q) (opened : Open q t s) :
    Starts (b :: t) s ∨ Open p (b :: t) s := by
  obtain ⟨seen, pending, stack, rest, rfl, closed, ends⟩ := opened
  obtain ⟨mode, around⟩ := p
  cases mode with
  | start closable =>
    rw [feed_start] at taken
    unfold beforeValue at taken
    repeat' split at taken
    all_goals simp at taken
    obtain ⟨⟨rfl, rfl⟩, rfl⟩ := taken
    subst b
    exact .inl ⟨[], t, rest, rfl, closed, ends⟩
  | token word =>
    cases more : isTokenByte b with
    | true =>
      rw [feed_token_byte more] at taken
      cases taken
    | false =>
      rw [feed_token_end more] at taken
      obtain ⟨v, -, taken⟩ := Option.bind_eq_some_iff.mp taken
      exact (afterValue_string taken).elim
  | string names before escaped =>
    by_cases quote : escaped = [] ∧ b = byte '"'
    · obtain ⟨rfl, rfl⟩ := quote
      rw [feed_quote] at taken
      cases names <;> cases taken
    · rw [feed_inside quote] at taken
      obtain ⟨parts, known, same⟩ := Option.map_eq_some_iff.mp taken
      cases same
      refine .inr ⟨before, escaped, _, rest, rfl, ?_, ends⟩
      rw [closes, if_neg quote, known]
      exact closed
  | name before closable =>
    simp only [feed_name, beforeName] at taken
    split_ifs at taken <;> cases taken
  | colon before name =>
    simp only [feed] at taken
    split_ifs at taken <;> cases taken
  | done v => exact (afterValue_string taken).elim

theorem Starts.cons (starts : Starts t s) (b : Byte) : Starts (b :: t) s := by
  obtain ⟨before, behind, rest, rfl, closed, ends⟩ := starts
  exact ⟨b :: before, behind, rest, rfl, closed, ends⟩

theorem Reads.step {t : Text} (reads : Reads token p (b :: t) d) :
    ∃ q, feed token p b = some q ∧ Reads token q t d := by
  rw [Reads, run_cons] at reads
  cases taken : feed token p b with
  | none =>
    rw [taken] at reads
    cases reads
  | some q =>
    rw [taken] at reads
    exact ⟨q, rfl, reads⟩

theorem Reads.ends {t : Text} (reads : Reads token (.done v, stack) t d) : EndsToken t := by
  intro b first
  cases t with
  | nil => cases first
  | cons c t =>
    obtain rfl : c = b := Option.some.inj first
    obtain ⟨q, taken, -⟩ := reads.step
    exact ends_afterValue taken

/-- The strings that a reading adds start in the rest of the text. -/
theorem leaves_of_reads (bare : ∀ t v, token t = some v → v.leaves = []) {t : Text} (reads : Reads token p t d) :
    ∃ new, d.leaves = positionLeaves p ++ new ∧ ∀ s ∈ new, Starts t s ∨ Open p t s := by
  induction t generalizing p with
  | nil =>
    refine ⟨[], ?_, by simp⟩
    obtain ⟨mode, stack⟩ := p
    cases mode with
    | done v =>
      cases stack with
      | nil =>
        obtain rfl := Option.some.inj reads
        simp [positionLeaves, stackLeaves, Mode.leaves]
      | cons => cases reads
    | token seen =>
      cases stack with
      | nil =>
        have known : token seen = some d := reads
        simp [positionLeaves, stackLeaves, Mode.leaves, bare _ _ known]
      | cons => cases reads
    | _ => cases stack <;> cases reads
  | cons b t ih =>
    obtain ⟨q, taken, later⟩ := reads.step
    obtain ⟨new, all, origins⟩ := ih later
    have pass : ∀ s ∈ new, Starts (b :: t) s ∨ Open p (b :: t) s := fun s inside =>
      (origins s inside).elim (fun starts => .inl (starts.cons b)) (open_feed taken)
    rcases leaves_feed bare taken with same | ⟨seen, stack, rfl, rfl, added⟩
    · exact ⟨new, by rw [all, same], pass⟩
    · refine ⟨seen :: new, by simp [all, added], ?_⟩
      rw [feed_quote] at taken
      obtain rfl := Option.some.inj taken
      have closed : closes seen [] (byte '"' :: t) = some (seen, t) := by simp [closes]
      exact List.forall_mem_cons.mpr ⟨.inr ⟨seen, [], stack, t, rfl, closed, later.ends⟩, pass⟩

/-- The strings of the next members of an object start in the rest of the text. -/
theorem Reads.members (bare : ∀ t v, token t = some v → v.leaves = []) {t : Text}
    (reads : Reads token (.start false, .member before name :: stack) t d)
    (fills : Fill stack (.object (before ++ (name, w) :: more)) d) :
    ∀ n s, (n, .string s) ∈ (name, w) :: more → Starts t s := by
  obtain ⟨new, all, origins⟩ := leaves_of_reads bare reads
  obtain ⟨later, parts⟩ := leaves_of_fill fills
  have added : new = memberLeaves ((name, w) :: more) ++ later := by
    refine List.append_cancel_left (all.symm.trans (parts.trans ?_))
    simp [positionLeaves, stackLeaves, Frame.leaves, Mode.leaves, Json.leaves]
  intro n s member
  have inside : s ∈ new := by
    rw [added]
    exact List.mem_append_left _ (mem_memberLeaves member)
  rcases origins s inside with starts | ⟨_, _, _, _, same, -⟩
  · exact starts
  · cases same

/-- A string that is not closed by the quote in front of this text is closed by none that a value ends
with. -/
def Separates (tail : Text) : Prop := ∀ front s rest, closes front [] tail = some (s, rest) → ¬EndsToken rest

theorem separates_name {gap : Text} (plain : Plain gap) (letter : isTokenByte c = true) (rest : Text) :
    Separates (gap ++ byte '"' :: c :: rest) := by
  intro front s more closed ends
  rw [closes_plain plain, closes, if_pos ⟨rfl, rfl⟩] at closed
  obtain ⟨-, rfl⟩ := Prod.mk.inj (Option.some.inj closed)
  exact absurd letter (by simp [ends c rfl])

/-- Read from a quote on, no string is longer than what was spliced. -/
theorem length_of_closes (separates : Separates tail)
    (closed : closes [] [] (u ++ byte '"' :: tail) = some (s, rest))
    (ends : EndsToken rest) : s.length ≤ u.length := by
  have quoting : Quoting fun b => [b] := fun b => .inl rfl
  rw [← List.flatMap_singleton' u] at closed
  rcases closes_quoting quoting (.inl rfl) closed with short | ⟨-, front, late⟩
  · simpa using short
  · exact absurd ends (separates _ _ _ late)

theorem shorter_of_closes (separates : Separates tail) (unplain : ¬Plain u)
    (closed : closes seen [] (u ++ byte '"' :: tail) = some (s, rest)) (ends : EndsToken rest) :
    s.length < seen.length + u.length := by
  have quoting : Quoting fun b => [b] := fun b => .inl rfl
  induction u generalizing seen with
  | nil => exact absurd plain_nil unplain
  | cons b u ih =>
    rw [List.cons_append, closes] at closed
    split at closed
    · obtain ⟨rfl, -⟩ := Prod.mk.inj (Option.some.inj closed)
      simp
    · rename_i inside
      obtain ⟨⟨next, left⟩, taken, closed⟩ := Option.bind_eq_some_iff.mp closed
      have quote : b ≠ byte '"' := fun same => inside ⟨rfl, same⟩
      simp only [stringByte, ↓reduceIte] at taken
      split_ifs at taken with backslash control
      · -- an escape sequence takes at least a byte more than it gives
        obtain ⟨rfl, rfl⟩ := Prod.mk.inj (Option.some.inj taken)
        subst backslash
        rw [← List.flatMap_singleton' u] at closed
        rcases closes_quoting quoting (.inr ⟨rfl, rfl⟩) closed with short | ⟨-, front, late⟩
        · simp only [List.length_cons, List.length_nil] at short ⊢
          omega
        · exact absurd ends (separates _ _ _ late)
      · obtain ⟨rfl, rfl⟩ := Prod.mk.inj (Option.some.inj taken)
        have itself : isPlain b = true := by
          simp only [isPlain, Bool.and_eq_true, decide_eq_true_eq]
          exact ⟨⟨not_lt.mp control, quote⟩, backslash⟩
        have shorter := ih (fun plain => unplain (plain_cons.mpr ⟨itself, plain⟩)) closed
        simp only [List.length_append, List.length_cons, List.length_nil] at shorter ⊢
        omega

/-- Plain, or shorter than the string that was spliced without being plain. -/
def Short (u s : Text) : Prop := Plain s ∨ ¬Plain u ∧ s.length < u.length

theorem Starts.cases {t u : Text} (starts : Starts (t ++ u) s) :
    (∃ before behind rest, t = before ++ byte '"' :: behind ∧ closes [] [] (behind ++ u) = some (s, rest) ∧
      EndsToken rest) ∨
      Starts u s := by
  obtain ⟨before, behind, rest, split, closed, ends⟩ := starts
  rcases List.append_eq_append_iff.mp split with ⟨middle, rfl, rfl⟩ | ⟨middle, rfl, rest'⟩
  · exact .inr ⟨middle, behind, rest, rfl, closed, ends⟩
  · cases middle with
    | nil => exact .inr ⟨[], behind, rest, rest'.symm, closed, ends⟩
    | cons b middle =>
      obtain ⟨rfl, rfl⟩ := List.cons.inj rest'
      exact .inl ⟨before, middle, rest, rfl, closed, ends⟩

/-- The strings that start in a spliced string, or with it. -/
theorem starts_quoted (separates : Separates tail) (starts : Starts (byte '"' :: (u ++ byte '"' :: tail)) s) :
    Short u s ∨ Starts (byte '"' :: tail) s := by
  rcases Starts.cases (t := [byte '"']) starts with ⟨before, behind, rest, split, closed, ends⟩ | inside
  · obtain rfl : behind = [] := by
      cases before with
      | nil => exact (List.cons.inj split).2.symm
      | cons => simp at split
    left
    have closed : closes [] [] (u ++ byte '"' :: tail) = some (s, rest) := closed
    by_cases plain : Plain u
    · rw [closes_plain plain, closes, if_pos ⟨rfl, rfl⟩] at closed
      obtain ⟨rfl, -⟩ := Prod.mk.inj (Option.some.inj closed)
      exact .inl plain
    · have shorter := shorter_of_closes separates plain closed ends
      exact .inr ⟨plain, by simpa using shorter⟩
  · rcases inside.cases with ⟨before, behind, rest, rfl, closed, ends⟩ | later
    · left
      have short := length_of_closes separates closed ends
      refine .inr ⟨fun plain => ?_, by simp only [List.length_append, List.length_cons]; omega⟩
      exact absurd (plain (byte '"') (by simp)) (by decide)
    · exact .inr later

/-- The text of a template has quotes, but no escapes. -/
def Template (t : Text) : Prop := ∀ b ∈ t, isPlain b = true ∨ b = byte '"'

theorem template_append : Template (t ++ u) ↔ Template t ∧ Template u := List.forall_mem_append

theorem template_cons : Template (b :: t) ↔ (isPlain b = true ∨ b = byte '"') ∧ Template t := List.forall_mem_cons

theorem Plain.template (plain : Plain t) : Template t := fun b inside => .inl (plain b inside)

theorem template_quoted (plain : Plain s) : Template (quoted s) :=
  template_append.mpr
    ⟨template_cons.mpr ⟨.inr rfl, plain.template⟩, template_cons.mpr ⟨.inr rfl, by simp [Template]⟩⟩

theorem closes_template (template : Template t) (plain : Plain seen)
    (closed : closes seen [] (t ++ u) = some (s, rest)) :
    Plain s ∨ ∃ before, Plain before ∧ closes before [] u = some (s, rest) := by
  induction t generalizing seen with
  | nil => exact .inr ⟨seen, plain, closed⟩
  | cons b t ih =>
    rcases template b List.mem_cons_self with printed | rfl
    · have whole : closes seen [] ([b] ++ (t ++ u)) = closes (seen ++ [b]) [] (t ++ u) :=
        closes_plain (by simpa using printed) (t ++ u)
      exact ih (fun c later => template c (List.mem_cons_of_mem _ later))
        (plain_append.mpr ⟨plain, by simpa using printed⟩)
        (whole.symm.trans closed)
    · rw [List.cons_append, closes, if_pos ⟨rfl, rfl⟩] at closed
      obtain ⟨rfl, -⟩ := Prod.mk.inj (Option.some.inj closed)
      exact .inl plain

/-- The strings that start in the text of a template are plain. -/
theorem starts_template (template : Template t) (starts : Starts (t ++ byte '"' :: tail) s) :
    Plain s ∨ Starts (byte '"' :: tail) s := by
  rcases starts.cases with ⟨before, behind, rest, rfl, closed, ends⟩ | later
  · left
    have inside : Template behind := fun b member => template b (by simp [member])
    rcases closes_template inside plain_nil closed with plain | ⟨seen, plain, closed⟩
    · exact plain
    · rw [closes, if_pos ⟨rfl, rfl⟩] at closed
      obtain ⟨rfl, -⟩ := Prod.mk.inj (Option.some.inj closed)
      exact plain
  · exact .inr later

theorem starts_last (template : Template t) (starts : Starts t s) : Plain s := by
  obtain ⟨before, behind, rest, rfl, closed, -⟩ := starts
  have inside : Template behind := fun b member => template b (by simp [member])
  rw [← List.append_nil behind] at closed
  rcases closes_template inside plain_nil closed with plain | ⟨seen, -, none⟩
  · exact plain
  · cases none

end MujinClient
