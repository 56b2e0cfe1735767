import MujinClient.StringLeaves

/-! Texts in which quotes and line ends are escaped, and nothing else. Between quotes such a text is read
as the text it was made from exactly if that has no backslash and no other control character. -/
namespace MujinClient

open Transition

variable {token : Text → Option Json}

def escapeLine (b : Byte) : Text :=
  if b = byte '"' then [byte '\\', byte '"'] else if b = 10 then [byte '\\', byte 'n'] else [b]

theorem escapeLine_cases (b : Byte) : b = byte '"' ∧ escapeLine b = [byte '\\', byte '"'] ∨
    b = 10 ∧ escapeLine b = [byte '\\', byte 'n'] ∨ b ≠ byte '"' ∧ b ≠ 10 ∧ escapeLine b = [b] := by
  unfold escapeLine
  by_cases quote : b = byte '"'
  · exact .inl ⟨quote, if_pos quote⟩
  · by_cases line : b = 10
    · exact .inr (.inl ⟨line, by rw [if_neg quote, if_pos line]⟩)
    · exact .inr (.inr ⟨quote, line, by rw [if_neg quote, if_neg line]⟩)

/-- Each byte is plain, or is escaped. -/
def Lines (q : Text) : Prop := ∀ b ∈ q, b = byte '"' ∨ b = 10 ∨ isPlain b = true

instance : DecidablePred Lines :=
  fun q => inferInstanceAs (Decidable (∀ b ∈ q, b = byte '"' ∨ b = 10 ∨ isPlain b = true))

theorem lines_cons : Lines (b :: q) ↔ (b = byte '"' ∨ b = 10 ∨ isPlain b = true) ∧ Lines q := List.forall_mem_cons

theorem unescapes_escapeLine (lines : Lines q) : Unescapes token (q.flatMap escapeLine) q := by
  refine unescapes_flatMap fun b inside => ?_
  rcases lines b inside with rfl | rfl | plain
  · exact unescapes_of_unescape rfl
  · exact unescapes_of_unescape rfl
  · rcases escapeLine_cases b with ⟨rfl, -⟩ | ⟨rfl, -⟩ | ⟨-, -, itself⟩
    · exact absurd plain (by decide)
    · exact absurd plain (by decide)
    · rw [itself]
      exact unescapes_plain plain

/-- The bytes that the escape sequence can still give, beyond those that come after it. -/
def slack (pending : Text) : Nat := max (pending.length - 1) (min pending.length 1)

theorem slack_nil : slack [] = 0 := rfl

/-- Where an escape sequence ends, it has given what it could. -/
theorem length_of_ended (opened : pending ≠ []) (taken : stringByte seen pending b = some (next, [])) :
    next.length ≤ seen.length + slack pending := by
  rw [stringByte, if_neg opened] at taken
  cases known : escape (pending ++ [b]) with
  | more =>
    rw [known] at taken
    simp at taken
  | bad =>
    rw [known] at taken
    cases taken
  | bytes t =>
    rw [known] at taken
    obtain ⟨rfl, -⟩ := Prod.mk.inj (Option.some.inj taken)
    have bound : t.length ≤ slack pending := by
      cases pending with
      | nil => exact absurd rfl opened
      | cons c later =>
        cases later with
        | nil => simpa [slack] using length_escape (List.cons_ne_nil c []) known
        | cons d digits =>
          rw [List.cons_append, List.cons_append, escape_unicode] at known
          have bounds := length_unicodeEscape known
          simp only [slack, List.length_append, List.length_cons, List.length_nil] at bounds ⊢
          omega
    rw [List.length_append]
    omega

theorem length_of_taken (taken : stringByte seen pending b = some (next, left)) :
    next.length + slack left ≤ seen.length + slack pending + 1 := by
  have measure := stringByte_measure taken
  have length := stringByte_length taken
  rcases measure.2 with rfl | rfl <;>
      simp only [slack, List.length_append, List.length_cons, List.length_nil] at measure length ⊢ <;> omega

theorem foreign_n : Foreign (byte 'n') := ⟨by decide, by decide, by decide⟩

/-- Where a string ends that an escaped text and a quote are read for: behind the quote, or with it or
earlier and then within the bound. -/
def ClosedBy (tail : Text) (bound : Nat) (x rest : Text) : Prop :=
  (∃ front, closes front [] tail = some (x, rest)) ∨
    x.length ≤ bound ∧ (rest = tail ∨ ∃ later : Text, rest = later.flatMap escapeLine ++ byte '"' :: tail)

theorem ClosedBy.mono {m n : Nat} (closed : ClosedBy tail m x rest) (more : m ≤ n) : ClosedBy tail n x rest :=
  closed.imp_right (And.imp_left fun bound => bound.trans more)

theorem closes_escaped {q : Text} (open_ : Pending pending)
    (closed : closes seen pending (q.flatMap escapeLine ++ byte '"' :: tail) = some (x, rest)) :
    ClosedBy tail (seen.length + q.length + slack pending) x rest := by
  induction q generalizing seen pending with
  | nil =>
    rw [List.flatMap_nil, List.nil_append] at closed
    rcases closes_quote open_ closed with ⟨-, rfl, rfl⟩ | ⟨-, later⟩
    · exact .inr ⟨by omega, .inl rfl⟩
    · exact .inl ⟨_, later⟩
  | cons c q ih =>
    have further : ∀ {next left}, Pending left → next.length + slack left ≤ seen.length + slack pending + 1 →
        closes next left (q.flatMap escapeLine ++ byte '"' :: tail) = some (x, rest) →
        ClosedBy tail (seen.length + (c :: q).length + slack pending) x rest := by
      intro next left pendingLeft step closed
      refine (ih pendingLeft closed).mono ?_
      rw [List.length_cons]
      omega
    have escaped : ∀ e : Byte, Foreign e → (e = byte '"' ∨ isPlain e = true) → simpleEscape e = .bytes [c] →
        closes seen pending (byte '\\' :: e :: (q.flatMap escapeLine ++ byte '"' :: tail)) = some (x, rest) →
        ClosedBy tail (seen.length + (c :: q).length + slack pending) x rest := by
      intro e foreign printed simple closed
      rcases closes_escape foreign simple open_ closed with ⟨next, some, taken, closed⟩ | ⟨rfl, later⟩
      · have ended := length_of_ended some taken
        rcases printed with rfl | plain
        · -- the backslash before has left the quote as it is
          rcases closes_quote (.inl rfl) closed with ⟨-, rfl, rfl⟩ | ⟨impossible, -⟩
          · refine .inr ⟨?_, .inr ⟨q, rfl⟩⟩
            rw [List.length_cons]
            omega
          · cases impossible
        · rw [← List.singleton_append, closes_plain (by simpa using plain)] at closed
          refine further (.inl rfl) ?_ closed
          rw [List.length_append, List.length_singleton, slack_nil]
          omega
      · refine further (.inl rfl) ?_ later
        rw [List.length_append, List.length_singleton, slack_nil]
    rw [List.flatMap_cons, List.append_assoc] at closed
    rcases escapeLine_cases c with ⟨rfl, text⟩ | ⟨rfl, text⟩ | ⟨quote, -, text⟩ <;> rw [text] at closed
    · exact escaped _ foreign_quote (.inl rfl) rfl closed
    · exact escaped _ foreign_n (.inr (by decide)) rfl closed
    · rw [List.singleton_append, closes, if_neg fun both => quote both.2] at closed
      obtain ⟨⟨next, left⟩, taken, closed⟩ := Option.bind_eq_some_iff.mp closed
      exact further (open_.stringByte taken) (length_of_taken taken) closed

theorem prefix_of_closes {t : Text} (closed : closes seen pending t = some (x, rest)) : seen <+: x := by
  induction t generalizing seen pending with
  | nil => cases closed
  | cons b t ih =>
    rw [closes] at closed
    split at closed
    · obtain ⟨rfl, -⟩ := Prod.mk.inj (Option.some.inj closed)
      exact List.prefix_refl _
    · obtain ⟨⟨next, left⟩, taken, closed⟩ := Option.bind_eq_some_iff.mp closed
      refine List.IsPrefix.trans ?_ (ih closed)
      unfold stringByte at taken
      repeat' split at taken
      all_goals simp at taken
      all_goals obtain ⟨rfl, -⟩ := taken
      all_goals simp

/-- Behind a backslash an escaped text is not read as what it was made from. -/
theorem backslash_lost {q : Text} (separates : Separates tail) (ends : EndsToken rest) :
    closes seen [byte '\\'] (q.flatMap escapeLine ++ byte '"' :: tail) ≠ some (seen ++ byte '\\' :: q, rest) := by
  intro closed
  cases q with
  | nil =>
    have taken : stringByte seen [byte '\\'] (byte '"') = some (seen ++ [byte '"'], []) := rfl
    rw [List.flatMap_nil, List.nil_append, closes, if_neg (by simp), taken] at closed
    exact separates _ _ _ closed ends
  | cons c q =>
    have backslash : stringByte seen [byte '\\'] (byte '\\') = some (seen ++ [byte '\\'], []) := rfl
    rw [List.flatMap_cons, List.append_assoc] at closed
    rcases escapeLine_cases c with ⟨rfl, text⟩ | ⟨rfl, text⟩ | ⟨quote, -, text⟩ <;> rw [text] at closed
    · rw [List.cons_append, closes, if_neg (by simp), backslash, Option.bind_some] at closed
      dsimp only at closed
      rw [List.cons_append, closes, if_pos ⟨rfl, rfl⟩] at closed
      have lengths := congrArg List.length (Prod.mk.inj (Option.some.inj closed)).1
      simp at lengths
    · have letter : stringByte (seen ++ [byte '\\']) [] (byte 'n') =
          some (seen ++ [byte '\\'] ++ [byte 'n'], []) := rfl
      rw [List.cons_append, closes, if_neg (by simp), backslash, Option.bind_some] at closed
      dsimp only at closed
      rw [List.cons_append, closes, if_neg (by decide), letter, Option.bind_some] at closed
      have begins := prefix_of_closes closed
      rw [List.append_assoc, List.prefix_append_right_inj] at begins
      simp [byte] at begins
    · rw [List.singleton_append, closes, if_neg (by simp)] at closed
      obtain ⟨⟨next, left⟩, taken, closed⟩ := Option.bind_eq_some_iff.mp closed
      have shape := (stringByte_measure taken).2
      have start : Pending [byte '\\'] := .inr ⟨rfl, rfl⟩
      rcases closes_escaped (start.stringByte taken) closed with ⟨front, late⟩ | ⟨bound, -⟩
      · exact separates _ _ _ late ends
      · simp only [List.length_append, List.length_cons] at bound
        rcases shape with rfl | rfl
        · have ended := length_of_ended (by simp) taken
          simp only [slack, List.length_cons, List.length_nil] at ended bound
          omega
        · have length := stringByte_length taken
          simp only [slack, List.length_append, List.length_cons, List.length_nil] at length bound
          omega

theorem lines_of_closes_from {q : Text} (separates : Separates tail) (ends : EndsToken rest)
    (closed : closes seen [] (q.flatMap escapeLine ++ byte '"' :: tail) = some (seen ++ q, rest)) : Lines q := by
  induction q generalizing seen with
  | nil => simp [Lines]
  | cons c q ih =>
    have grow : seen ++ c :: q = (seen ++ [c]) ++ q := by simp
    have backslash : stringByte seen [] (byte '\\') = some (seen, [byte '\\']) := rfl
    have escaped : ∀ e : Byte, stringByte seen [byte '\\'] e = some (seen ++ [c], []) → (c = byte '"' ∨ c = 10) →
        closes seen [] (byte '\\' :: e :: (q.flatMap escapeLine ++ byte '"' :: tail)) =
          some (seen ++ c :: q, rest) → Lines (c :: q) := by
      intro e taken known closed
      rw [closes, if_neg (by decide), backslash, Option.bind_some] at closed
      dsimp only at closed
      rw [closes, if_neg (by simp), taken, Option.bind_some, grow] at closed
      exact lines_cons.mpr ⟨by tauto, ih closed⟩
    rw [List.flatMap_cons, List.append_assoc] at closed
    rcases escapeLine_cases c with ⟨rfl, text⟩ | ⟨rfl, text⟩ | ⟨quote, -, text⟩ <;> rw [text] at closed
    · exact escaped _ rfl (.inl rfl) closed
    · exact escaped _ rfl (.inr rfl) closed
    · rw [List.singleton_append, closes, if_neg fun both => quote both.2] at closed
      obtain ⟨⟨next, left⟩, taken, closed⟩ := Option.bind_eq_some_iff.mp closed
      simp only [stringByte, ↓reduceIte] at taken
      split_ifs at taken with slash control
      · obtain ⟨rfl, rfl⟩ := Prod.mk.inj (Option.some.inj taken)
        subst slash
        exact absurd closed (backslash_lost separates ends)
      · obtain ⟨rfl, rfl⟩ := Prod.mk.inj (Option.some.inj taken)
        have plain : isPlain c = true := by
          simp only [isPlain, Bool.and_eq_true, decide_eq_true_eq]
          exact ⟨⟨not_lt.mp control, quote⟩, slash⟩
        dsimp only at closed
        rw [grow] at closed
        exact lines_cons.mpr ⟨.inr (.inr plain), ih closed⟩

theorem lines_of_closes {q : Text} (separates : Separates tail) (ends : EndsToken rest)
    (closed : closes [] [] (q.flatMap escapeLine ++ byte '"' :: tail) = some (q, rest)) : Lines q :=
  lines_of_closes_from separates ends closed

def Outside (p : Position) : Prop := ∀ names seen pending, p.1 ≠ .string names seen pending

theorem outside_afterValue (taken : afterValue v stack b = some q) : Outside q := by
  obtain ⟨mode, rest⟩ := q
  rintro names seen pending rfl
  exact afterValue_string taken

theorem outside_beforeValue (apart : b ≠ byte '"') (taken : beforeValue closable stack b = some q) :
    Outside q := by
  unfold beforeValue at taken
  repeat' split at taken
  all_goals simp_all
  all_goals subst q; simp [Outside]

/-- Outside of strings no backslash is read, and only a quote opens a string. -/
theorem outside_feed (outside : Outside p) (apart : b ≠ byte '"') (taken : feed token p b = some q) :
    Outside q := by
  obtain ⟨mode, stack⟩ := p
  cases mode with
  | start closable => exact outside_beforeValue apart taken
  | token seen =>
    cases more : isTokenByte b with
    | true =>
      rw [feed_token_byte more, Option.some.injEq] at taken
      subst taken
      simp [Outside]
    | false =>
      rw [feed_token_end more] at taken
      obtain ⟨v, -, taken⟩ := Option.bind_eq_some_iff.mp taken
      exact outside_afterValue taken
  | string names seen pending => exact absurd rfl (outside names seen pending)
  | name before closable =>
    simp only [feed_name, beforeName, if_neg apart] at taken
    split_ifs at taken <;> obtain rfl := Option.some.inj taken <;> simp [Outside]
  | colon before name =>
    simp only [feed] at taken
    split_ifs at taken <;> obtain rfl := Option.some.inj taken <;> simp [Outside]
  | done v => exact outside_afterValue taken

theorem afterValue_backslash (v : Json) (stack : List Frame) : afterValue v stack (byte '\\') = none := by
  cases stack with
  | nil => rfl
  | cons frame rest => cases frame <;> rfl

theorem feed_backslash (outside : Outside p) : feed token p (byte '\\') = none := by
  obtain ⟨mode, stack⟩ := p
  cases mode with
  | start closable =>
    rw [feed_start]
    cases closable with
    | false => rfl
    | true =>
      cases stack with
      | nil => rfl
      | cons frame rest =>
        cases frame with
        | member => rfl
        | element before => cases before <;> rfl
  | token seen =>
    rw [feed_token_end (by decide)]
    cases token seen with
    | none => rfl
    | some v => exact afterValue_backslash v stack
  | string names seen pending => exact absurd rfl (outside names seen pending)
  | name before closable =>
    rw [feed_name, beforeName, if_neg (by decide), if_neg (by decide), if_neg fun both =>
      absurd both.1 (by decide)]
  | colon before name => rfl
  | done v => exact afterValue_backslash v stack

/-- A quote outside of strings opens one. -/
theorem feed_opens (outside : Outside p) (taken : feed token p (byte '"') = some q) :
    ∃ names, q = (.string names [] [], p.2) := by
  obtain ⟨mode, stack⟩ := p
  have past : ∀ v, afterValue v stack (byte '"') = none := by
    intro v
    cases stack with
    | nil => rfl
    | cons frame rest => cases frame <;> rfl
  cases mode with
  | start closable =>
    obtain rfl := Option.some.inj taken
    exact ⟨none, rfl⟩
  | token seen =>
    rw [feed_token_end (by decide)] at taken
    obtain ⟨v, -, taken⟩ := Option.bind_eq_some_iff.mp taken
    cases (past v).symm.trans taken
  | string names seen pending => exact absurd rfl (outside names seen pending)
  | name before closable =>
    obtain rfl := Option.some.inj taken
    exact ⟨some before, rfl⟩
  | colon before name => cases taken
  | done v => cases (past v).symm.trans taken

theorem Reads.closes {t : Text} (reads : Reads token (.string names seen pending, stack) t d) :
    ∃ x rest, closes seen pending t = some (x, rest) ∧ Reads token (closeString names x, stack) rest d ∧
      EndsToken rest := by
  obtain ⟨x, rest, closed, later⟩ := closes_of_read reads
  refine ⟨x, rest, closed, later, ?_⟩
  cases names with
  | none =>
    have value : Reads token (.done (.string x), stack) rest d := later
    exact value.ends
  | some before =>
    intro b first
    cases rest with
    | nil => cases first
    | cons c rest =>
      obtain rfl : c = b := Option.some.inj first
      obtain ⟨q, taken, -⟩ := Reads.step later
      rw [closeString] at taken
      simp only [feed] at taken
      split_ifs at taken with space colon
      · exact not_token_space space
      · subst colon
        decide

def Backslashes (f : Byte → Text) : Prop := ∀ b, (∃ escaped, f b = byte '\\' :: escaped) ∨ b ≠ byte '"' ∧ f b = [b]

theorem backslashes_escapeLine : Backslashes escapeLine := by
  intro b
  rcases escapeLine_cases b with ⟨-, text⟩ | ⟨-, text⟩ | ⟨quote, -, text⟩
  · exact .inl ⟨_, text⟩
  · exact .inl ⟨_, text⟩
  · exact .inr ⟨quote, text⟩

/-- Where a string has ended early, the escapes behind it are not read, and neither is what follows the
quote that was to close it. -/
theorem not_reads_outside {f : Byte → Text} {q : Text} (backslashes : Backslashes f)
    (separates : Separates tail) (outside : Outside p) :
    ¬Reads token p (q.flatMap f ++ byte '"' :: tail) d := by
  induction q generalizing p with
  | nil =>
    intro reads
    obtain ⟨next, taken, later⟩ := reads.step
    obtain ⟨names, rfl⟩ := feed_opens outside taken
    obtain ⟨x, rest, closed, -, ends⟩ := later.closes
    exact separates _ _ _ closed ends
  | cons c q ih =>
    intro reads
    rw [List.flatMap_cons, List.append_assoc] at reads
    rcases backslashes c with ⟨escaped, text⟩ | ⟨quote, text⟩ <;> rw [text] at reads
    · obtain ⟨next, taken, -⟩ := reads.step
      cases (feed_backslash outside).symm.trans taken
    · obtain ⟨next, taken, later⟩ := reads.step
      exact ih (outside_feed outside quote taken) later

/-- If a text goes on being read behind an escaped text between quotes, these are its quotes. -/
theorem Reads.escaped {q : Text} (separates : Separates tail)
    (reads : Reads token (.start false, stack) (byte '"' :: (q.flatMap escapeLine ++ byte '"' :: tail)) d) :
    ∃ x, x.length ≤ q.length ∧ Reads token (.done (.string x), stack) tail d ∧ (x = q → Lines q) := by
  obtain ⟨next, taken, inside⟩ := reads.step
  obtain rfl := Option.some.inj taken
  obtain ⟨x, rest, closed, later, ends⟩ := inside.closes
  rcases closes_escaped (.inl rfl) closed with ⟨front, late⟩ | ⟨bound, rfl | ⟨early, rfl⟩⟩
  · exact absurd ends (separates _ _ _ late)
  · refine ⟨x, by simpa [slack_nil] using bound, later, ?_⟩
    rintro rfl
    exact lines_of_closes separates ends closed
  · exact absurd later (not_reads_outside backslashes_escapeLine separates (by simp [Outside, closeString]))

end MujinClient
