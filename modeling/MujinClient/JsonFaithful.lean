import MujinClient.JsonReader

/-! What a reading already knows of the document, and where a string ends whose bytes were
put between quotes without all the escapes they need. -/
namespace MujinClient

open Transition

/-- `v` has `w` in the place where the unfinished values around it are. -/
def Fill : List Frame → Json → Json → Prop
  | [], w, v => v = w
  | .element before :: rest, w, v => ∃ more, Fill rest (.array (before ++ w :: more)) v
  | .member before name :: rest, w, v => ∃ more, Fill rest (.object (before ++ (name, w) :: more)) v

/-- The position is on the way to the document `v`. -/
def Leads (v : Json) : Position → Prop
  | (.done w, stack) => Fill stack w v
  | (.name before _, stack) | (.string (some before) _ _, stack) => ∃ more, Fill stack (.object (before ++ more)) v
  | (.colon before name, stack) => ∃ w more, Fill stack (.object (before ++ (name, w) :: more)) v
  | (.start true, .element before :: rest) => ∃ more, Fill rest (.array (before ++ more)) v
  | (.start _, stack) | (.token _, stack) | (.string none _ _, stack) => ∃ w, Fill stack w v

variable {token : Text → Option Json}

/-- Before a value, the value is the next thing the document has. -/
theorem leads_start (fills : ∃ w, Fill stack w v) : Leads v (.start closable, stack) := by
  cases closable with
  | false => exact fills
  | true =>
    cases stack with
    | nil => exact fills
    | cons frame rest =>
      cases frame with
      | member before name => exact fills
      | element before =>
        obtain ⟨w, more, fills⟩ := fills
        exact ⟨w :: more, fills⟩

theorem leads_afterValue (taken : afterValue w stack b = some q) (leads : Leads v q) : Fill stack w v := by
  unfold afterValue at taken
  split at taken
  · obtain rfl := Option.some.inj taken
    exact leads
  · cases stack with
    | nil => simp at taken
    | cons frame rest =>
      cases frame with
      | element before =>
        simp only at taken
        split_ifs at taken
        · obtain rfl := Option.some.inj taken
          obtain ⟨next, more, fills⟩ := leads
          exact ⟨next :: more, by simpa using fills⟩
        · obtain rfl := Option.some.inj taken
          exact ⟨[], leads⟩
      | member before name =>
        simp only at taken
        split_ifs at taken
        · obtain rfl := Option.some.inj taken
          obtain ⟨more, fills⟩ := leads
          exact ⟨more, by simpa using fills⟩
        · obtain rfl := Option.some.inj taken
          exact ⟨[], leads⟩

theorem leads_beforeValue (taken : beforeValue closable stack b = some q) (leads : Leads v q) :
    Leads v (.start closable, stack) := by
  unfold beforeValue at taken
  split_ifs at taken
  · exact Option.some.inj taken ▸ leads
  · obtain rfl := Option.some.inj taken
    exact leads_start leads
  · obtain rfl := Option.some.inj taken
    obtain ⟨more, fills⟩ := leads
    exact leads_start ⟨_, fills⟩
  · obtain rfl := Option.some.inj taken
    obtain ⟨more, fills⟩ := leads
    exact leads_start ⟨_, fills⟩
  · obtain rfl := Option.some.inj taken
    exact leads_start leads
  · split at taken
    · obtain rfl := Option.some.inj taken
      exact ⟨[], leads⟩
    · simp at taken
  · split at taken <;> simp at taken

theorem leads_feed (taken : feed token p b = some q) (leads : Leads v q) : Leads v p := by
  obtain ⟨mode, stack⟩ := p
  cases mode with
  | start closable => exact leads_beforeValue taken leads
  | token seen =>
    cases more : isTokenByte b with
    | true =>
      rw [feed_token_byte more, Option.some.injEq] at taken
      subst taken
      exact leads
    | false =>
      rw [feed_token_end more] at taken
      obtain ⟨w, -, taken⟩ := Option.bind_eq_some_iff.mp taken
      exact ⟨w, leads_afterValue taken leads⟩
  | string names seen pending =>
    by_cases closes : pending = [] ∧ b = byte '"'
    · obtain ⟨rfl, rfl⟩ := closes
      rw [feed_quote, Option.some.injEq] at taken
      subst taken
      cases names with
      | none => exact ⟨_, leads⟩
      | some before =>
        obtain ⟨w, more, fills⟩ := leads
        exact ⟨_, fills⟩
    · rw [feed_inside closes] at taken
      obtain ⟨parts, -, rfl⟩ := Option.map_eq_some_iff.mp taken
      cases names with
      | none => exact leads
      | some before => exact leads
  | name before closable =>
    simp only [feed_name, beforeName] at taken
    split_ifs at taken
    · obtain rfl := Option.some.inj taken
      exact leads
    · obtain rfl := Option.some.inj taken
      exact leads
    · obtain rfl := Option.some.inj taken
      exact ⟨[], by simpa [Leads] using leads⟩
  | colon before name =>
    simp only [feed] at taken
    split_ifs at taken
    · obtain rfl := Option.some.inj taken
      exact leads
    · obtain rfl := Option.some.inj taken
      exact leads
  | done w => exact leads_afterValue taken leads

theorem leads_run (t : Text) (ran : run (feed token) p t = some q) (leads : Leads v q) : Leads v p := by
  induction t generalizing p with
  | nil =>
    obtain rfl := Option.some.inj ran
    exact leads
  | cons b rest ih =>
    obtain ⟨next, taken, ran⟩ := Option.bind_eq_some_iff.mp ran
    exact leads_feed taken (ih ran)

/-- From any position a complete reading goes through, it is on the way to its document. -/
theorem leads_of_read (read : (run (feed token) p t).bind (finish token) = some v) : Leads v p := by
  obtain ⟨final, ran, finished⟩ := Option.bind_eq_some_iff.mp read
  refine leads_run t ran ?_
  rcases complete_of_finish finished with rfl | ⟨seen, rfl, -⟩
  · exact rfl
  · exact ⟨v, rfl⟩

/-- The bytes read up to the closing quote, and the text after it. -/
def closes (seen pending : Text) : Text → Option (Text × Text)
  | [] => none
  | b :: rest =>
    if pending = [] ∧ b = byte '"' then some (seen, rest)
    else (stringByte seen pending b).bind fun (seen, pending) => closes seen pending rest

theorem closes_of_read
    (read : (run (feed token) (.string names seen pending, stack) t).bind (finish token) = some v) :
    ∃ content rest, closes seen pending t = some (content, rest) ∧
      (run (feed token) (closeString names content, stack) rest).bind (finish token) = some v := by
  induction t generalizing seen pending with
  | nil => cases stack <;> simp [MujinClient.finish] at read
  | cons b rest ih =>
    by_cases ends : pending = [] ∧ b = byte '"'
    · obtain ⟨rfl, rfl⟩ := ends
      rw [run_cons, feed_quote] at read
      exact ⟨seen, rest, by simp [closes], read⟩
    · rw [run_cons, feed_inside ends] at read
      cases known : stringByte seen pending b with
      | none => simp [known] at read
      | some parts =>
        rw [known, Option.map_some, Option.bind_some] at read
        obtain ⟨content, tail, closed, later⟩ := ih read
        exact ⟨content, tail, by rw [closes, if_neg ends, known]; exact closed, later⟩

/-- Each byte stands for itself, or a quote for its escape. -/
def Quoting (f : Byte → Text) : Prop := ∀ b, f b = [b] ∨ b = byte '"' ∧ f b = [byte '\\', b]

def Safe (f : Byte → Text) (b : Byte) : Prop := 32 ≤ b.val ∧ b ≠ byte '\\' ∧ (b = byte '"' → f b ≠ [b])

theorem codeUnit?_of_mem (inside : b ∈ digits) (bad : hexValue? b = none) : codeUnit? digits = none := by
  have none : digits.mapM hexValue? = none := by
    induction digits with
    | nil => simp at inside
    | cons d rest ih =>
      rcases List.mem_cons.mp inside with rfl | later
      · simp [bad]
      · cases hexValue? d <;> simp [ih later]
  rw [codeUnit?, none, Option.map_none]

theorem length_utf8 (code : Nat) : (utf8 code).length ≤ 4 := by
  unfold utf8
  split_ifs <;> simp

theorem length_unicodeEscape (read : unicodeEscape digits = .bytes t) : t.length ≤ 4 ∧ 4 ≤ digits.length := by
  unfold unicodeEscape at read
  split at read
  · simp at read
  · by_cases short : digits.length < 4
    · simp [short] at read
    · refine ⟨?_, by omega⟩
      simp only [short, ↓reduceIte] at read
      split at read
      · exact Escape.bytes.inj read ▸ length_utf8 _
      · split at read
        · simp at read
        · split at read
          · simp at read
          · split at read
            · simp at read
            · split at read
              · simp at read
              · exact Escape.bytes.inj read ▸ length_utf8 _

theorem escape_unicode (c d b : Byte) (digits : Text) :
    escape (c :: d :: (digits ++ [b])) = unicodeEscape (digits ++ [b]) := by
  cases digits <;> rfl

theorem length_escape (some : pending ≠ []) (read : escape (pending ++ [b]) = .bytes t) :
    t.length ≤ pending.length := by
  match pending, some with
  | [c], _ =>
    simp only [List.cons_append, List.nil_append, escape, simpleEscape] at read
    split_ifs at read <;> obtain rfl := Escape.bytes.inj read <;> simp
  | c :: d :: digits, _ =>
    rw [List.cons_append, List.cons_append, escape_unicode] at read
    have bounds := length_unicodeEscape read
    simp only [List.length_append, List.length_cons, List.length_nil] at bounds ⊢
    omega

def Pending (pending : Text) : Prop := pending = [] ∨ pending.head? = some (byte '\\') ∧ escape pending = .more

theorem Pending.stringByte (open_ : Pending pending) (taken : stringByte seen pending b = some (next, left)) :
    Pending left := by
  unfold MujinClient.stringByte at taken
  split at taken
  · split_ifs at taken with backslash
    · obtain ⟨-, rfl⟩ := Prod.mk.inj (Option.some.inj taken)
      exact .inr ⟨by simp [backslash], rfl⟩
    · obtain ⟨-, rfl⟩ := Prod.mk.inj (Option.some.inj taken)
      exact .inl rfl
  · rename_i some
    split at taken
    · rename_i more
      obtain ⟨-, rfl⟩ := Prod.mk.inj (Option.some.inj taken)
      refine .inr ⟨?_, more⟩
      rw [List.head?_append_of_ne_nil _ some]
      exact (open_.resolve_left some).1
    · obtain ⟨-, rfl⟩ := Prod.mk.inj (Option.some.inj taken)
      exact .inl rfl
    · simp at taken

/-- A byte that no escape sequence contains after its first two bytes. -/
def Foreign (b : Byte) : Prop := hexValue? b = none ∧ b ≠ byte '\\' ∧ b ≠ byte 'u'

theorem foreign_apart (foreign : Foreign b) (compatible : l ++ [b] <+: lit "\\u" ∨ lit "\\u" <+: l ++ [b]) :
    2 ≤ l.length := by
  obtain ⟨-, backslash, letter⟩ := foreign
  have spelled : lit "\\u" = [byte '\\', byte 'u'] := rfl
  rw [spelled] at compatible
  rcases compatible with before | after
  · have member : b ∈ [byte '\\', byte 'u'] := before.subset (by simp)
    simp [backslash, letter] at member
  · match l with
    | [] => exact absurd after.length_le (by simp)
    | [x] =>
      have same := after.eq_of_length (by simp)
      simp [Ne.symm letter] at same
    | _ :: _ :: _ => simp

theorem unicodeEscape_foreign (foreign : Foreign b) (more : unicodeEscape digits = .more) :
    unicodeEscape (digits ++ [b]) = .bad := by
  have none : ∀ ds : Text, codeUnit? (ds ++ [b]) = none := fun ds =>
    codeUnit?_of_mem (List.mem_append_right ds List.mem_cons_self) foreign.1
  by_cases short : digits.length < 4
  · have all : (digits ++ [b]).take 4 = digits ++ [b] := List.take_of_length_le (by simp; omega)
    rw [unicodeEscape, all, none]
  · have long : ¬(digits ++ [b]).length < 4 := by simp; omega
    unfold unicodeEscape at more ⊢
    rw [List.take_append_of_le_length (by omega)]
    split at more
    · simp at more
    · simp only [short, ↓reduceIte] at more
      simp only [long, ↓reduceIte]
      split at more
      · simp at more
      · rename_i plain
        rw [if_neg plain]
        split
        · rfl
        · rename_i surrogate
          have drop : (digits ++ [b]).drop 4 = digits.drop 4 ++ [b] := List.drop_append_of_le_length (by omega)
          have compatible : digits.drop 4 ++ [b] <+: lit "\\u" ∨ lit "\\u" <+: digits.drop 4 ++ [b] := by
            rw [drop] at surrogate
            tauto
          have enough := foreign_apart foreign compatible
          rw [List.length_drop] at enough
          rw [List.drop_append_of_le_length (by omega : 6 ≤ digits.length), none]

theorem escape_foreign (foreign : Foreign b) (open_ : Pending pending) (some : pending ≠ []) :
    pending = [byte '\\'] ∨ escape (pending ++ [b]) = .bad := by
  obtain ⟨first, more⟩ := open_.resolve_left some
  match pending, some with
  | [c], _ =>
    obtain rfl : c = byte '\\' := by simpa using first
    exact .inl rfl
  | c :: d :: digits, _ =>
    right
    rw [List.cons_append, List.cons_append, escape_unicode]
    cases digits with
    | nil =>
      have none : codeUnit? [b] = none := codeUnit?_of_mem List.mem_cons_self foreign.1
      simp [unicodeEscape, none]
    | cons x rest => exact unicodeEscape_foreign foreign more

theorem foreign_quote : Foreign (byte '"') := ⟨by decide, by decide, by decide⟩

theorem foreign_control (control : b.val < 32) : Foreign b := by
  have all : ∀ b : Byte, b.val < 32 → hexValue? b = none ∧ b ≠ byte '\\' ∧ b ≠ byte 'u' := by decide +kernel
  exact all b control

theorem stringByte_control (open_ : Pending pending) (control : b.val < 32) :
    stringByte seen pending b = none := by
  have all : ∀ b : Byte, b.val < 32 → b ≠ byte '\\' ∧ simpleEscape b = .bad ∧ b ≠ byte 'u' := by
    intro b control
    have apart : ∀ b : Byte, b.val < 32 → b ≠ byte '\\' ∧ b ≠ byte 'u' ∧ b ≠ byte '"' ∧ b ≠ byte '/' ∧
        b ≠ byte 'b' ∧
        b ≠ byte 'f' ∧ b ≠ byte 'n' ∧ b ≠ byte 'r' ∧ b ≠ byte 't' := by decide +kernel
    have facts := apart b control
    exact ⟨facts.1, by simp [simpleEscape, facts], facts.2.1⟩
  obtain ⟨backslash, simple, letter⟩ := all b control
  by_cases none : pending = []
  · simp [stringByte, none, backslash, control]
  · rw [stringByte, if_neg none]
    rcases escape_foreign (foreign_control control) open_ none with rfl | bad
    · simp [escape, simple, letter]
    · rw [bad]

def PendingAt : Position → Prop
  | (.string _ _ pending, _) => Pending pending
  | _ => True

theorem pendingAt_afterValue (taken : afterValue v stack b = some q) : PendingAt q := by
  unfold afterValue at taken
  repeat' split at taken
  all_goals first | (cases taken; done) | (cases taken; trivial)

theorem pendingAt_feed (open_ : PendingAt p) (taken : feed token p b = some q) : PendingAt q := by
  obtain ⟨mode, stack⟩ := p
  cases mode with
  | start closable =>
    simp only [feed, beforeValue] at taken
    repeat' split at taken
    all_goals first | (cases taken; done) | (cases taken; trivial) | (cases taken; exact .inl rfl)
  | token seen =>
    simp only [feed] at taken
    split at taken
    · obtain rfl := Option.some.inj taken
      trivial
    · obtain ⟨v, -, taken⟩ := Option.bind_eq_some_iff.mp taken
      exact pendingAt_afterValue taken
  | string names seen pending =>
    simp only [feed] at taken
    split at taken
    · obtain rfl := Option.some.inj taken
      cases names <;> trivial
    · obtain ⟨⟨next, left⟩, known, rfl⟩ := Option.map_eq_some_iff.mp taken
      exact open_.stringByte known
  | name before closable =>
    simp only [feed, beforeName] at taken
    repeat' split at taken
    all_goals first | (cases taken; done) | (cases taken; trivial) | (cases taken; exact .inl rfl)
  | colon before name =>
    simp only [feed] at taken
    repeat' split at taken
    all_goals first | (cases taken; done) | (cases taken; trivial)
  | done v => exact pendingAt_afterValue taken

theorem afterValue_zero : afterValue v stack 0 = none := by
  cases stack with
  | nil => rfl
  | cons frame rest => cases frame <;> rfl

theorem feed_zero (open_ : PendingAt p) : feed token p 0 = none := by
  obtain ⟨mode, stack⟩ := p
  cases mode with
  | start closable =>
    have apart : isSpace 0 = false ∧ isTokenByte 0 = false ∧ 0 ≠ byte '"' ∧ 0 ≠ byte '[' ∧ 0 ≠ byte '\x7b' ∧
        0 ≠ byte ']' := by decide
    simp only [feed, beforeValue, apart, Bool.false_eq_true, if_false]
    split <;> rfl
  | token seen =>
    have ends : isTokenByte 0 = false := by decide
    simp [feed, ends, afterValue_zero]
  | string names seen pending =>
    have apart : ¬(pending = [] ∧ 0 = byte '"') := fun both => absurd both.2 (by decide)
    simp [feed, apart, stringByte_control open_ (b := 0) (by decide)]
  | name before closable =>
    have apart : isSpace 0 = false ∧ 0 ≠ byte '"' ∧ 0 ≠ byte '\x7d' := by decide
    simp [feed, beforeName, apart]
  | colon before name => rfl
  | done v => exact afterValue_zero

theorem nulFree_of_readJson (read : readJson token t = some v) : NulFree t := by
  have free : ∀ t p q, PendingAt p → run (feed token) p t = some q → NulFree t := by
    intro t
    induction t with
    | nil => exact fun _ _ _ _ => by simp [NulFree]
    | cons b rest ih =>
      intro p q open_ ran
      obtain ⟨next, taken, ran⟩ := Option.bind_eq_some_iff.mp ran
      refine nulFree_cons.mpr ⟨fun zero => ?_, ih next q (pendingAt_feed open_ taken) ran⟩
      rw [zero, feed_zero open_] at taken
      cases taken
  obtain ⟨q, ran, -⟩ := Option.bind_eq_some_iff.mp read
  exact free t (.start false, []) q trivial ran

/-- One byte takes the string further by one byte at most, open escape sequences included. -/
theorem stringByte_measure (taken : stringByte seen pending b = some (next, left)) :
    next.length + (left.length - 1) ≤ seen.length + (pending.length - 1) + 1 ∧
      (left = [] ∨ left = pending ++ [b]) := by
  unfold stringByte at taken
  split at taken
  · rename_i none
    split_ifs at taken
    · obtain ⟨rfl, rfl⟩ := Prod.mk.inj (Option.some.inj taken)
      simp [none]
    · obtain ⟨rfl, rfl⟩ := Prod.mk.inj (Option.some.inj taken)
      simp
  · rename_i some
    have positive := List.length_pos_of_ne_nil some
    split at taken
    · obtain ⟨rfl, rfl⟩ := Prod.mk.inj (Option.some.inj taken)
      simp only [List.length_append, List.length_singleton, or_true, and_true]
      omega
    · rename_i read
      have bound := length_escape some read
      obtain ⟨rfl, rfl⟩ := Prod.mk.inj (Option.some.inj taken)
      simp only [List.length_append, List.length_nil, true_or, and_true]
      omega
    · simp at taken

/-- An open escape sequence is no longer than what it has taken. -/
theorem stringByte_length (taken : stringByte seen pending b = some (next, left)) :
    next.length + left.length ≤ seen.length + pending.length + 1 := by
  unfold stringByte at taken
  split at taken
  · split_ifs at taken <;> obtain ⟨rfl, rfl⟩ := Prod.mk.inj (Option.some.inj taken) <;> simp
  · rename_i some
    split at taken
    · obtain ⟨rfl, rfl⟩ := Prod.mk.inj (Option.some.inj taken)
      simp only [List.length_append, List.length_singleton]
      omega
    · rename_i read
      have bound := length_escape some read
      obtain ⟨rfl, rfl⟩ := Prod.mk.inj (Option.some.inj taken)
      simp only [List.length_append, List.length_nil]
      omega
    · simp at taken

theorem getLast?_suffix (left : l = [] ∨ l = pending ++ [c]) (last : (l ++ q).getLast? = some b) :
    (pending ++ c :: q).getLast? = some b := by
  rw [← List.singleton_append, ← List.append_assoc]
  rcases left with rfl | rfl
  · rw [List.nil_append] at last
    rw [List.getLast?_append, last, Option.some_or]
  · exact last

/-- A backslash opens an escape sequence, unless it ends one. -/
theorem backslash_opens (shape : left = [] ∨ left = pending ++ [byte '\\']) (only : left = [byte '\\']) :
    pending = [] := by
  rcases shape with rfl | rfl
  · cases only
  · simpa using only

theorem closes_quote (open_ : Pending pending) (closed : closes seen pending (byte '"' :: t) = some (x, rest)) :
    pending = [] ∧ x = seen ∧ rest = t ∨ pending = [byte '\\'] ∧ closes (seen ++ [byte '"'])
    [] t = some (x, rest) := by
  rw [closes] at closed
  split at closed
  · rename_i ends
    obtain ⟨rfl, rfl⟩ := Prod.mk.inj (Option.some.inj closed)
    exact .inl ⟨ends.1, rfl, rfl⟩
  · rename_i inside
    have some : pending ≠ [] := fun none => inside ⟨none, rfl⟩
    obtain ⟨⟨next, left⟩, taken, closed⟩ := Option.bind_eq_some_iff.mp closed
    rw [stringByte, if_neg some] at taken
    rcases escape_foreign foreign_quote open_ some with rfl | bad
    · obtain ⟨rfl, rfl⟩ := Prod.mk.inj (Option.some.inj taken)
      exact .inr ⟨rfl, closed⟩
    · simp [bad] at taken

/-- An escape sequence is read for what it stands for, unless its backslash ends the one before. -/
theorem closes_escape (foreign : Foreign e) (simple : simpleEscape e = .bytes [c]) (open_ : Pending pending)
    (closed : closes seen pending (byte '\\' :: e :: t) = some (x, rest)) :
    (∃ next, pending ≠ [] ∧ stringByte seen pending (byte '\\') = some (next, []) ∧
      closes next [] (e :: t) = some (x, rest)) ∨
      pending = [] ∧ closes (seen ++ [c]) [] t = some (x, rest) := by
  rw [closes, if_neg fun both => absurd both.2 (by decide)] at closed
  obtain ⟨⟨next, left⟩, taken, closed⟩ := Option.bind_eq_some_iff.mp closed
  by_cases none : left = []
  · subst none
    refine .inl ⟨next, ?_, taken, closed⟩
    rintro rfl
    cases taken
  · dsimp only at closed
    rw [closes, if_neg fun both => none both.1] at closed
    obtain ⟨⟨final, more⟩, ended, closed⟩ := Option.bind_eq_some_iff.mp closed
    rw [stringByte, if_neg none] at ended
    rcases escape_foreign foreign (open_.stringByte taken) none with only | bad
    · obtain rfl := backslash_opens (stringByte_measure taken).2 only
      obtain rfl : seen = next := by simp_all [stringByte]
      subst only
      have letter : e ≠ byte 'u' := foreign.2.2
      rw [List.singleton_append, escape, if_neg letter, simple] at ended
      obtain ⟨rfl, rfl⟩ := Prod.mk.inj (Option.some.inj ended)
      exact .inr ⟨rfl, closed⟩
    · simp [bad] at ended

theorem closes_escaped_quote (open_ : Pending pending)
    (closed : closes seen pending (byte '\\' :: byte '"' :: t) = some (x, rest)) :
    pending ≠ [] ∧ stringByte seen pending (byte '\\') = some (x, []) ∧ rest = t ∨
      pending = [] ∧ closes (seen ++ [byte '"']) [] t = some (x, rest) := by
  rcases closes_escape foreign_quote rfl open_ closed with ⟨next, some, taken, closed⟩ | later
  · rcases closes_quote (.inl rfl) closed with ⟨-, rfl, rfl⟩ | ⟨impossible, -⟩
    · exact .inl ⟨some, taken, rfl⟩
    · cases impossible
  · exact .inr later

/-- Reading the texts of `q` and a closing quote: either the string ends with them and has
no more bytes than `q` and the open escape sequence, or the quote was escaped. -/
theorem closes_quoting (quoting : Quoting f) (open_ : Pending pending)
    (closed : closes seen pending (q.flatMap f ++ byte '"' :: tail) = some (x, rest)) :
    x.length ≤ seen.length + q.length + (pending.length - 1) ∨
      (pending ++ q).getLast? = some (byte '\\') ∧
        ∃ front, closes (front ++ [byte '"']) [] tail = some (x, rest) := by
  induction q generalizing seen pending with
  | nil =>
    rw [List.flatMap_nil, List.nil_append] at closed
    rcases closes_quote open_ closed with ⟨-, rfl, -⟩ | ⟨rfl, later⟩
    · left
      simp
    · exact .inr ⟨rfl, seen, later⟩
  | cons c q ih =>
    rcases quoting c with itself | ⟨rfl, escaped⟩
    · rw [List.flatMap_cons, itself, List.append_assoc, List.singleton_append, closes] at closed
      split at closed
      · obtain ⟨rfl, -⟩ := Prod.mk.inj (Option.some.inj closed)
        left
        omega
      · obtain ⟨⟨next, left⟩, taken, closed⟩ := Option.bind_eq_some_iff.mp closed
        obtain ⟨measure, shape⟩ := stringByte_measure taken
        rcases ih (open_.stringByte taken) closed with short | ⟨last, front, later⟩
        · left
          rw [List.length_cons]
          omega
        · exact .inr ⟨getLast?_suffix shape last, front, later⟩
    · rw [List.flatMap_cons, escaped, List.append_assoc, List.cons_append, List.singleton_append] at closed
      rcases closes_escaped_quote open_ closed with ⟨-, taken, -⟩ | ⟨rfl, closed⟩
      · have measure := (stringByte_measure taken).1
        left
        rw [List.length_cons]
        omega
      · rcases ih (.inl rfl) closed with short | ⟨last, front, later⟩
        · left
          simp only [List.length_append, List.length_cons, List.length_nil] at short ⊢
          omega
        · exact .inr ⟨getLast?_suffix (.inl rfl) last, front, later⟩

theorem closes_control {b : Byte} {q : Text} (quoting : Quoting f) (open_ : Pending pending) (control : b.val < 32)
    (closed : closes seen pending (q.flatMap f ++ b :: t) = some (x, rest)) :
    x.length + 1 ≤ seen.length + q.length + pending.length := by
  induction q generalizing seen pending with
  | nil =>
    have quote : b ≠ byte '"' := fun same => absurd (same ▸ control) (by decide)
    rw [List.flatMap_nil, List.nil_append, closes, if_neg fun both => quote both.2,
      stringByte_control open_ control] at closed
    simp at closed
  | cons c q ih =>
    rw [List.length_cons]
    rcases quoting c with itself | ⟨rfl, escaped⟩
    · rw [List.flatMap_cons, itself, List.append_assoc, List.singleton_append, closes] at closed
      split at closed
      · obtain ⟨rfl, -⟩ := Prod.mk.inj (Option.some.inj closed)
        omega
      · obtain ⟨⟨next, left⟩, taken, closed⟩ := Option.bind_eq_some_iff.mp closed
        have bound := ih (open_.stringByte taken) closed
        have measure := stringByte_length taken
        omega
    · rw [List.flatMap_cons, escaped, List.append_assoc, List.cons_append, List.singleton_append] at closed
      rcases closes_escaped_quote open_ closed with ⟨some, taken, -⟩ | ⟨rfl, closed⟩
      · have measure := (stringByte_measure taken).1
        have positive := List.length_pos_of_ne_nil some
        omega
      · have bound := ih (.inl rfl) closed
        simp only [List.length_append, List.length_cons, List.length_nil] at bound ⊢
        omega

/-- A string read back as what `c_str()` leaves of it had nothing to leave out. -/
theorem nulFree_of_closes (quoting : Quoting f) (zero : f 0 = [0])
    (closed : closes [] [] (s.flatMap f ++ tail) = some (cString s, rest)) : NulFree s := by
  by_contra inside
  obtain ⟨m, split⟩ := cString_zero fun same => inside ((cString_eq_self_iff s).mp same)
  have bytes : s.flatMap f ++ tail = (cString s).flatMap f ++ 0 :: (m.flatMap f ++ tail) := by
    conv_lhs => rw [split]
    simp [zero]
  rw [bytes] at closed
  have bound := closes_control quoting (.inl rfl) (show (0 : Byte).val < 32 by decide) closed
  simp at bound

/-- A string read back as it was only consists of bytes that are safe between quotes, if the
text after it does not end a string in a backslash. -/
theorem safe_of_closes (quoting : Quoting f)
    (ends : ∀ front x rest, closes (front ++ [byte '"']) [] tail = some (x, rest) → x.getLast? ≠ some (byte '\\'))
    (closed : closes seen [] (q.flatMap f ++ byte '"' :: tail) = some (seen ++ q, rest)) :
    ∀ b ∈ q, Safe f b := by
  induction q generalizing seen with
  | nil => simp
  | cons c q ih =>
    have grow : seen ++ c :: q = (seen ++ [c]) ++ q := by simp
    rcases quoting c with itself | ⟨rfl, escaped⟩
    · rw [List.flatMap_cons, itself, List.append_assoc, List.singleton_append, closes] at closed
      split at closed
      · have same := congrArg List.length (Prod.mk.inj (Option.some.inj closed)).1
        simp at same
      · rename_i inside
        have quote : c ≠ byte '"' := fun same => inside ⟨rfl, same⟩
        obtain ⟨⟨next, left⟩, taken, closed⟩ := Option.bind_eq_some_iff.mp closed
        simp only [stringByte, ↓reduceIte] at taken
        split_ifs at taken with backslash control
        · -- an escape sequence takes at least a byte more than it gives
          obtain ⟨rfl, rfl⟩ := Prod.mk.inj (Option.some.inj taken)
          subst backslash
          rcases closes_quoting quoting (.inr ⟨rfl, rfl⟩) closed with short | ⟨last, front, later⟩
          · simp at short
          · refine absurd ?_ (ends front _ _ later)
            rw [List.getLast?_append, ← List.singleton_append, last, Option.some_or]
        · obtain ⟨rfl, rfl⟩ := Prod.mk.inj (Option.some.inj taken)
          rw [grow] at closed
          exact List.forall_mem_cons.mpr ⟨⟨not_lt.mp control, backslash, fun same => absurd same quote⟩, ih closed⟩
    · have read : stringByte seen [] (byte '\\') = some (seen, [byte '\\']) := rfl
      have quote : stringByte seen [byte '\\'] (byte '"') = some (seen ++ [byte '"'], []) := rfl
      rw [List.flatMap_cons, escaped, List.append_assoc, List.cons_append, List.singleton_append, closes,
        if_neg (by decide), read, Option.bind_some] at closed
      dsimp only at closed
      rw [closes, if_neg (by decide), quote, Option.bind_some, grow] at closed
      refine List.forall_mem_cons.mpr ⟨⟨by decide, by decide, fun _ same => ?_⟩, ih closed⟩
      rw [escaped] at same
      simp at same

theorem closes_plain (plain : ∀ b ∈ r, isPlain b = true) (t : Text) :
    closes seen [] (r ++ t) = closes (seen ++ r) [] t := by
  induction r generalizing seen with
  | nil => simp
  | cons b r ih =>
    have itself : ∀ b : Byte, isPlain b = true → ¬b.val < 32 ∧ b ≠ byte '"' ∧ b ≠ byte '\\' := by decide +kernel
    obtain ⟨printable, quote, backslash⟩ := itself b (plain b List.mem_cons_self)
    have taken : stringByte seen [] b = some (seen ++ [b], []) := by simp [stringByte, backslash, printable]
    rw [List.cons_append, closes, if_neg fun both => quote both.2, taken, Option.bind_some]
    dsimp only
    rw [ih fun c later => plain c (List.mem_cons_of_mem _ later), List.append_assoc, List.singleton_append]

/-- Plain text up to the next quote does not end in a backslash. -/
theorem plain_ends (plain : ∀ b ∈ r, isPlain b = true) (some : r ≠ [])
    (closed : closes front [] (r ++ byte '"' :: tail) = .some (x, rest)) : x.getLast? ≠ .some (byte '\\') := by
  rw [closes_plain plain, closes, if_pos ⟨rfl, rfl⟩] at closed
  obtain ⟨rfl, -⟩ := Prod.mk.inj (Option.some.inj closed)
  rw [List.getLast?_append, List.getLast?_eq_some_getLast some, Option.some_or]
  intro same
  have last := plain _ (List.getLast_mem some)
  rw [Option.some.inj same] at last
  exact absurd last (by decide)

end MujinClient
