import MujinClient.JsonFaithful

/-! Texts of values made from templates. A string that a template puts between its quotes reads back
exactly if every byte of it stands for itself: no other string is read as the value that is meant,
whatever else it turns the text into. -/
namespace MujinClient

open Transition

/-- A string that is between quotes what it is outside. -/
def Plain (s : Text) : Prop := ∀ b ∈ s, isPlain b = true

instance : DecidablePred Plain := fun s => inferInstanceAs (Decidable (∀ b ∈ s, isPlain b = true))

@[simp] theorem plain_nil : Plain [] := by simp [Plain]

@[simp] theorem plain_cons : Plain (b :: s) ↔ isPlain b = true ∧ Plain s := List.forall_mem_cons

@[simp] theorem plain_append : Plain (s ++ t) ↔ Plain s ∧ Plain t := List.forall_mem_append

def blanks (n : Nat) : Text := List.replicate n 32

theorem spaces_blanks (n : Nat) : Spaces (blanks n) := fun _ member => List.eq_of_mem_replicate member ▸ rfl

theorem plain_blanks (n : Nat) : Plain (blanks n) := fun _ member => List.eq_of_mem_replicate member ▸ rfl

variable {token : Text → Option Json}

/-- There is one value in one place of a document. -/
theorem fill_inj (one : Fill stack v d) (other : Fill stack w d) : v = w := by
  induction stack generalizing v w with
  | nil => exact one.symm.trans other
  | cons frame rest ih =>
    cases frame with
    | element before =>
      obtain ⟨more, one⟩ := one
      obtain ⟨others, other⟩ := other
      have same := Json.array.inj (ih one other)
      exact (List.cons.inj (List.append_cancel_left same)).1
    | member before name =>
      obtain ⟨more, one⟩ := one
      obtain ⟨others, other⟩ := other
      have same := Json.object.inj (ih one other)
      exact (Prod.mk.inj (List.cons.inj (List.append_cancel_left same)).1).2

/-- From this position the rest of the text is read as the document. -/
def Reads (token : Text → Option Json) (p : Position) (t : Text) (d : Json) : Prop :=
  (run (feed token) p t).bind (finish token) = some d

theorem readJson_eq_some {t : Text} : readJson token t = some d ↔ Reads token (.start false, []) t d := Iff.rfl

theorem Reads.after {t u : Text} (reads : Reads token p (t ++ u) d) (ran : run (feed token) p t = some q) :
    Reads token q u d := by
  rwa [Reads, run_append, ran] at reads

theorem Reads.leads {t : Text} (reads : Reads token p t d) : Leads d p := leads_of_read reads

/-- What is still open where the text starts is only continued by plain bytes. -/
def Guarded (tail : Text) : Prop :=
  ∀ seen x rest, closes seen [] tail = some (x, rest) → ∃ more, Plain more ∧ x = seen ++ more

theorem guarded_nil : Guarded [] := by
  intro seen x rest closed
  simp [closes] at closed

theorem guarded_quote (tail : Text) : Guarded (byte '"' :: tail) := by
  intro seen x rest closed
  rw [closes, if_pos ⟨rfl, rfl⟩] at closed
  obtain ⟨rfl, -⟩ := Prod.mk.inj (Option.some.inj closed)
  exact ⟨[], plain_nil, by simp⟩

theorem Guarded.append {s tail : Text} (later : Guarded tail) (plain : Plain s) : Guarded (s ++ tail) := by
  intro seen x rest closed
  rw [closes_plain plain] at closed
  obtain ⟨more, plainMore, rfl⟩ := later _ x rest closed
  exact ⟨s ++ more, plain_append.mpr ⟨plain, plainMore⟩, by simp⟩

/-- A quote that was escaped by mistake is followed by no backslash. -/
theorem Guarded.ends {tail : Text} (guarded : Guarded tail) (front : Text)
    (closed : closes (front ++ [byte '"']) [] tail = some (x, rest)) : x.getLast? ≠ some (byte '\\') := by
  obtain ⟨more, plain, rfl⟩ := guarded _ x rest closed
  rw [List.getLast?_append, List.getLast?_append]
  cases last : more.getLast? with
  | none => simp [byte]
  | some b =>
    have printed := plain b (List.mem_of_getLast? last)
    rintro same
    rw [Option.some_or] at same
    rw [Option.some.inj same] at printed
    exact absurd printed (by decide)

theorem plain_iff_safe {s : Text} : (∀ b ∈ s, Safe (fun b => [b]) b) ↔ Plain s := by
  refine forall₂_congr fun b _ => ?_
  simp only [Safe, isPlain, Bool.and_eq_true, decide_eq_true_eq]
  tauto

/-- The text is read as the value if `P`, and otherwise in no document that has the value in
this place. -/
structure Exact (token : Text → Option Json) (t : Text) (v : Json) (P : Prop) : Prop where
  yields : P → Yields token t v
  needs : ∀ stack tail d, Guarded tail → Fill stack v d → Reads token (.start false, stack) (t ++ tail) d → P

theorem Yields.exact {t : Text} (yields : Yields token t v) : Exact token t v True :=
  ⟨fun _ => yields, fun _ _ _ _ _ _ => trivial⟩

theorem yields_quoted {s : Text} (plain : Plain s) : Yields token (quoted s) (.string s) := by
  have each : Unescapes token (s.flatMap fun b => [b]) s :=
    unescapes_flatMap fun b inside => unescapes_plain (plain b inside)
  rw [List.flatMap_singleton'] at each
  exact yields_string each

/-- A value that starts with a quote is the string that is read up to the closing quote. -/
theorem Reads.string {t : Text} (reads : Reads token (.start false, stack) (byte '"' :: t) d) :
    ∃ x rest, closes [] [] t = some (x, rest) ∧ Reads token (.done (.string x), stack) rest d := by
  have opens : beforeValue false stack (byte '"') = some (.string none [] [], stack) := rfl
  rw [Reads, run_cons, feed_start, opens, Option.bind_some] at reads
  exact closes_of_read reads

theorem exact_quoted (token : Text → Option Json) (s : Text) : Exact token (quoted s) (.string s) (Plain s) where
  yields := yields_quoted
  needs stack tail d guarded fills reads := by
    rw [quoted, List.cons_append, List.cons_append, List.append_assoc] at reads
    obtain ⟨x, rest, closed, later⟩ := reads.string
    have same : s = x := Json.string.inj (fill_inj fills later.leads)
    subst same
    have text : closes [] [] (s.flatMap (fun b => [b]) ++ byte '"' :: tail) = some ([] ++ s, rest) := by
      rwa [List.flatMap_singleton']
    exact plain_iff_safe.mp (safe_of_closes (fun _ => .inl rfl) (fun front x rest => guarded.ends front) text)

def templateMember (key : String) (gap : Nat) (value : Text) : Text :=
  quoted (lit key) ++ byte ':' :: blanks gap ++ value

/-- The same of a member. -/
structure ExactMember (token : Text → Option Json) (t : Text) (name : Text) (v : Json) (P : Prop) : Prop where
  reads : P → ReadsMember token t name v
  starts : ∃ rest, t = byte '"' :: rest
  needs : ∀ before closable stack tail d more, Guarded tail →
    Fill stack (.object (before ++ (name, v) :: more)) d →
    Reads token (.name before closable, stack) (t ++ tail) d → P

/-- The same of the start of an object, up to the name of its next member. -/
structure ExactOpens (token : Text → Option Json) (t : Text) (members : Json.Members) (P : Prop) : Prop where
  opens : P → Opens token t members
  needs : ∀ stack tail d more, Guarded tail → Fill stack (.object (members ++ more)) d →
    Reads token (.start false, stack) (t ++ tail) d → P

theorem run_templateMember {key : String} (plain : Plain (lit key)) (gap : Nat) :
    run (feed token) (.name before closable, stack) (quoted (lit key) ++ byte ':' :: blanks gap) =
      some (.start false, .member before (lit key) :: stack) := by
  have each : Unescapes token ((lit key).flatMap fun b => [b]) (lit key) :=
    unescapes_flatMap fun b inside => unescapes_plain (plain b inside)
  rw [List.flatMap_singleton'] at each
  have opens : beforeName before closable stack (byte '"') = some (.string (some before) [] [], stack) := rfl
  have colon : feed token (.colon before (lit key), stack) (byte ':') =
      some (.start false, .member before (lit key) :: stack) := rfl
  rw [quoted, List.append_assoc, List.cons_append, List.cons_append, run_cons, feed_name, opens,
    Option.bind_some, run_append,
    each, Option.bind_some, run_cons, feed_quote, Option.bind_some, List.nil_append, List.nil_append, closeString,
    run_cons, colon, Option.bind_some, run_start_spaces (spaces_blanks gap)]

theorem Exact.member {t : Text} (value : Exact token t v P) (key : String) (plain : Plain (lit key)) (gap : Nat) :
    ExactMember token (templateMember key gap t) (lit key) v P where
  reads holds := by
    intro before closable stack
    obtain ⟨p, ran, complete⟩ := value.yields holds false (.member before (lit key) :: stack)
    exact ⟨p, by rw [templateMember, run_append, run_templateMember plain, Option.bind_some, ran], complete⟩
  starts := ⟨_, rfl⟩
  needs before closable stack tail d more guarded fills reads := by
    rw [templateMember, List.append_assoc] at reads
    exact value.needs (.member before (lit key) :: stack) tail d guarded ⟨more, fills⟩
      (reads.after (run_templateMember plain gap))

theorem exactOpens_brace (token : Text → Option Json) (gap : Nat) :
    ExactOpens token (byte '{' :: blanks gap) [] True where
  opens _ closable stack := ⟨true, by rw [run_cons]; exact run_name_spaces (spaces_blanks gap)⟩
  needs _ _ _ _ _ _ _ := trivial

theorem ExactOpens.needs_both {t u tail : Text} (opens : ExactOpens token t members P)
    (member : ExactMember token u name v Q)
    (guarded : Guarded tail) (fills : Fill stack (.object (members ++ (name, v) :: more)) d)
    (reads : Reads token (.start false, stack) (t ++ (u ++ tail)) d) : P ∧ Q := by
  obtain ⟨rest, starts⟩ := member.starts
  have first : P := opens.needs stack (u ++ tail) d _ (by rw [starts]; exact guarded_quote _) fills reads
  obtain ⟨closable, opened⟩ := opens.opens first false stack
  exact ⟨first, member.needs _ _ _ _ _ _ guarded fills (reads.after opened)⟩

theorem ExactOpens.next {t u : Text} (opens : ExactOpens token t members P)
    (member : ExactMember token u name v Q) (gap : Nat) :
    ExactOpens token (t ++ (u ++ byte ',' :: blanks gap)) (members ++ [(name, v)]) (P ∧ Q) where
  opens holds := by
    have opened := (opens.opens holds.1).comma (member.reads holds.2) (spaces_blanks gap)
    rwa [List.append_assoc] at opened
  needs stack tail d more guarded fills reads := by
    have plain : Plain (byte ',' :: blanks gap) := plain_cons.mpr ⟨rfl, plain_blanks gap⟩
    rw [List.append_assoc, List.singleton_append] at fills
    rw [List.append_assoc, List.append_assoc] at reads
    exact opens.needs_both member (guarded.append plain) fills reads

theorem ExactOpens.close {t u : Text} (opens : ExactOpens token t members P)
    (member : ExactMember token u name v Q) (gap : Nat) :
    Exact token (t ++ (u ++ (blanks gap ++ [byte '}']))) (.object (members ++ [(name, v)])) (P ∧ Q) where
  yields holds := by
    intro closable stack
    obtain ⟨c, opened⟩ := opens.opens holds.1 closable stack
    obtain ⟨p, ran, complete⟩ := member.reads holds.2 members c stack
    refine ⟨(.done (.object (members ++ [(name, v)])), stack), ?_, .inl rfl⟩
    rw [run_append, opened, Option.bind_some, run_append, ran, Option.bind_some]
    cases gap with
    | zero => exact (run_cons ..).trans (by rw [complete.next (by decide), afterValue_close_member]; rfl)
    | succ gap =>
      have space : afterValue v (.member members name :: stack) 32 =
          some (.done v, .member members name :: stack) := rfl
      have still : run (feed token) (.done v, .member members name :: stack) (blanks gap) =
          some (.done v, .member members name :: stack) :=
        run_spaces (fun _ space => afterValue_space space) (spaces_blanks gap)
      rw [blanks, List.replicate_succ, List.cons_append, run_cons, complete.next (by decide), space,
        Option.bind_some, run_append]
      rw [← blanks, still]
      rfl
  needs stack tail d guarded fills reads := by
    have plain : Plain (blanks gap ++ [byte '}']) :=
      plain_append.mpr ⟨plain_blanks gap, plain_cons.mpr ⟨rfl, plain_nil⟩⟩
    rw [List.append_assoc, List.append_assoc] at reads
    exact opens.needs_both member (guarded.append plain) fills reads

/-- A spliced string as the value of a member. -/
theorem exact_named (token : Text → Option Json) (key : String) (s : Text) (plain : Plain (lit key)) (gap : Nat) :
    ExactMember token (templateMember key gap (quoted s)) (lit key) (.string s) (Plain s) :=
  (exact_quoted token s).member key plain gap

/-- The first member of an object, with what opens it. -/
theorem ExactMember.first {t : Text} (member : ExactMember token t name v P) (front gap : Nat) :
    ExactOpens token (byte '{' :: blanks front ++ (t ++ byte ',' :: blanks gap)) [(name, v)] P := by
  have opens := (exactOpens_brace token front).next member gap
  rwa [true_and] at opens

/-- The value of the next member is read where its text starts. -/
theorem ExactOpens.inside {t u : Text} (opens : ExactOpens token t members P) (holds : P) (key : String)
    (plain : Plain (lit key))
    (gap : Nat) (reads : Reads token (.start false, stack) (t ++ templateMember key gap u) d) :
    Reads token (.start false, .member members (lit key) :: stack) u d := by
  obtain ⟨closable, opened⟩ := opens.opens holds false stack
  exact (reads.after opened).after (run_templateMember plain gap)

/-- Between two members there is one comma. -/
theorem ExactOpens.stops {t tail : Text} (opens : ExactOpens token t members P)
    (guarded : Guarded (byte ',' :: tail))
    (reads : Reads token (.start false, stack) (t ++ byte ',' :: tail) d) (more : Json.Members) :
    ¬Fill stack (.object (members ++ more)) d := by
  intro fills
  obtain ⟨closable, opened⟩ := opens.opens (opens.needs stack _ d more guarded fills reads) false stack
  have refused : beforeName members closable stack (byte ',') = none := by
    rw [beforeName, if_neg (by decide), if_neg (by decide), if_neg fun both => absurd both.1 (by decide)]
  have last := reads.after opened
  rw [Reads, run_cons, feed_name, refused] at last
  cases last

/-- What a whole text made from a template is read as. -/
theorem Exact.readJson_iff {t : Text} (known : Exact token t v P) : readJson token t = some v ↔ P := by
  constructor
  · intro read
    have whole : Reads token (.start false, []) (t ++ []) v := by
      rw [List.append_nil]
      exact read
    exact known.needs [] [] v guarded_nil (by rw [Fill]) whole
  · intro holds
    exact yields_iff_readJson.mp (known.yields holds)

end MujinClient
