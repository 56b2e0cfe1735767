import MujinClient.TaskParameters

/-! Task parameters that are written and read back. The program is escaped, the other strings are not, and
what stands in the place of the parameters has to be there. -/
namespace MujinClient

open Transition Loading

def firstMember (key : String) (gap : Nat) : Text := byte '{' :: (quoted (lit key) ++ byte ':' :: blanks gap)

def nextMember (key : String) : Text := byte ',' :: (blanks 1 ++ (quoted (lit key) ++ [byte ':']))

section

variable {token : Text → Option Json} {t u : Text}

theorem reads_append (ran : run (feed token) p t = some q) : Reads token p (t ++ u) d ↔ Reads token q u d := by
  rw [Reads, run_append, ran]
  rfl

theorem reads_value (yields : Yields token t v) (ends : isTokenByte b = false) :
    Reads token (.start false, stack) (t ++ b :: u) d ↔ Reads token (.done v, stack) (b :: u) d := by
  rw [Reads, Reads, run_value yields ends, run_cons]
  rfl

theorem reads_firstMember {key : String} (plain : Plain (lit key)) (gap : Nat) :
    Reads token (.start false, stack) (firstMember key gap ++ u) d ↔
      Reads token (.start false, .member [] (lit key) :: stack) u d := by
  refine reads_append ?_
  have opens : feed token (.start false, stack) (byte '{') = some (.name [] true, stack) := rfl
  rw [firstMember, run_cons, opens, Option.bind_some]
  exact run_templateMember plain gap

theorem reads_nextMember {key : String} (plain : Plain (lit key)) :
    Reads token (.done v, .member before name :: stack) (nextMember key ++ u) d ↔
      Reads token (.start false, .member (before ++ [(name, v)]) (lit key) :: stack) u d := by
  refine reads_append ?_
  have comma : feed token (.done v, .member before name :: stack) (byte ',') =
      some (.name (before ++ [(name, v)]) false, stack) :=
    afterValue_comma_member
  rw [nextMember, run_cons, comma, Option.bind_some, run_append, run_name_spaces (spaces_blanks 1),
    Option.bind_some]
  exact run_templateMember plain 0

theorem reads_member {key : String} (yields : Yields token t v) (plain : Plain (lit key)) :
    Reads token (.start false, .member before name :: stack) (t ++ (nextMember key ++ u)) d ↔
      Reads token (.start false, .member (before ++ [(name, v)]) (lit key) :: stack) u d :=
  (reads_value yields (by decide)).trans (reads_nextMember plain)

theorem not_reads_comma : ¬Reads token (.start false, stack) (byte ',' :: u) d := by
  intro reads
  obtain ⟨q, taken, -⟩ := reads.step
  cases taken

theorem not_reads_word (unknown : token t = none) (letters : t ≠ [] ∧ ∀ b ∈ t, isTokenByte b = true)
    (ends : isTokenByte b = false) : ¬Reads token (.start false, stack) (t ++ b :: u) d := by
  obtain ⟨some, all⟩ := letters
  obtain ⟨c, t, rfl⟩ := List.exists_cons_of_ne_nil some
  have ran : run (feed token) (.start false, stack) (c :: t) = .some (.token (c :: t), stack) := by
    rw [run_cons, feed_start, beforeValue_token (all c List.mem_cons_self), Option.bind_some]
    exact run_token_bytes fun b later => all b (List.mem_cons_of_mem _ later)
  rw [reads_append ran]
  intro reads
  obtain ⟨q, taken, -⟩ := reads.step
  rw [feed_token_end ends, unknown] at taken
  cases taken

end

def normalizeNewlines : Text → Text
  | b :: c :: t => if b = 13 ∧ c = 10 then 10 :: normalizeNewlines t else b :: normalizeNewlines (c :: t)
  | t => t

theorem length_normalizeNewlines (t : Text) : (normalizeNewlines t).length ≤ t.length := by
  fun_induction normalizeNewlines t with
  | case1 b c t crlf ih =>
    simp only [List.length_cons]
    omega
  | case2 b c t other ih => simpa using ih
  | case3 t short => exact le_rfl

/-- A text that does not get shorter has no line end to change. -/
theorem normalizeNewlines_eq_self (same : (normalizeNewlines t).length = t.length) : normalizeNewlines t = t := by
  fun_induction normalizeNewlines t with
  | case1 b c t crlf ih =>
    have bound := length_normalizeNewlines t
    simp only [List.length_cons] at same
    omega
  | case2 b c t other ih => rw [ih (Nat.succ.inj same)]
  | case3 t short => rfl

namespace TaskResource

open Replacement

theorem serachpairs_first {p : Replacement} (member : p ∈ serachpairs) (here : p.first <+: b :: t) :
    b = byte '"' ∨ b = 10 ∨ b = 13 ∧ ∃ rest, t = 10 :: rest := by
  simp only [serachpairs, List.mem_cons, List.not_mem_nil, or_false] at member
  rcases member with rfl | rfl | rfl
  · exact .inl (List.cons_prefix_cons.mp here).1.symm
  · exact .inr (.inl (List.cons_prefix_cons.mp here).1.symm)
  · obtain ⟨first, rest, rfl⟩ := List.cons_prefix_cons.mp here
    exact .inr (.inr ⟨first.symm, rest, rfl⟩)

theorem longest_quote (t : Text) : Longest serachpairs ⟨lit "\"", lit "\\\"", quote_nonempty⟩ (byte '"' :: t) := by
  refine ⟨[], _, rfl, ⟨t, rfl⟩, by simp, fun q member here => ?_⟩
  rcases List.mem_cons.mp member with rfl | last
  · exact le_rfl
  · obtain rfl := List.mem_singleton.mp last
    exact absurd (List.cons_prefix_cons.mp here).1 (by decide)

theorem longest_newline (t : Text) : Longest serachpairs ⟨lit "\n", lit "\\n", newline_nonempty⟩ (10 :: t) := by
  have apart : ∀ q : Replacement, q.first.head? ≠ some 10 → ¬q.first <+: 10 :: t := by
    intro q differs here
    obtain ⟨c, rest, shape⟩ := List.exists_cons_of_ne_nil q.nonempty
    rw [shape] at here differs
    exact differs (congrArg some (List.cons_prefix_cons.mp here).1)
  refine ⟨[_], _, rfl, ⟨t, rfl⟩, fun q member here => absurd here (apart q ?_), fun q member here =>
    absurd here (apart q ?_)⟩
  · obtain rfl := List.mem_singleton.mp member
    decide
  · obtain rfl := List.mem_singleton.mp member
    decide

theorem longest_carriageReturn (t : Text) :
    Longest serachpairs ⟨lit "\r\n", lit "\\n", carriageReturn_nonempty⟩ (13 :: 10 :: t) := by
  refine ⟨[_, _], [], rfl, ⟨t, rfl⟩, fun q member here => ?_, by simp⟩
  rcases List.mem_cons.mp member with rfl | last
  · exact absurd (List.cons_prefix_cons.mp here).1 (by decide)
  · obtain rfl := List.mem_singleton.mp last
    exact absurd (List.cons_prefix_cons.mp here).1 (by decide)

theorem replaces_byte {out : Text} (other : ∀ rest, ¬(b = 13 ∧ t = 10 :: rest))
    (rest : Replaces serachpairs t out) :
    Replaces serachpairs (b :: t) (escapeLine b ++ out) := by
  rcases escapeLine_cases b with ⟨rfl, text⟩ | ⟨rfl, text⟩ | ⟨quote, line, text⟩ <;> rw [text]
  · exact .replaces _ (longest_quote t) rest
  · exact .replaces _ (longest_newline t) rest
  · refine .copies b (fun p member here => ?_) rest
    rcases serachpairs_first member here with first | first | ⟨first, behind, shape⟩
    · exact quote first
    · exact line first
    · exact other behind ⟨first, shape⟩

theorem replaces_program (program : Text) :
    Replaces serachpairs program ((normalizeNewlines program).flatMap escapeLine) := by
  fun_induction normalizeNewlines program with
  | case1 b c t crlf ih =>
    obtain ⟨rfl, rfl⟩ := crlf
    exact .replaces _ (longest_carriageReturn t) ih
  | case2 b c t other ih =>
    refine replaces_byte (fun rest both => other ⟨both.1, ?_⟩) ih
    exact (List.cons.inj both.2).1
  | case3 t short =>
    rcases t with _ | ⟨b, _ | ⟨c, t⟩⟩
    · exact .done
    · exact replaces_byte (by simp) .done
    · exact absurd rfl (short b c t)

theorem searchAndReplace_serachpairs (program : Text) :
    searchAndReplace program serachpairs = (normalizeNewlines program).flatMap escapeLine := by
  obtain ⟨result, run, replaces⟩ := replaceFrom_replaces serachpairs program [] 0
  rw [searchAndReplace, run, List.nil_append]
  exact replaces.unique (replaces_program program)

variable {R : Type}

def flagsText (taskparameters : ITLPlanningTaskParameters R) : Text :=
  nextMember "startfromcurrent" ++ (quoted (OptimizationResource.flagString taskparameters.startfromcurrent) ++
    (nextMember "ignorefigure" ++ (quoted (OptimizationResource.flagString taskparameters.ignorefigure) ++
      (nextMember "vrcruns" ++ (intText taskparameters.vrcruns.val ++ lit "   \x7d \x7d")))))

/-- The strings that are spliced as they are, and what is left behind them. -/
def stringsText (taskparameters : ITLPlanningTaskParameters R) : Text :=
  quoted taskparameters.unit ++
    (nextMember "returnmode" ++ (quoted taskparameters.returnmode ++ flagsText taskparameters))

def parametersText (taskparameters : ITLPlanningTaskParameters R) : Text :=
  nextMember "parameters" ++ (taskparameters.parameters ++ (nextMember "unit" ++ stringsText taskparameters))

/-- The body, with this text in the place of the program. -/
def taskText (program : Text) (taskparameters : ITLPlanningTaskParameters R) : Text :=
  firstMember "tasktype" 1 ++
    (quoted (lit "itlplanning") ++ (nextMember "taskparameters" ++ (firstMember "optimizationvalue" 0 ++
    (printFixed 6 taskparameters.optimizationvalue ++
      (nextMember "program" ++ (program ++ parametersText taskparameters))))))

variable {print : R → Text} {taskparameters : ITLPlanningTaskParameters R}

theorem taskgoalput_eq (initial : taskparameters.initial_envstate = .empty)
    (final : taskparameters.final_envstate = .empty) :
    taskgoalput print taskparameters = taskText
      (quoted ((normalizeNewlines taskparameters.program).flatMap escapeLine)) taskparameters := by
  have empty : ∀ name, envstateText print name .empty = [] := fun _ => rfl
  have start : lit "\x7b\"tasktype\": \"itlplanning\", \"taskparameters\":\x7b\"optimizationvalue\":" =
      firstMember "tasktype" 1 ++
    (quoted (lit "itlplanning") ++ (nextMember "taskparameters" ++ firstMember "optimizationvalue" 0)) := by
      decide +kernel
  have program : lit ", \"program\":\"" = nextMember "program" ++ [byte '"'] := by decide +kernel
  have parameters : lit "\", \"parameters\":" = [byte '"'] ++ nextMember "parameters" := by decide +kernel
  have unit : lit ", \"unit\":\"" = nextMember "unit" ++ [byte '"'] := by decide +kernel
  have returnmode : lit "\", \"returnmode\":\"" = [byte '"'] ++ nextMember "returnmode" ++ [byte '"'] := by
    decide +kernel
  have startfromcurrent : lit "\", \"startfromcurrent\":\"" = [byte '"'] ++ nextMember "startfromcurrent" ++
      [byte '"'] := by
    decide +kernel
  have ignorefigure : lit "\", \"ignorefigure\":\"" = [byte '"'] ++ nextMember "ignorefigure" ++
      [byte '"'] := by decide +kernel
  have vrcruns : lit "\", \"vrcruns\":" = [byte '"'] ++ nextMember "vrcruns" := by decide +kernel
  have braces : lit " " ++ (lit " " ++ lit " \x7d \x7d") = lit "   \x7d \x7d" := by decide +kernel
  unfold taskgoalput
  rw [initial, final, empty, empty, searchAndReplace_serachpairs]
  simp only [start, program, parameters, unit, returnmode, startfromcurrent, ignorefigure, vrcruns]
  simp only [taskText, parametersText, stringsText, flagsText, quoted, List.append_assoc, List.cons_append,
    List.nil_append, braces]

/-- The members that are meant. -/
def members (optimizationvalue : Json) (program : Text) (parameters : Json)
    (taskparameters : ITLPlanningTaskParameters R) : Json.Members :=
  [(lit "optimizationvalue", optimizationvalue), (lit "program", .string program), (lit "parameters", parameters),
    (lit "unit", .string taskparameters.unit), (lit "returnmode", .string taskparameters.returnmode),
    (lit "startfromcurrent", .string (OptimizationResource.flagString taskparameters.startfromcurrent)),
    (lit "ignorefigure", .string (OptimizationResource.flagString taskparameters.ignorefigure)),
    (lit "vrcruns", saveInteger .int taskparameters.vrcruns)]

def taskDocument (taskparametersjson : Json) : Json :=
  .object [(lit "tasktype", .string (lit "itlplanning")), (lit "taskparameters", taskparametersjson)]

def outside : List Frame := [.member [(lit "tasktype", .string (lit "itlplanning"))] (lit "taskparameters")]

theorem yields_optimizationvalue {d : Double} (finite : d.isFinite = true) :
    ∃ v r, Yields standardToken (printFixed 6 d) v ∧ v.getDouble? = some r := by
  cases d with
  | nan | infinite => simp [Double.isFinite] at finite
  | finite x =>
    obtain ⟨decimal, read⟩ := number?_printFixed 6 x
    have known : ∃ r, decimal.value.getDouble? = some r := by
      unfold Decimal.value
      split_ifs <;> exact ⟨_, rfl⟩
    obtain ⟨r, known⟩ := known
    exact ⟨decimal.value, r, yields_decimal read, known⟩

theorem reads_program (yields : Yields standardToken (printFixed 6 taskparameters.optimizationvalue) v)
    {program : Text} :
    readJson standardToken (taskText program taskparameters) = some pt ↔
      Reads standardToken (.start false, .member [(lit "optimizationvalue", v)] (lit "program") :: outside)
        (program ++ parametersText taskparameters) pt := by
  rw [readJson_eq_some, taskText, reads_firstMember (plain_lit _ (by decide)),
    reads_member (yields_quoted (plain_lit _ (by decide)))
    (plain_lit _ (by decide)), reads_firstMember (plain_lit _ (by decide)),
      reads_member yields (plain_lit _ (by decide))]
  rfl

theorem finite_of_read {program : Text}
    (read : readJson standardToken (taskText program taskparameters) = some pt) :
    taskparameters.optimizationvalue.isFinite = true := by
  rw [readJson_eq_some, taskText, reads_firstMember (plain_lit _ (by decide)),
    reads_member (yields_quoted (plain_lit _ (by decide)))
    (plain_lit _ (by decide)), reads_firstMember (plain_lit _ (by decide))] at read
  have refused : ∀ word, standardToken word = none → word ≠ [] ∧ AllTokenBytes word →
      printFixed 6 taskparameters.optimizationvalue ≠ word := by
    rintro word unknown letters rfl
    exact not_reads_word unknown letters (by decide) read
  cases known : taskparameters.optimizationvalue with
  | finite x => rfl
  | nan => exact absurd (congrArg (printFixed 6) known) (refused _ rfl (printDouble_bare 6 .nan))
  | infinite negative =>
    cases negative with
    | false => exact absurd (congrArg (printFixed 6) known) (refused _ rfl (printDouble_bare 6 (.infinite false)))
    | true => exact absurd (congrArg (printFixed 6) known) (refused _ rfl (printDouble_bare 6 (.infinite true)))

/-- Where the strings read as themselves, the rest does, too. -/
theorem reads_strings (unit : Plain taskparameters.unit) (returnmode : Plain taskparameters.returnmode) :
    Reads standardToken (.start false, .member before (lit "unit") :: outside) (stringsText taskparameters) pt ↔
      pt = taskDocument
        (.object (before ++ [(lit "unit", .string taskparameters.unit),
        (lit "returnmode", .string taskparameters.returnmode),
        (lit "startfromcurrent", .string (OptimizationResource.flagString taskparameters.startfromcurrent)),
        (lit "ignorefigure", .string (OptimizationResource.flagString taskparameters.ignorefigure)),
        (lit "vrcruns", saveInteger .int taskparameters.vrcruns)])) := by
  have vrcruns : Yields standardToken (intText taskparameters.vrcruns.val)
      (saveInteger .int taskparameters.vrcruns) :=
    yields_intText standardToken_reader
      ⟨taskparameters.vrcruns.val, taskparameters.vrcruns.property.jsonRange (by decide)⟩
  have ends : ∀ (inner : Json.Members) (v : Json),
      Reads standardToken (.done v, .member inner (lit "vrcruns") :: outside) (lit "   \x7d \x7d") pt ↔
        some (taskDocument (.object (inner ++ [(lit "vrcruns", v)]))) = some pt := fun _ _ => Iff.rfl
  have last : lit "   \x7d \x7d" = 32 :: lit "  \x7d \x7d" := rfl
  rw [stringsText, reads_member (yields_quoted unit) (plain_lit _ (by decide)), flagsText,
    reads_member (yields_quoted returnmode) (plain_lit _ (by decide)),
    reads_member (yields_quoted (TemplatedRequest.plain_flagString _)) (plain_lit _ (by decide)),
    reads_member (yields_quoted (TemplatedRequest.plain_flagString _)) (plain_lit _ (by decide)), last,
      reads_value vrcruns (by decide), ← last, ends, Option.some.injEq, eq_comm]
  simp only [List.append_assoc, List.cons_append, List.nil_append]

theorem template_nextMember {key : String} (plain : Plain (lit key)) : Template (nextMember key) := by
  refine template_cons.mpr
    ⟨.inl (by decide), template_append.mpr ⟨(plain_blanks 1).template, template_append.mpr ⟨?_, ?_⟩⟩⟩
  · exact template_quoted plain
  · exact template_cons.mpr ⟨.inl (by decide), by simp [Template]⟩

theorem separates_nextMember {key : String} (named : lit key = c :: name) (letter : isTokenByte c = true)
    (rest : Text) :
    Separates (nextMember key ++ rest) := by
  have plain : Plain (byte ',' :: blanks 1) := plain_cons.mpr ⟨by decide, plain_blanks 1⟩
  have separates := separates_name plain letter (name ++ byte '"' :: byte ':' :: rest)
  rw [nextMember, named]
  simpa only [quoted, List.append_assoc, List.cons_append, List.nil_append] using separates

theorem plain_digits {t : Text} (digits : ∀ b ∈ t, isDigit b = true) : Plain t := by
  intro b inside
  have digit := (isDigit_iff b).mp (digits b inside)
  have quote : b ≠ byte '"' := by
    rintro rfl
    exact absurd digit (by decide)
  have backslash : b ≠ byte '\\' := by
    rintro rfl
    exact absurd digit (by decide)
  simp only [isPlain, Bool.and_eq_true, decide_eq_true_eq]
  exact ⟨⟨by omega, quote⟩, backslash⟩

theorem plain_intText (z : Int) : Plain (intText z) := by
  unfold intText
  split
  · exact plain_cons.mpr ⟨by decide, plain_digits (natText_digits _)⟩
  · exact plain_digits (natText_digits _)

theorem template_flagsText (taskparameters : ITLPlanningTaskParameters R) :
    Template (byte '"' :: flagsText taskparameters) := by
  have flag := fun f => template_quoted (TemplatedRequest.plain_flagString f)
  refine template_cons.mpr ⟨.inr rfl, ?_⟩
  rw [flagsText]
  refine template_append.mpr ⟨template_nextMember (plain_lit _ (by decide)), template_append.mpr ⟨flag _, ?_⟩⟩
  refine template_append.mpr ⟨template_nextMember (plain_lit _ (by decide)), template_append.mpr ⟨flag _, ?_⟩⟩
  refine template_append.mpr ⟨template_nextMember (plain_lit _ (by decide)), template_append.mpr ⟨?_, ?_⟩⟩
  · exact (plain_intText _).template
  · exact (plain_lit _ (by decide)).template

theorem quoted_append (s t : Text) : quoted s ++ t = byte '"' :: (s ++ byte '"' :: t) := by
  rw [quoted, List.append_assoc]
  rfl

/-- A string that starts behind the parameters is shorter than the unit or the mode that made it, or
plain. -/
theorem short_of_starts {t : Text} (starts : Starts (stringsText taskparameters) t) :
    Short taskparameters.unit t ∨ Short taskparameters.returnmode t := by
  rw [stringsText, quoted_append] at starts
  rcases starts_quoted (separates_nextMember rfl (by decide) _) starts with short | later
  · exact .inl short
  · rw [quoted_append, ← List.cons_append] at later
    have template : Template (byte '"' :: nextMember "returnmode") :=
      template_cons.mpr ⟨.inr rfl, template_nextMember (plain_lit _ (by decide))⟩
    rcases starts_template template later with plain | mode
    · exact .inl (.inl plain)
    · rcases starts_quoted (separates_nextMember rfl (by decide) _) mode with short | last
      · exact .inr short
      · exact .inl (.inl (starts_last (template_flagsText taskparameters) last))

theorem cString_plain {t : Text} (plain : Plain t) : cString t = t :=
  cString_of_nulFree t fun zero => absurd (plain 0 zero) (by decide)

theorem plain_cString {t : Text} (plain : Plain t) : Plain (cString t) :=
  fun b inside => plain b (List.takeWhile_subset _ inside)

/-- What is read back as itself is plain, or another string made it. -/
theorem plain_or_shorter {u m t : Text} (short : Short u t ∨ Short m t) (same : cString t = u) :
    Plain u ∨ ¬Plain m ∧ u.length < m.length := by
  have cut : u.length ≤ t.length := by
    rw [← same]
    exact (List.takeWhile_prefix _).length_le
  rcases short with (plain | ⟨-, shorter⟩) | (plain | ⟨unplain, shorter⟩)
  · exact .inl (same ▸ plain_cString plain)
  · omega
  · exact .inl (same ▸ plain_cString plain)
  · exact .inr ⟨unplain, by omega⟩

theorem forEach_cons {ε σ α : Type} {p : α → Loading ε σ Unit} {x : α} {xs : List α} {s s' : σ}
    (first : p x s = (.ok (), s')) :
    forEach p (x :: xs) s = forEach p xs s' := bind_ok first

theorem zoom_ok {ε σ τ α : Type} {view : σ → τ} {put : τ → σ → σ} {p : Loading ε τ α} {a : α} {s : σ} {x : τ}
    (inner : p (view s) = (.ok a, x)) : zoom view put p s = (.ok a, put x s) := by
  rw [zoom, inner]

variable [Zero R] [One R] [Add R] [Mul R] [Div R] [LT R] [DecidableLT R] {sqrt : R → R} {platform : Platform}
  {number : Json → Except LoadError R}

theorem getTaskParameters_object (inside more : Json.Members) (primaryKey : Text)
    (before : ITLPlanningTaskParameters R) :
    getTaskParameters sqrt platform number
      (fun _ => .ok (.object ([(lit "tasktype", .string (lit "itlplanning"))] ++
        (lit "taskparameters", .object inside) :: more)))
      primaryKey before = readTaskParameters sqrt platform number (.object inside) inside before.setDefaults := rfl

def restored (r : Double) (program : Text) (parameters : Json) (platform : Platform)
    (taskparameters start : ITLPlanningTaskParameters R) :
    ITLPlanningTaskParameters R :=
  { start with
    optimizationvalue := r
    program := cString program
    parameters := dumpIndented platform 2 0 parameters
    unit := cString taskparameters.unit
    returnmode := cString taskparameters.returnmode
    startfromcurrent := intOfBool (taskparameters.startfromcurrent.val ≠ 0)
    ignorefigure := intOfBool (taskparameters.ignorefigure.val ≠ 0)
    vrcruns := taskparameters.vrcruns }

theorem isTrue_flagString (flag : int32.Value) :
    isTrue (.string (OptimizationResource.flagString flag)) = .ok (flag.val ≠ 0) := by
  unfold OptimizationResource.flagString
  split
  · rename_i set
    rw [decide_eq_true set]
    rfl
  · rename_i clear
    rw [decide_eq_false clear]
    rfl

theorem loadByKey_int {inside : Json.Members} {key : String} {z : IntType.int.Value}
    (found : Json.findMember inside (lit key) = some (saveInteger .int z)) (before : IntType.int.Value) :
    loadJsonValueByKey (loadJsonValue platform (.integer .int)) (.object inside) key before = (.ok (), z) := by
  have loaded : assign (fun x _ => x) (loadInteger .int (saveInteger .int z)) before = (.ok (), z) := by
    rw [loadInteger_save]
    rfl
  unfold loadJsonValueByKey
  simp only [found]
  exact congrArg (fun o : Except LoadError Unit × IntType.int.Value =>
    (o.1.mapError (LoadError.atKey (lit key)), o.2)) loaded

section

variable {taskparametersjson v : Json} {t : Text} {s : ITLPlanningTaskParameters R × ReturnFields}

theorem readTaskParameter_optimizationvalue
    (loaded : loadJsonValueByKey (loadJsonValue platform .double) taskparametersjson "optimizationvalue"
      s.1.optimizationvalue = (.ok (), r)) :
    readTaskParameter sqrt platform number taskparametersjson (lit "optimizationvalue", v) s =
      (.ok (), ({ s.1 with optimizationvalue := r }, s.2)) := by
  have chosen : readTaskParameter sqrt platform number taskparametersjson (lit "optimizationvalue", v) =
    zoom (·.1.optimizationvalue) (fun x s => ({ s.1 with optimizationvalue := x }, s.2))
      (loadJsonValueByKey (loadJsonValue platform .double) taskparametersjson "optimizationvalue") := rfl
  rw [chosen]
  exact zoom_ok loaded

theorem readTaskParameter_program :
    readTaskParameter sqrt platform number taskparametersjson (lit "program", .string t) s =
    (.ok (), ({ s.1 with program := cString t }, s.2)) := rfl

theorem readTaskParameter_parameters :
    readTaskParameter sqrt platform number taskparametersjson (lit "parameters", v) s =
    (.ok (), ({ s.1 with parameters := dumpIndented platform 2 0 v }, s.2)) := rfl

theorem readTaskParameter_unit :
    readTaskParameter sqrt platform number taskparametersjson (lit "unit", .string t) s =
    (.ok (), ({ s.1 with unit := cString t }, s.2)) := rfl

theorem readTaskParameter_returnmode :
    readTaskParameter sqrt platform number taskparametersjson (lit "returnmode", .string t) s =
    (.ok (), ({ s.1 with returnmode := cString t }, { s.2 with bhasreturnmode := true })) := rfl

theorem readTaskParameter_startfromcurrent (known : isTrue v = .ok b) :
    readTaskParameter sqrt platform number taskparametersjson (lit "startfromcurrent", v) s =
      (.ok (), ({ s.1 with startfromcurrent := intOfBool b }, s.2)) := by
  have chosen : readTaskParameter sqrt platform number taskparametersjson (lit "startfromcurrent", v) =
    assign (fun b s => ({ s.1 with startfromcurrent := intOfBool b }, s.2)) (isTrue v) := rfl
  rw [chosen, known]
  rfl

theorem readTaskParameter_ignorefigure (known : isTrue v = .ok b) :
    readTaskParameter sqrt platform number taskparametersjson (lit "ignorefigure", v) s =
      (.ok (), ({ s.1 with ignorefigure := intOfBool b }, s.2)) := by
  have chosen : readTaskParameter sqrt platform number taskparametersjson (lit "ignorefigure", v) =
    assign (fun b s => ({ s.1 with ignorefigure := intOfBool b }, s.2)) (isTrue v) := rfl
  rw [chosen, known]
  rfl

theorem readTaskParameter_vrcruns
    (loaded : loadJsonValueByKey (loadJsonValue platform (.integer .int)) taskparametersjson "vrcruns"
      s.1.vrcruns = (.ok (), z)) :
    readTaskParameter sqrt platform number taskparametersjson (lit "vrcruns", v) s =
      (.ok (), ({ s.1 with vrcruns := z }, s.2)) := by
  have chosen : readTaskParameter sqrt platform number taskparametersjson (lit "vrcruns", v) =
    zoom (·.1.vrcruns) (fun x s => ({ s.1 with vrcruns := x }, s.2))
      (loadJsonValueByKey (loadJsonValue platform (.integer .int)) taskparametersjson "vrcruns") := rfl
  rw [chosen]
  exact zoom_ok loaded

end

theorem readTaskParameters_members (known : v.getDouble? = some r) (program : Text) (parameters : Json)
    (taskparameters start : ITLPlanningTaskParameters R) :
    readTaskParameters sqrt platform number (.object (members v program parameters taskparameters))
      (members v program parameters taskparameters) start =
        (.ok (), restored r program parameters platform taskparameters start) := by
  have ran : forEach
      (readTaskParameter sqrt platform number (.object (members v program parameters taskparameters)))
      (members v program parameters taskparameters) (start, ⟨false, false, false⟩) =
      (.ok (), (restored r program parameters platform taskparameters start, ⟨true, false, false⟩)) := by
    refine (forEach_cons (readTaskParameter_optimizationvalue (loadByKey_double rfl known _))).trans ?_
    refine (forEach_cons readTaskParameter_program).trans ?_
    refine (forEach_cons readTaskParameter_parameters).trans ?_
    refine (forEach_cons readTaskParameter_unit).trans ?_
    refine (forEach_cons readTaskParameter_returnmode).trans ?_
    refine (forEach_cons (readTaskParameter_startfromcurrent (isTrue_flagString _))).trans ?_
    refine (forEach_cons (readTaskParameter_ignorefigure (isTrue_flagString _))).trans ?_
    exact forEach_cons (readTaskParameter_vrcruns (loadByKey_int rfl _))
  rw [readTaskParameters, zoom, bind_ok ran]
  rfl

def Gives (name : String) (v : Text × Json) (t : Text) : Prop := cString v.1 = lit name ∧ getCString v.2 = .ok t

/-- A turn of the loop keeps the unit and the mode, or takes them from the member. -/
structure Origin (v : Text × Json) (s s' : ITLPlanningTaskParameters R × ReturnFields) : Prop where
  unit : s'.1.unit = s.1.unit ∨ Gives "unit" v s'.1.unit
  returnmode : s'.1.returnmode = s.1.returnmode ∨ Gives "returnmode" v s'.1.returnmode

variable {taskparametersjson : Json} {v : Text × Json}

theorem moves_readTaskParameter :
    Moves (Origin v) (readTaskParameter sqrt platform number taskparametersjson v) := by
  unfold readTaskParameter
  refine moves_ite (fun _ => moves_assign fun _ _ _ => ⟨.inl rfl, .inl rfl⟩) fun _ => ?_
  refine moves_ite (fun _ => moves_assign fun _ _ _ => ⟨.inl rfl, .inl rfl⟩) fun _ => ?_
  refine moves_ite (fun name => moves_assign fun _ known _ => ⟨.inl rfl, .inr ⟨name, known⟩⟩) fun _ => ?_
  refine moves_ite (fun _ => moves_assign fun _ _ _ => ⟨.inl rfl, .inl rfl⟩) fun _ => ?_
  refine moves_ite (fun _ => moves_zoom fun _ _ => ⟨.inl rfl, .inl rfl⟩) fun _ => ?_
  refine moves_ite (fun name => moves_assign fun _ known _ => ⟨.inr ⟨name, known⟩, .inl rfl⟩) fun _ => ?_
  refine moves_ite (fun _ => moves_zoom fun _ _ => ⟨.inl rfl, .inl rfl⟩) fun _ => ?_
  refine moves_ite (fun _ => moves_assign fun _ _ _ => ⟨.inl rfl, .inl rfl⟩) fun _ => ?_
  refine moves_ite (fun _ => moves_update fun _ => ⟨.inl rfl, .inl rfl⟩) fun _ => ?_
  refine moves_ite (fun _ => moves_zoom fun _ _ => ⟨.inl rfl, .inl rfl⟩) fun _ => ?_
  refine moves_ite (fun _ => moves_zoom fun _ _ => ⟨.inl rfl, .inl rfl⟩) fun _ => ?_
  exact moves_update fun _ => ⟨.inl rfl, .inl rfl⟩

variable {inside : Json.Members} {start back : ITLPlanningTaskParameters R}

/-- Unless a member gives them, the unit and the mode are defaults. -/
theorem readTaskParameters_origin (ran : readTaskParameters sqrt platform number taskparametersjson inside
    start.setDefaults = (.ok (), back)) :
    (Plain back.unit ∨ ∃ v ∈ inside, Gives "unit" v back.unit) ∧
      (Plain back.returnmode ∨ ∃ v ∈ inside, Gives "returnmode" v back.returnmode) := by
  obtain ⟨final, whole, rfl⟩ := zoom_eq_ok ran
  obtain ⟨_, middle, loop, last⟩ := bind_eq_ok whole
  obtain rfl := (Prod.mk.inj last).2
  have turns : ∀ v, Moves (Origin v) (readTaskParameter sqrt platform number taskparametersjson v) :=
    fun _ => moves_readTaskParameter
  have unit : middle.1.unit = lit "mm" ∨ ∃ v ∈ inside, Gives "unit" v middle.1.unit :=
    forEach_origin (·.1.unit) (fun v s s' step => (turns v s s' step).unit) inside loop
  have returnmode : middle.1.returnmode = lit "start" ∨ ∃ v ∈ inside, Gives "returnmode" v middle.1.returnmode :=
    forEach_origin (·.1.returnmode) (fun v s s' step => (turns v s s' step).returnmode) inside loop
  have millimeters : Plain (lit "mm") := plain_lit _ (by decide)
  have atStart : Plain (lit "start") := plain_lit _ (by decide)
  have plainUnit : Plain middle.1.unit ∨ ∃ v ∈ inside, Gives "unit" v middle.1.unit := by
    rcases unit with same | given
    · exact .inl (same ▸ millimeters)
    · exact .inr given
  dsimp only [keepReturnMode]
  split_ifs with old flag
  · exact ⟨plainUnit, .inl atStart⟩
  · exact ⟨plainUnit, .inl plain_nil⟩
  · refine ⟨plainUnit, ?_⟩
    rcases returnmode with same | given
    · exact .inl (same ▸ atStart)
    · exact .inr given

end TaskResource

namespace ITLPlanningTaskParameters

open TaskResource

section

variable {R : Type}

/-- What is to come back. -/
structure SameTask (taskparameters back : ITLPlanningTaskParameters R) : Prop where
  returnmode : back.returnmode = taskparameters.returnmode
  unit : back.unit = taskparameters.unit
  vrcruns : back.vrcruns = taskparameters.vrcruns
  startfromcurrent : back.startfromcurrent = taskparameters.startfromcurrent
  ignorefigure : back.ignorefigure = taskparameters.ignorefigure
  program : normalizeNewlines back.program = normalizeNewlines taskparameters.program

variable (print : R → Text) [Zero R] [One R] [Add R] [Mul R] [Div R] [LT R] [DecidableLT R] (sqrt : R → R)
    (platform : Platform) (number : Json → Except LoadError R) (primaryKey : Text)

/-- The body is JSON, and read back as the task of the client it gives the same parameters. -/
def RoundTrips (taskparameters : ITLPlanningTaskParameters R) : Prop :=
  ∃ pt, readJson standardToken (taskgoalput print taskparameters) = some pt ∧ ∀ before, ∃ back,
    getTaskParameters sqrt platform number (fun _ => .ok pt) primaryKey before = (.ok (), back) ∧
      taskparameters.SameTask back

end

section

variable {R : Type} {print : R → Text} [Zero R] [One R] [Add R] [Mul R] [Div R] [LT R] [DecidableLT R]
    {sqrt : R → R} {platform : Platform}
  {number : Json → Except LoadError R} {primaryKey : Text} {taskparameters : ITLPlanningTaskParameters R}

theorem standardToken_bare (t : Text) (v : Json) (known : standardToken t = some v) : v.leaves = [] := by
  rcases Option.or_eq_some_iff.mp known with keyword | ⟨-, number⟩
  · unfold keyword? at keyword
    split_ifs at keyword <;> obtain rfl := Option.some.inj keyword <;> rfl
  · obtain ⟨decimal, -, rfl⟩ := Option.map_eq_some_iff.mp number
    unfold Decimal.value
    split_ifs <;> rfl

theorem normalizeNewlines_free {t : Text} (free : 13 ∉ t) : normalizeNewlines t = t := by
  fun_induction normalizeNewlines t with
  | case1 b c t crlf ih => exact absurd (by simp [crlf.1]) free
  | case2 b c t other ih => rw [ih fun inside => free (List.mem_cons_of_mem _ inside)]
  | case3 t short => rfl

theorem lines_free {q : Text} (lines : Lines q) (b : Byte)
    (control : b ≠ byte '"' ∧ b ≠ 10 ∧ isPlain b = false) : b ∉ q := by
  intro inside
  rcases lines b inside with same | same | plain
  · exact control.1 same
  · exact control.2.1 same
  · exact absurd plain (by simp [control.2.2])

def IsFlag (flag : int32.Value) : Prop := flag.val = 0 ∨ flag.val = 1

theorem IsFlag.intOfBool {flag : int32.Value} (isFlag : IsFlag flag) : intOfBool (flag.val ≠ 0) = flag := by
  refine Subtype.ext ?_
  rcases isFlag with zero | one
  · rw [zero]
    rfl
  · rw [one]
    rfl

/-- What makes the parameters come back. -/
structure Sound (taskparameters : ITLPlanningTaskParameters R) : Prop where
  parameters : taskparameters.parameters ≠ []
  optimizationvalue : taskparameters.optimizationvalue.isFinite = true
  program : Lines (normalizeNewlines taskparameters.program)
  unit : Plain taskparameters.unit
  returnmode : Plain taskparameters.returnmode

theorem Sound.roundTrips (sound : taskparameters.Sound) (startfromcurrent : IsFlag taskparameters.startfromcurrent)
    (ignorefigure : IsFlag taskparameters.ignorefigure) (initial : taskparameters.initial_envstate = .empty)
    (final : taskparameters.final_envstate = .empty) (json : IsJson taskparameters.parameters) :
    RoundTrips print sqrt platform number primaryKey taskparameters := by
  obtain ⟨parameters, json⟩ := json
  obtain ⟨v, r, optimizationvalue, known⟩ := yields_optimizationvalue sound.optimizationvalue
  let q := normalizeNewlines taskparameters.program
  have program : Yields standardToken (quoted (q.flatMap escapeLine)) (.string q) :=
    yields_string (unescapes_escapeLine sound.program)
  refine ⟨taskDocument (.object (members v q parameters taskparameters)), ?_, fun before =>
    ⟨_, readTaskParameters_members known _ _ _ _, ?_⟩⟩
  · rw [taskgoalput_eq initial final, reads_program optimizationvalue, parametersText,
      reads_member program (plain_lit _ (by decide)),
      reads_member (yields_iff_readJson.mpr json) (plain_lit _ (by decide)),
        reads_strings sound.unit sound.returnmode]
    rfl
  · have free : 0 ∉ q := lines_free sound.program 0 (by decide)
    have carriage : 13 ∉ q := lines_free sound.program 13 (by decide)
    exact ⟨cString_plain sound.returnmode, cString_plain sound.unit, rfl, startfromcurrent.intOfBool,
      ignorefigure.intOfBool,
      (congrArg normalizeNewlines (cString_of_nulFree q free)).trans (normalizeNewlines_free carriage)⟩

/-- The members the unit and the mode are taken from start in the rest of the text. -/
theorem plain_of_read {before : Json.Members}
    (others : ∀ v ∈ before, cString v.1 ≠ lit "unit" ∧ cString v.1 ≠ lit "returnmode")
    (reads : Reads standardToken (.start false, .member before (lit "unit") :: outside)
      (stringsText taskparameters) pt)
    (returned : getTaskParameters sqrt platform number (fun _ => .ok pt) primaryKey start = (.ok (), back))
    (unit : back.unit = taskparameters.unit) (returnmode : back.returnmode = taskparameters.returnmode) :
    Plain taskparameters.unit ∧ Plain taskparameters.returnmode := by
  obtain ⟨w, more, fills⟩ := reads.leads
  have starts := reads.members standardToken_bare fills
  obtain ⟨around, rfl⟩ := fills
  rw [getTaskParameters_object] at returned
  obtain ⟨units, modes⟩ := readTaskParameters_origin returned
  rw [unit] at units
  rw [returnmode] at modes
  have short : ∀ name t, (lit name = lit "unit" ∨ lit name = lit "returnmode") →
      (∃ v ∈ before ++ (lit "unit", w) :: more, Gives name v t) →
      ∃ u, (Short taskparameters.unit u ∨ Short taskparameters.returnmode u) ∧ cString u = t := by
    rintro name t named ⟨v, inside, same, given⟩
    have later : v ∈ (lit "unit", w) :: more := by
      rcases List.mem_append.mp inside with early | late
      · rw [← same] at named
        exact (named.elim (others v early).1 (others v early).2).elim
      · exact late
    obtain ⟨n, j⟩ := v
    cases j with
    | string u => exact ⟨u, short_of_starts (starts n u later), Except.ok.inj given⟩
    | _ => cases given
  have plainUnit : Plain taskparameters.unit ∨
      ¬Plain taskparameters.returnmode ∧ taskparameters.unit.length < taskparameters.returnmode.length := by
    rcases units with plain | given
    · exact .inl plain
    · obtain ⟨u, short, same⟩ := short _ _ (.inl rfl) given
      exact plain_or_shorter short same
  have plainMode : Plain taskparameters.returnmode ∨
      ¬Plain taskparameters.unit ∧ taskparameters.returnmode.length < taskparameters.unit.length := by
    rcases modes with plain | given
    · exact .inl plain
    · obtain ⟨u, short, same⟩ := short _ _ (.inr rfl) given
      exact plain_or_shorter short.symm same
  rcases plainUnit with unit | ⟨mode, shorter⟩
  · rcases plainMode with mode | ⟨other, -⟩
    · exact ⟨unit, mode⟩
    · exact absurd unit other
  · rcases plainMode with plain | ⟨-, longer⟩
    · exact absurd plain mode
    · omega

theorem others_before (v : Json) (x : Text) (parameters : Json) :
    ∀ m ∈ [(lit "optimizationvalue", v)] ++ [(lit "program", Json.string x)] ++ [(lit "parameters", parameters)],
      cString m.1 ≠ lit "unit" ∧ cString m.1 ≠ lit "returnmode" := by
  have each : ∀ key ∈ ["optimizationvalue", "program", "parameters"],
      cString (lit key) ≠ lit "unit" ∧ cString (lit key) ≠ lit "returnmode" := by decide
  intro m inside
  simp only [List.cons_append, List.nil_append, List.mem_cons, List.not_mem_nil, or_false] at inside
  rcases inside with rfl | rfl | rfl
  · exact each "optimizationvalue" (by simp)
  · exact each "program" (by simp)
  · exact each "parameters" (by simp)

/-- A program that is read back as the same is what was read of it. -/
theorem normalized_eq {x q : Text} (bound : x.length ≤ q.length)
    (same : normalizeNewlines (cString x) = q) : x = q := by
  have normalized := length_normalizeNewlines (cString x)
  have cut : (cString x).length ≤ x.length := (List.takeWhile_prefix _).length_le
  rw [same] at normalized
  have length : (cString x).length = x.length := by omega
  have whole : cString x = x := (List.takeWhile_prefix _).eq_of_length length
  rw [whole] at same normalized
  rw [← same]
  exact (normalizeNewlines_eq_self (by rw [same]; omega)).symm

theorem sound_of_roundTrips (initial : taskparameters.initial_envstate = .empty)
    (final : taskparameters.final_envstate = .empty)
    (json : taskparameters.parameters = [] ∨ IsJson taskparameters.parameters)
    (roundTrips : RoundTrips print sqrt platform number primaryKey taskparameters) : taskparameters.Sound := by
  obtain ⟨pt, read, each⟩ := roundTrips
  rw [taskgoalput_eq initial final] at read
  have finite := finite_of_read read
  obtain ⟨v, r, optimizationvalue, known⟩ := yields_optimizationvalue finite
  rw [reads_program optimizationvalue, quoted_append] at read
  obtain ⟨x, bound, behind, lines⟩ := read.escaped (separates_nextMember rfl (by decide) _)
  rw [reads_nextMember (plain_lit _ (by decide))] at behind
  obtain ⟨parameters, json⟩ : IsJson taskparameters.parameters := by
    rcases json with empty | json
    · rw [empty] at behind
      exact absurd behind not_reads_comma
    · exact json
  rw [reads_member (yields_iff_readJson.mpr json) (plain_lit _ (by decide))] at behind
  obtain ⟨back, returned, same⟩ := each ITLPlanningTaskParameters.initial
  obtain ⟨unit, returnmode⟩ :=
    plain_of_read (others_before v x parameters) behind returned same.unit same.returnmode
  rw [reads_strings unit returnmode] at behind
  subst behind
  have restores : getTaskParameters sqrt platform number
      (fun _ => .ok (taskDocument (.object (members v x parameters taskparameters))))
      primaryKey ITLPlanningTaskParameters.initial = (.ok (), restored r x parameters platform taskparameters _) :=
    readTaskParameters_members known x parameters taskparameters _
  obtain rfl := (Prod.mk.inj (returned.symm.trans restores)).2
  obtain rfl := normalized_eq bound same.program
  refine ⟨fun empty => ?_, finite, lines rfl, unit, returnmode⟩
  rw [empty] at json
  cases json

variable (print sqrt platform number primaryKey taskparameters) in
/-- Without environment states, parameters come back exactly if there are some, the value is finite,
and no string needs an escape that it does not get. -/
theorem restored_iff (startfromcurrent : IsFlag taskparameters.startfromcurrent)
    (ignorefigure : IsFlag taskparameters.ignorefigure)
    (initial : taskparameters.initial_envstate = .empty) (final : taskparameters.final_envstate = .empty)
    (json : taskparameters.parameters = [] ∨ IsJson taskparameters.parameters) :
    RoundTrips print sqrt platform number primaryKey taskparameters ↔ taskparameters.Sound :=
  ⟨sound_of_roundTrips initial final json, fun sound =>
    sound.roundTrips startfromcurrent ignorefigure initial final (json.resolve_left sound.parameters)⟩

end

section

variable {R : Type} {print : R → Text} [Zero R] [One R] [Add R] [Mul R] [Div R] [LT R] [DecidableLT R]
    {sqrt : R → R} {platform : Platform}
  {number : Json → Except LoadError R} {primaryKey : Text} {taskparameters : ITLPlanningTaskParameters R}

variable (print sqrt platform number primaryKey taskparameters) in
/-- The body of the request is JSON, and read back as the task of the client it gives the same
parameters. -/
def Restored (request : SentRequest) : Prop :=
  ∃ body pt, request.body = [.long body.length, .data body] ∧ readJson standardToken body = some pt ∧
    ∀ before, ∃ back,
    getTaskParameters sqrt platform number (fun _ => .ok pt) primaryKey before = (.ok (), back) ∧
      taskparameters.SameTask back

theorem sends_restored {client : ControllerClient} {h : CurlHandle} :
    Sends (Restored sqrt platform number primaryKey taskparameters) h
      (setTaskParameters print client primaryKey taskparameters) ↔
      RoundTrips print sqrt platform number primaryKey taskparameters := by
  unfold setTaskParameters
  rw [sends_bind fun _ _ => sends_pure, ControllerClient.sends_callPut]
  constructor
  · rintro ⟨body, pt, shape, read, each⟩
    obtain rfl := OptionValue.data.inj (List.cons.inj (List.cons.inj shape).2).1
    exact ⟨pt, read, each⟩
  · rintro ⟨pt, read, each⟩
    exact ⟨_, pt, rfl, read, each⟩

variable (print sqrt platform number primaryKey taskparameters) in
/-- In every run of `SetTaskParameters`, whatever the handle and the answers: what is sent comes back
exactly under the same condition. -/
theorem setTaskParameters_restored_iff (client : ControllerClient)
    (startfromcurrent : IsFlag taskparameters.startfromcurrent)
    (ignorefigure : IsFlag taskparameters.ignorefigure) (initial : taskparameters.initial_envstate = .empty)
    (final : taskparameters.final_envstate = .empty)
    (json : taskparameters.parameters = [] ∨ IsJson taskparameters.parameters) :
    (∀ (h : CurlHandle) trace q, (setTaskParameters print client primaryKey taskparameters).Reaches trace q →
      ∀ request ∈ h.requests trace, Restored sqrt platform number primaryKey taskparameters request) ↔
        taskparameters.Sound := by
  constructor
  · intro carries
    have sends := sends_iff.mpr (carries ⟨fun _ => .null, .get⟩)
    exact sound_of_roundTrips initial final json (sends_restored.mp sends)
  · intro sound h
    have roundTrips : RoundTrips print sqrt platform number primaryKey taskparameters :=
      sound.roundTrips startfromcurrent ignorefigure initial final (json.resolve_left sound.parameters)
    exact sends_iff.mp (sends_restored.mpr roundTrips)

end

def twoLines : ITLPlanningTaskParameters Int :=
  { ITLPlanningTaskParameters.initial with
    program := lit "settool(1)\r\nmove(\"p\")", parameters := lit "\x7b\x7d" }

theorem twoLines_json : IsJson twoLines.parameters := ⟨.object [], rfl⟩

theorem restored_iff_twoLines : RoundTrips intText id default (fun _ => .ok 0) (lit "1") twoLines :=
  (restored_iff intText id default (fun _ => .ok 0) (lit "1") twoLines (.inl rfl) (.inr rfl) rfl rfl
    (.inr twoLines_json)).mpr
    ⟨by simp [twoLines, lit], rfl, by decide +kernel, plain_lit ['m', 'm'] (by decide),
      plain_lit ['s', 't', 'a', 'r', 't'] (by decide)⟩

/-- The default parameters leave a gap in the body. -/
theorem defaults_lost : ¬∀ taskparameters : ITLPlanningTaskParameters Int, IsFlag taskparameters.startfromcurrent →
    IsFlag taskparameters.ignorefigure → taskparameters.initial_envstate = .empty →
      taskparameters.final_envstate = .empty →
    (taskparameters.parameters = [] ∨ IsJson taskparameters.parameters) →
    RoundTrips intText id default (fun _ => .ok 0) (lit "1") taskparameters := by
  intro always
  have roundTrips := always initial (.inl rfl) (.inr rfl) rfl rfl (.inl rfl)
  exact (sound_of_roundTrips rfl rfl (.inl rfl) roundTrips).parameters rfl

end ITLPlanningTaskParameters

end MujinClient
