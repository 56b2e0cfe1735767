import MujinClient.Commands

/-! What a command leaves in the shared task parameters, and when that reaches the text of
a later one. -/
namespace MujinClient

def executeOption (pTraj : Bool) : Text × Text := (lit "execute", if pTraj then lit "0" else lit "1")

/-- A fresh stream prints the speeds. -/
def workspeedText (workspeedlin workspeedrot : Double) : Text :=
  listText [printDouble 6 workspeedrot, printDouble 6 workspeedlin]

def moveToolLinearOptions (workspeedlin workspeedrot : Double) (checkEndeffectorCollision pTraj : Bool) :
    List (Text × Text) :=
  let ignorethresh := if checkEndeffectorCollision then lit "0.0" else lit "1000.0"
  [executeOption pTraj, (lit "workignorefirstcollisionee", ignorethresh),
    (lit "workignorelastcollisionee", ignorethresh), (lit "workignorefirstcollision", ignorethresh)] ++
    if Double.lt Double.zero workspeedlin && Double.lt Double.zero workspeedrot then
      [(lit "workspeed", workspeedText workspeedlin workspeedrot)] else []

def Command.options : Command → List (Text × Text)
  | .moveJoints _ _ _ _ pTraj | .moveToHandPosition _ _ _ _ _ _ pTraj
  | .moveToHandPositionByIkParam _ _ _ _ _ _ pTraj => [executeOption pTraj]
  | .moveToolLinear _ _ _ _ workspeedlin workspeedrot checkEndeffectorCollision pTraj
  | .moveToolLinearByIkParam _ _ _ _ workspeedlin workspeedrot checkEndeffectorCollision pTraj =>
    moveToolLinearOptions workspeedlin workspeedrot checkEndeffectorCollision pTraj
  | _ => []

/-- `SetJsonValueByKey`. -/
def setMember (members : Json.Members) (name : Text) (value : Json) : Json.Members :=
  if name ∈ Json.names members then Json.assignMember members name value else members ++ [(name, value)]

def setMembers (members added : Json.Members) : Json.Members :=
  added.foldl (fun members member => setMember members member.1 member.2) members

/-- The shared parameters parsed back, as the commands that build a document do. -/
def parsedParameters (params : TaskParameters) : Option Json.Members :=
  params.entries.mapM fun entry => (parseJson entry.2).map fun v => (cString entry.1, v)

def Assembly.text (platform : Platform) (params : TaskParameters) : Assembly → Option Text
  | .stream body => some (setMapTaskParameters params ++ body)
  | .document members => (parsedParameters params).map fun shared =>
    dumpJson platform (.object (setMembers (setMembers [] shared) members))
  | .nothing => none

/-- What the calls of a task share: `_mapTaskParameters`, and whether the time stamp of
`_taskstate` is set. -/
structure Task where
  parameters : TaskParameters
  published : Bool

inductive TaskEvent where
  | call (c : Command)
  /-- A heartbeat or the reply to a state query replaces the task state. -/
  | publish (timestamp : UInt64)

def TaskEvent.options : TaskEvent → List (Text × Text)
  | .call c => c.options
  | .publish _ => []

def Task.start (platform : Platform) (defaults : Json.Members) : Task :=
  ⟨initialParameters platform defaults, false⟩

def Task.step (task : Task) (event : TaskEvent) : Task where
  parameters := task.parameters.insertAll event.options
  published := match event with
    | .call _ => task.published
    | .publish timestamp => timestamp.val ≠ 0

def Task.run (task : Task) (history : List TaskEvent) : Task := history.foldl Task.step task

/-- The text a call hands to `ExecuteCommand`. Its options are stored first. -/
def Task.text (platform : Platform) (tasktype : Text) (task : Task) (c : Command) : Option Text :=
  (c.assemble platform tasktype task.published).text platform (task.parameters.insertAll c.options)

/-- The value the last command that stored this option stored, or else the default. -/
def choice (parameters : TaskParameters) (history : List TaskEvent) (option : Text) : Option Text :=
  (findEntry (history.flatMap TaskEvent.options).reverse option).or (parameters.find? option)

theorem run_parameters (task : Task) (history : List TaskEvent) :
    (task.run history).parameters = task.parameters.insertAll (history.flatMap TaskEvent.options) := by
  induction history generalizing task with
  | nil => rfl
  | cons event rest ih =>
    rw [List.flatMap_cons, SortedMap.insertAll_append]
    exact ih (task.step event)

/-- What a command's text finds under a name. -/
theorem find?_run (task : Task) (history : List TaskEvent) (c : Command) (option : Text) :
    ((task.run history).parameters.insertAll c.options).find? option =
      (findEntry c.options.reverse option).or (choice task.parameters history option) := by
  rw [SortedMap.find?_insertAll, run_parameters, SortedMap.find?_insertAll]
  rfl

theorem findEntry_options_none {c : Command} (apart : option ∉ c.options.map Prod.fst) :
    findEntry c.options.reverse option = none := by
  rw [findEntry_eq_none_iff]
  intro entry member same
  exact apart (List.mem_map.mpr ⟨entry, List.mem_reverse.mp member, same⟩)

def Command.isDocument : Command → Bool
  | .setInstantaneousJointValues .. | .computeIkParamPosition .. | .computeIKFromParameters ..
      | .getGrabbed .. => true
  | _ => false

inductive Shown where
  | text (t : Text)
  | value (v : Option Json)

def Shown.value? : Shown → Option Json
  | .text _ => none
  | .value v => v

def Command.shows (c : Command) (t : Text) : Shown := if c.isDocument then .value (parseJson t) else .text t

/-- After both histories every option that the command does not store itself has the same
value, as far as the command's text shows it. -/
def SameChoices (parameters : TaskParameters) (first second : List TaskEvent) (c : Command) : Prop :=
  ∀ option ∉ c.options.map Prod.fst,
    (choice parameters first option).map c.shows = (choice parameters second option).map c.shows

variable {platform : Platform} {tasktype : Text} {c : Command} {task : Task} {first second : List TaskEvent}

theorem isDocument_of_document (made : c.assemble platform tasktype published = .document members) :
    c.isDocument = true := by
  cases c <;> simp only [Command.assemble] at made <;> try rfl
  all_goals (try split at made) <;> simp at made

theorem isDocument_of_stream (made : c.assemble platform tasktype published = .stream body) :
    c.isDocument = false := by
  cases c <;> simp only [Command.assemble] at made <;> first | rfl | simp at made

/-- The task state decides only whether there is a text. -/
theorem assemble_published (left : (c.assemble platform tasktype p).text platform m = some t)
    (right : (c.assemble platform tasktype q).text platform n = some u) :
    c.assemble platform tasktype p = c.assemble platform tasktype q := by
  cases c with
  | getPublishedTaskState robotname unit =>
    cases p <;> cases q <;> simp_all [Command.assemble, Assembly.text]
  | _ => rfl

theorem SameChoices.find? (task : Task) (same : SameChoices task.parameters first second c) (option : Text) :
    (((task.run first).parameters.insertAll c.options).find? option).map c.shows =
      (((task.run second).parameters.insertAll c.options).find? option).map c.shows := by
  rw [find?_run, find?_run]
  by_cases own : option ∈ c.options.map Prod.fst
  · obtain ⟨entry, member, named⟩ := List.mem_map.mp own
    have stored : findEntry c.options.reverse option ≠ none := fun absent =>
      findEntry_eq_none_iff.mp absent entry (List.mem_reverse.mpr member) named
    obtain ⟨value, known⟩ := Option.ne_none_iff_exists'.mp stored
    simp [known]
  · simpa [findEntry_options_none own] using same option own

theorem mapM_map_entries (entries : List (Text × Text)) :
    entries.mapM (fun entry => (parseJson entry.2).map fun v => (cString entry.1, v)) =
      (entries.map fun entry => (entry.1, parseJson entry.2)).mapM fun entry =>
        entry.2.map fun v => (cString entry.1, v) := by
  induction entries with
  | nil => rfl
  | cons entry rest ih => simp only [List.map_cons, List.mapM_cons, ih]

/-- The parsed parameters are made from the parsed values alone. -/
theorem parsedParameters_congr {m n : TaskParameters}
    (same : ∀ name, (m.find? name).map parseJson = (n.find? name).map parseJson) :
    parsedParameters m = parsedParameters n := by
  have parsed : m.mapValues parseJson = n.mapValues parseJson := by
    apply SortedMap.ext_find?
    intro name
    rw [SortedMap.find?_mapValues, SortedMap.find?_mapValues, same]
  unfold parsedParameters
  rw [mapM_map_entries, mapM_map_entries]
  exact congrArg (fun o : SortedMap Text (Option Json) =>
    o.entries.mapM fun entry => entry.2.map fun v => (cString entry.1, v)) parsed

/-- A command's text depends on the shared parameters as far as it shows them. -/
theorem text_congr (platform : Platform) (tasktype : Text) (published : Bool) {m n : TaskParameters}
    (same : ∀ name, (m.find? name).map c.shows = (n.find? name).map c.shows) :
    (c.assemble platform tasktype published).text platform m =
      (c.assemble platform tasktype published).text platform n := by
  cases made : c.assemble platform tasktype published with
  | stream body =>
    have equal : m = n := by
      apply SortedMap.ext_find?
      intro name
      have injective : Function.Injective c.shows := fun a b equal => by
        simpa [Command.shows, isDocument_of_stream made] using equal
      exact Option.map_injective injective (same name)
    rw [equal]
  | document members =>
    have equal : parsedParameters m = parsedParameters n := by
      apply parsedParameters_congr
      intro name
      have shown := congrArg (Option.map Shown.value?) (same name)
      simpa [Command.shows, isDocument_of_document made, Shown.value?, Option.map_map,
        Function.comp_def] using shown
    simp only [Assembly.text, equal]
  | nothing => rfl

theorem stream_of_text (streamed : c.isDocument = false)
    (handed : (c.assemble platform tasktype published).text platform m = some t) :
    ∃ body, c.assemble platform tasktype published = .stream body := by
  cases made : c.assemble platform tasktype published with
  | stream body => exact ⟨body, rfl⟩
  | document members => simp [isDocument_of_document made] at streamed
  | nothing => simp [made, Assembly.text] at handed

/-- A name without quotes, and a text a reader knows the end of. -/
def Legible (entry : Text × Text) : Prop := byte '"' ∉ entry.1 ∧ ∃ v, readJson anyToken entry.2 = some v

theorem parameterText_append (entry : Text × Text) (rest : Text) : parameterText entry ++ rest =
    byte '"' :: (entry.1 ++ byte '"' :: byte ':' :: (entry.2 ++ byte ',' :: 32 :: rest)) := by
  have colon : lit "\":" = [byte '"', byte ':'] := rfl
  simp [parameterText, colon, lit_comma]

theorem parameterText_injective (left : Legible e) (right : Legible f)
    (same : parameterText e ++ rest = parameterText f ++ more) : e = f ∧ rest = more := by
  -- neither name goes on with a quote, and neither value with a comma
  have nameEnds : ∀ {e f : Text × Text}, Legible f → ∀ more, f.1 ≠ e.1 ++ byte '"' :: more := by
    intro e f legible more longer
    exact legible.1 (by simp [longer])
  have valueEnds : ∀ {e f : Text × Text}, Legible e → Legible f → ∀ more, f.2 ≠ e.2 ++ byte ',' :: more := by
    rintro e f ⟨-, v, shorter⟩ ⟨-, w, read⟩ more longer
    rw [longer, readJson_comma shorter] at read
    simp at read
  rw [parameterText_append, parameterText_append, List.cons_inj_right] at same
  obtain ⟨names, same⟩ := append_separator_inj (nameEnds right) (nameEnds left) same
  rw [List.cons_inj_right] at same
  obtain ⟨values, same⟩ := append_separator_inj (valueEnds left right) (valueEnds right left) same
  exact ⟨Prod.ext names values, (List.cons.inj same).2⟩

theorem parameterTexts_injective {entries others : List (Text × Text)} (left : ∀ e ∈ entries, Legible e)
    (right : ∀ e ∈ others, Legible e) (same : entries.flatMap parameterText = others.flatMap parameterText) :
    entries = others := by
  induction entries generalizing others with
  | nil =>
    cases others with
    | nil => rfl
    | cons f others => simp [parameterText] at same
  | cons e entries ih =>
    cases others with
    | nil => simp [parameterText] at same
    | cons f others =>
      rw [List.flatMap_cons, List.flatMap_cons] at same
      obtain ⟨rfl, tails⟩ := parameterText_injective (left e List.mem_cons_self) (right f List.mem_cons_self) same
      rw [ih (fun e later => left e (List.mem_cons_of_mem _ later))
        (fun f later => right f (List.mem_cons_of_mem _ later)) tails]

theorem yields_printDouble_any (precision : Nat) (d : Double) :
    ∃ v, Yields anyToken (printDouble precision d) v := by
  have bare := printDouble_bare precision d
  obtain ⟨v, known⟩ := exists_anyToken (printDouble precision d)
  exact ⟨v, yields_token known bare.1 bare.2⟩

theorem legible_executeOption (pTraj : Bool) : Legible (executeOption pTraj) := by
  cases pTraj <;> exact ⟨by decide, Option.isSome_iff_exists.mp (by decide +kernel)⟩

theorem legible_workspeed (workspeedlin workspeedrot : Double) :
    Legible (lit "workspeed", workspeedText workspeedlin workspeedrot) := by
  obtain ⟨v, lin⟩ := yields_printDouble_any 6 workspeedlin
  obtain ⟨w, rot⟩ := yields_printDouble_any 6 workspeedrot
  have plain : byte '"' ∉ lit "workspeed" := by decide
  exact ⟨plain, _, (yields_listText (.cons rot (.cons lin .nil))).readJson⟩

theorem legible_options (c : Command) : ∀ entry ∈ c.options, Legible entry := by
  have threshold : ∀ name : Text, byte '"' ∉ name → ∀ check : Bool,
      Legible (name, if check then lit "0.0" else lit "1000.0") := by
    intro name plain check
    have zero : (readJson anyToken (lit "0.0")).isSome := by decide +kernel
    have large : (readJson anyToken (lit "1000.0")).isSome := by decide +kernel
    cases check
    · exact ⟨plain, Option.isSome_iff_exists.mp large⟩
    · exact ⟨plain, Option.isSome_iff_exists.mp zero⟩
  have linear : ∀ workspeedlin workspeedrot check pTraj,
      ∀ entry ∈ moveToolLinearOptions workspeedlin workspeedrot check pTraj, Legible entry := by
    intro workspeedlin workspeedrot check pTraj entry member
    unfold moveToolLinearOptions at member
    rcases List.mem_append.mp member with fixed | speed
    · simp only [List.mem_cons, List.not_mem_nil, or_false] at fixed
      rcases fixed with rfl | rfl | rfl | rfl
      · exact legible_executeOption pTraj
      all_goals exact threshold _ (by decide) check
    · split at speed
      · rw [List.mem_singleton.mp speed]
        exact legible_workspeed ..
      · simp at speed
  cases c with
  | moveJoints _ _ _ _ pTraj | moveToHandPosition _ _ _ _ _ _ pTraj
  | moveToHandPositionByIkParam _ _ _ _ _ _ pTraj =>
    exact fun entry member => List.mem_singleton.mp member ▸ legible_executeOption pTraj
  | moveToolLinear _ _ _ _ workspeedlin workspeedrot check pTraj
  | moveToolLinearByIkParam _ _ _ _ workspeedlin workspeedrot check pTraj =>
    exact linear workspeedlin workspeedrot check pTraj
  | _ => exact fun entry member => absurd member List.not_mem_nil

theorem printableMembers_iff {members : Json.Members} :
    PrintableMembers platform members ↔ ∀ member ∈ members, Printable platform member.2 := by
  induction members with
  | nil => simp [PrintableMembers]
  | cons member rest ih =>
    obtain ⟨name, value⟩ := member
    rw [PrintableMembers, ih, List.forall_mem_cons]

theorem legible_run {defaults : Json.Members} (printable : Printable platform (.object defaults))
    (plain : ∀ name ∈ Json.names defaults, byte '"' ∉ name) (history : List TaskEvent) (c : Command) :
    ∀ entry ∈ (((Task.start platform defaults).run history).parameters.insertAll c.options).entries,
      Legible entry := by
  have quoteFree : ∀ name, byte '"' ∉ name → byte '"' ∉ cString name := fun name absent member =>
    absent ((List.takeWhile_sublist _).subset member)
  have stored : ∀ entry ∈ (initialParameters platform defaults).entries, Legible entry := by
    apply SortedMap.forall_insertAll
    · simp
    · intro entry member
      obtain ⟨⟨name, value⟩, inside, rfl⟩ := List.mem_map.mp member
      refine ⟨quoteFree name (plain name (List.mem_map_of_mem inside)), value, ?_⟩
      exact readJson_dumpJson anyToken_reader platform value (printableMembers_iff.mp printable _ inside)
  apply SortedMap.forall_insertAll
  · rw [run_parameters]
    apply SortedMap.forall_insertAll stored
    intro entry member
    obtain ⟨event, -, inside⟩ := List.mem_flatMap.mp member
    cases event with
    | call c => exact legible_options c entry inside
    | publish timestamp => simp [TaskEvent.options] at inside
  · exact legible_options c

/-- The text of a command after two histories of the same task. -/
theorem commandText_noninterference {defaults : Json.Members} {t u : Text}
    (left : ((Task.start platform defaults).run first).text platform tasktype c = some t)
    (right : ((Task.start platform defaults).run second).text platform tasktype c = some u) :
    (SameChoices (initialParameters platform defaults) first second c → t = u) ∧
      (c.isDocument = false → Printable platform (.object defaults) →
        (∀ name ∈ Json.names defaults, byte '"' ∉ name) → t = u →
          SameChoices (initialParameters platform defaults) first second c) := by
  have made := assemble_published left right
  rw [Task.text] at left right
  constructor
  · intro same
    have alike := text_congr platform tasktype ((Task.start platform defaults).run first).published
      (SameChoices.find? (Task.start platform defaults) same)
    rw [left, made, right] at alike
    exact Option.some.inj alike
  · intro streamed printable plain equal option apart
    obtain ⟨body, assembled⟩ := stream_of_text streamed right
    rw [made, assembled, Assembly.text, Option.some.injEq] at left
    rw [assembled, Assembly.text, Option.some.injEq] at right
    have texts := List.append_cancel_right ((left.trans equal).trans right.symm)
    have parameters := SortedMap.ext_entries (parameterTexts_injective (legible_run printable plain first c)
      (legible_run printable plain second c) (List.cons.inj texts).2)
    have found := congrArg (fun m => (SortedMap.find? m option).map c.shows) parameters
    simp only [find?_run, findEntry_options_none apart, Option.none_or] at found
    exact found

/-- Moves that differ in whether they are executed, and a query after each. -/
def moveTo (pTraj : Bool) : TaskEvent :=
  .call (.moveToHandPosition (lit "transform6d") [] [] [] (Double.ofInt (-1)) (Double.ofInt (-1)) pTraj)

def queryAfter (history : List TaskEvent) : Option Text :=
  ((Task.start default []).run history).text default (lit "binpicking") (.getTransform (lit "box") (lit "mm"))

theorem commandText_noninterference_lastMove :
    (queryAfter [moveTo true, moveTo false]).get (by decide +kernel) =
      (queryAfter [moveTo false]).get (by decide +kernel) := by
  refine (commandText_noninterference (Option.some_get _).symm (Option.some_get _).symm).1 ?_
  intro option _
  have last : choice (initialParameters default []) [moveTo true, moveTo false] option =
      choice (initialParameters default []) [moveTo false] option := by
    by_cases same : lit "execute" = option <;>
      simp [choice, TaskEvent.options, Command.options, moveTo, executeOption, findEntry, same]
  rw [last]

/-- A linear move that sets no speed is sent with the speed of the one before. -/
theorem workspeed_leaks :
    let move (workspeed : Double) : Command :=
      .moveToolLinear (lit "transform6d") [] [] [] workspeed workspeed true false
    ((Task.start default []).run [.call (move (Double.ofInt 50))]).text default (lit "binpicking")
      (move (Double.ofInt (-1))) ≠
      (Task.start default []).text default (lit "binpicking") (move (Double.ofInt (-1))) := by
  decide +kernel

end MujinClient
