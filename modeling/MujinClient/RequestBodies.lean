import MujinClient.ResourceRequests
import MujinClient.SentRequests
import MujinClient.SplicedStrings

/-! The bodies that are made from text templates, against the objects that they are meant to be. No
string that a template takes is escaped. -/
namespace MujinClient

open Transition Request

variable {token : Text → Option Json}

theorem plain_lit (cs : List Char)
    (each : cs.all fun c => 32 ≤ c.toNat && c.toNat < 128 && c.toNat ≠ 34 && c.toNat ≠ 92) :
    Plain (lit (String.ofList cs)) := by
  intro b member
  obtain ⟨c, bounds, rfl⟩ := char_of_mem_lit each member
  simp only [Bool.and_eq_true, decide_eq_true_eq] at bounds
  have value : (Fin.ofNat 256 c.toNat).val = c.toNat := Nat.mod_eq_of_lt (by omega)
  have apart : ∀ other : Byte, other.val ≠ c.toNat → Fin.ofNat 256 c.toNat ≠ other := fun other differs same =>
    differs (same ▸ value)
  simp only [isPlain, Bool.and_eq_true, decide_eq_true_eq]
  exact ⟨⟨by omega, apart _ (show 34 ≠ _ by omega)⟩, apart _ (show 92 ≠ _ by omega)⟩

/-- The number that `%.15f` prints. -/
def printedReal (d : Double) : Json := ((number? (printFixed 15 d)).map Decimal.value).getD .null

def realArray (values : List Double) : Json := .array (values.map printedReal)

theorem yields_decimal {t : Text} (read : number? t = some decimal) : Yields standardToken t decimal.value := by
  have known : standardToken t = some decimal.value := by
    rw [standardToken, keyword?_of_number read, read]
    rfl
  refine yields_token known (fun empty => ?_) (allTokenBytes_number? read)
  simp [empty, number?] at read

theorem yields_printFixed {d : Double} (finite : d.isFinite = true) :
    Yields standardToken (printFixed 15 d) (printedReal d) := by
  cases d with
  | nan | infinite => simp [Double.isFinite] at finite
  | finite x =>
    obtain ⟨decimal, read⟩ := number?_printFixed 15 x
    rw [printedReal, read]
    exact yields_decimal read

/-- An array with spaces behind its bracket. -/
theorem yields_spacedArray {ts : List Text} (n m : Nat) (each : List.Forall₂ (Yields token) ts vs) :
    Yields token (byte '[' :: (blanks n ++ (separated (byte ',' :: blanks m) ts ++ [byte ']']))) (.array vs) := by
  intro closable stack
  refine ⟨(.done (.array vs), stack), ?_, .inl rfl⟩
  have opens : beforeValue closable stack (byte '[') = some (.start true, .element [] :: stack) := rfl
  rw [run_cons, feed_start, opens, Option.bind_some, run_append, run_start_spaces (spaces_blanks n),
    Option.bind_some]
  cases each with
  | nil => rfl
  | cons yields rest => exact run_elements (spaces_blanks m) (List.forall₂_cons.mpr ⟨yields, rest⟩)

/-- The array that a template has of these numbers, with `gap` spaces behind the commas. -/
def realsText (front gap : Nat) (values : List Double) : Text :=
  byte '[' :: (blanks front ++ (separated (byte ',' :: blanks gap) (values.map (printFixed 15)) ++ [byte ']']))

theorem exact_reals (front gap : Nat) {values : List Double} (finite : ∀ d ∈ values, d.isFinite = true) :
    Exact standardToken (realsText front gap values) (realArray values) True :=
  (yields_spacedArray front gap (forall₂_map values fun d inside => yields_printFixed (finite d inside))).exact

theorem exact_int (z : int32.Value) : Exact standardToken (intText z.val) (saveInteger .int z) True := by
  have yields : Yields standardToken (intText z.val) (saveInteger .int z) :=
    yields_intText standardToken_reader ⟨z.val, z.property.jsonRange (by decide)⟩
  exact yields.exact

inductive TemplatedRequest where
  | registerScene (uri scenetype : Text)
  | importSceneToCOLLADA (importuri importformat newuri : Text) (overwrite : Bool)
  | createObjectGeometry (objectPk geometryName linkPk geomtype : Text) (timeout : Double)
  | createIkParam (objectPk name iktype : Text) (timeout : Double)
  | createLink (objectPk parentlinkPk name : Text) (quaternion : Vec 4) (translate : Vec 3) (timeout : Double)
  | createInstObject (primaryKey name referenceUri : Text) (quaternion : Vec 4) (translate : Vec 3)
    (timeout : Double)
  | copy (primaryKey name : Text)
  | getOrCreateTask (primaryKey taskname tasktype : Text) (options : int32.Value)
  | getOrCreateOptimization (primaryKey optimizationname optimizationtype : Text)
  | setRobotPlacement (primaryKey : Text) (optparams : RobotPlacementOptimizationParameters)
  | setPlacements (primaryKey : Text) (optparams : PlacementsOptimizationParameters)

namespace TemplatedRequest

def send (client : ControllerClient) : TemplatedRequest → Request Unit
  | .registerScene uri scenetype => do let _ ← client.registerScene_UTF8 uri scenetype
  | .importSceneToCOLLADA importuri importformat newuri overwrite => do
    let _ ← client.importSceneToCOLLADA_UTF8 importuri importformat newuri overwrite
  | .createObjectGeometry objectPk geometryName linkPk geomtype timeout => do
    let _ ← client.createObjectGeometry objectPk geometryName linkPk geomtype timeout
  | .createIkParam objectPk name iktype timeout => do let _ ← client.createIkParam objectPk name iktype timeout
  | .createLink objectPk parentlinkPk name quaternion translate timeout => do
    let _ ← client.createLink objectPk parentlinkPk name quaternion.val translate.val timeout
  | .createInstObject primaryKey name referenceUri quaternion translate timeout => do
    let _ ← SceneResource.createInstObject client primaryKey name referenceUri quaternion translate timeout
  | .copy primaryKey name => do let _ ← SceneResource.copy client primaryKey name
  | .getOrCreateTask primaryKey taskname tasktype options => do
    let _ ← SceneResource.getOrCreateTaskFromName_UTF8 client primaryKey taskname tasktype options
  | .getOrCreateOptimization primaryKey optimizationname optimizationtype => do
    let _ ← TaskResource.getOrCreateOptimizationFromName_UTF8 client primaryKey optimizationname optimizationtype
  | .setRobotPlacement primaryKey optparams =>
    OptimizationResource.setRobotPlacementParameters client primaryKey optparams
  | .setPlacements primaryKey optparams => OptimizationResource.setPlacementsParameters client primaryKey optparams

def reals : TemplatedRequest → List Double
  | .createLink _ _ _ quaternion translate _ | .createInstObject _ _ _ quaternion translate _ =>
    quaternion.val ++ translate.val
  | .setRobotPlacement _ optparams => optparams.maxrange.val ++ optparams.minrange.val ++ optparams.stepsize.val
  | .setPlacements _ optparams => (List.finRange 2).flatMap fun itarget =>
    (optparams.targets itarget).maxrange.val ++ (optparams.targets itarget).minrange.val ++
      (optparams.targets itarget).stepsize.val
  | _ => []

def named (key : String) (s : Text) : Text × Json := (lit key, .string s)

/-- The members that one target of a placement is described with. -/
def placementMembers (itarget : Fin 2) (target : PlacementTarget) : Json.Members :=
  let suffix := OptimizationResource.suffix itarget
  [(lit "targetname" ++ suffix, .string target.targetname), (lit "frame" ++ suffix, .string target.framename),
    (lit "ignorebasecollision" ++ suffix, .string (OptimizationResource.flagString target.ignorebasecollision)),
    (lit "maxrange" ++ suffix ++ lit "_", realArray target.maxrange.val),
    (lit "minrange" ++ suffix ++ lit "_", realArray target.minrange.val),
    (lit "stepsize" ++ suffix ++ lit "_", realArray target.stepsize.val)]

/-- The object that the body is meant to be. -/
def document : TemplatedRequest → Json
  | .registerScene uri scenetype => .object [named "uri" uri, named "scenetype" scenetype]
  | .importSceneToCOLLADA importuri importformat newuri _ =>
    .object [named "reference_uri" importuri, named "reference_scenetype" importformat, named "uri" newuri]
  | .createObjectGeometry _ geometryName linkPk geomtype _ =>
    .object [named "name" geometryName, named "linkpk" linkPk, named "geomtype" geomtype]
  | .createIkParam _ name iktype _ => .object [named "name" name, named "iktype" iktype]
  | .createLink _ parentlinkPk name quaternion translate _ => .object (
    [named "name" name, (lit "quaternion", realArray quaternion.val),
      (lit "translate", realArray translate.val)] ++
      if parentlinkPk ≠ [] then [named "parentlinkpk" parentlinkPk] else [])
  | .createInstObject _ name referenceUri quaternion translate _ => .object (
    [named "name" name, (lit "quaternion", realArray quaternion.val),
      (lit "translate", realArray translate.val)] ++
      if referenceUri ≠ [] then [named "reference_uri" referenceUri] else [])
  | .copy primaryKey name =>
    .object [named "name" name, named "reference_pk" primaryKey, named "overwrite" (lit "1")]
  | .getOrCreateTask primaryKey taskname tasktype _ =>
    .object [named "name" taskname, named "tasktype" (SceneResource.tasktype_internal tasktype),
      named "scenepk" primaryKey]
  | .getOrCreateOptimization primaryKey optimizationname optimizationtype =>
    .object [named "name" optimizationname, named "optimizationtype" optimizationtype, named "taskpk" primaryKey]
  | .setRobotPlacement _ optparams =>
    .object [named "optimizationtype" (lit "robotplacement"), (lit "optimizationparameters", .object
      [named "targetname" optparams.targetname, named "frame" optparams.framename,
        named "ignorebasecollision" (OptimizationResource.flagString optparams.ignorebasecollision),
        named "unit" optparams.unit,
        (lit "maxrange_", realArray optparams.maxrange.val), (lit "minrange_", realArray optparams.minrange.val),
        (lit "stepsize_", realArray optparams.stepsize.val),
          (lit "topstorecandidates", saveInteger .int optparams.topstorecandidates)])]
  | .setPlacements _ optparams =>
    .object [named "optimizationtype" (lit "placements"), (lit "optimizationparameters", .object (
      [named "unit" optparams.unit, (lit "topstorecandidates", saveInteger .int optparams.topstorecandidates)] ++
        (List.finRange 2).flatMap fun itarget => placementMembers itarget (optparams.targets itarget)))]

/-- A body that is read as the object. -/
def Right (document : Json) (request : SentRequest) : Prop :=
  request.kind = .get ∨ ∃ body, request.body = [.long body.length, .data body] ∧
    readJson standardToken body = some document

/-- Whatever is sent has no body, or the object that is meant. -/
def Carries (client : ControllerClient) (op : TemplatedRequest) : Prop := ∀ (h : CurlHandle) trace q,
  (op.send client).Reaches trace q → ∀ request ∈ h.requests trace, Right op.document request

/-- The strings of the caller stand for themselves between quotes, if a body is made of them. -/
def Unescaped : TemplatedRequest → Prop
  | .registerScene uri scenetype => scenetype ≠ [] → Plain uri ∧ Plain scenetype
  | .importSceneToCOLLADA importuri importformat newuri _ =>
    importformat ≠ [] → Plain importuri ∧ Plain importformat ∧ Plain newuri
  | .createObjectGeometry _ geometryName linkPk geomtype _ => Plain geometryName ∧ Plain linkPk ∧ Plain geomtype
  | .createIkParam _ name iktype _ => Plain name ∧ Plain iktype
  | .createLink _ parentlinkPk name _ _ _ => Plain name ∧ Plain parentlinkPk
  | .createInstObject _ name referenceUri _ _ _ => Plain name ∧ Plain referenceUri
  | .copy primaryKey name => Plain name ∧ Plain primaryKey
  | .getOrCreateTask primaryKey taskname tasktype options =>
    options.val % 2 ≠ 1 → Plain taskname ∧ Plain tasktype ∧ Plain primaryKey
  | .getOrCreateOptimization primaryKey optimizationname optimizationtype =>
    Plain optimizationname ∧ Plain optimizationtype ∧ Plain primaryKey
  | .setRobotPlacement _ optparams => Plain optparams.targetname ∧ Plain optparams.framename ∧ Plain optparams.unit
  | .setPlacements _ _ => False

variable {client : ControllerClient} {op : TemplatedRequest} {h : CurlHandle} {d : Json}

theorem carries_of {Q : Prop} (each : ∀ h, Sends (Right op.document) h (op.send client) ↔ Q) :
    op.Carries client ↔ Q := by
  constructor
  · intro carries
    exact (each ⟨fun _ => .null, .get⟩).mp (sends_iff.mpr (carries _))
  · intro holds h
    exact sends_iff.mp ((each h).mpr holds)

theorem right_post {url data : Text} :
    Right d (ControllerClient.postOf h url data) ↔ readJson standardToken data = some d := by
  by_cases empty : data = []
  · subst empty
    have nothing : readJson standardToken [] = none := rfl
    simp [Right, ControllerClient.postOf, nothing]
  · constructor
    · rintro (kind | ⟨body, shape, read⟩)
      · cases kind
      · have same : (if data ≠ [] then OptionValue.data data else .null) = .data body :=
          (List.cons.inj (List.cons.inj shape).2).1
        rw [if_pos empty] at same
        exact OptionValue.data.inj same ▸ read
    · intro read
      exact .inr ⟨data, by rw [ControllerClient.postOf, if_pos empty], read⟩

theorem right_put {verb url : OptionValue} {data : Text} :
    Right d ⟨.post, verb, url, [.long data.length, .data data]⟩ ↔ readJson standardToken data = some d := by
  constructor
  · rintro (kind | ⟨body, shape, read⟩)
    · cases kind
    · obtain rfl := OptionValue.data.inj (List.cons.inj (List.cons.inj shape).2).1
      exact read
  · intro read
    exact .inr ⟨data, rfl, read⟩

/-- A POST, and what reads its response. -/
theorem sends_post {α : Type} {uri data : Text} {code : Int} {timeout : Double} {f : Int × Json → Request α}
    (rest : ∀ x g, Sends (Right d) g (f x)) :
    Sends (Right d) h (client.callPost uri data code timeout >>= f) ↔ readJson standardToken data = some d :=
  (sends_bind rest).trans ((ControllerClient.sends_callPost client).trans right_post)

theorem sends_stringOf {ok : SentRequest → Prop} {pt : Json} {key : String} :
    Sends ok h (client.stringOf pt key) := sends_lift

theorem two_read (first second : String) {s t : Text} (firstPlain : Plain (lit first))
    (secondPlain : Plain (lit second)) :
    readJson standardToken (byte '{' :: blanks 0 ++ (templateMember first 0 (quoted s) ++ byte ',' :: blanks 1) ++
      (templateMember second 0 (quoted t) ++ (blanks 0 ++ [byte '}']))) =
        some (.object [named first s, named second t]) ↔
        Plain s ∧ Plain t :=
  ((exact_named standardToken first s firstPlain 0).first 0 1 |>.close
    (exact_named standardToken second t secondPlain 0) 0).readJson_iff

theorem three_read (first second third : String) (gap : Nat) {s t u : Text} (firstPlain : Plain (lit first))
    (secondPlain : Plain (lit second)) (thirdPlain : Plain (lit third)) :
    readJson standardToken (byte '{' :: blanks 0 ++ (templateMember first 0 (quoted s) ++
      byte ',' :: blanks 1) ++ (templateMember second 0 (quoted t) ++ byte ',' :: blanks 1) ++
      (templateMember third gap (quoted u) ++
      (blanks 0 ++ [byte '}']))) = some (.object [named first s, named second t, named third u]) ↔ Plain s ∧
        Plain t ∧ Plain u := by
  have template :=
    ((exact_named standardToken first s firstPlain 0).first 0 1 |>.next
      (exact_named standardToken second t secondPlain 0) 1
    |>.close (exact_named standardToken third u thirdPlain gap) 0).readJson_iff
  rwa [and_assoc] at template

theorem carries_registerScene {uri scenetype : Text} :
    (registerScene uri scenetype).Carries client ↔ (registerScene uri scenetype).Unescaped := by
  refine carries_of fun h => ?_
  rw [send, sends_bind fun _ _ => sends_pure, ControllerClient.registerScene_UTF8, sends_demand,
    decide_eq_true_iff, Unescaped,
    ← two_read "uri" "scenetype" (plain_lit _ (by decide)) (plain_lit _ (by decide))]
  refine imp_congr_right fun _ => (sends_post fun _ _ => sends_stringOf).trans ?_
  simp only [templateMember, quoted, List.append_assoc, List.cons_append, List.nil_append]
  rfl

theorem carries_importSceneToCOLLADA {importuri importformat newuri : Text} {overwrite : Bool} :
    (importSceneToCOLLADA importuri importformat newuri overwrite).Carries client ↔
      (importSceneToCOLLADA importuri importformat newuri overwrite).Unescaped := by
  refine carries_of fun h => ?_
  rw [send, sends_bind fun _ _ => sends_pure, ControllerClient.importSceneToCOLLADA_UTF8, sends_demand,
    decide_eq_true_iff, Unescaped,
    ← three_read "reference_uri" "reference_scenetype" "uri" 0 (plain_lit _ (by decide))
      (plain_lit _ (by decide)) (plain_lit _ (by decide))]
  refine imp_congr_right fun _ => (sends_post fun _ _ => sends_stringOf).trans ?_
  simp only [templateMember, quoted, List.append_assoc, List.cons_append, List.nil_append]
  rfl

theorem carries_createObjectGeometry {objectPk geometryName linkPk geomtype : Text} {timeout : Double} :
    (createObjectGeometry objectPk geometryName linkPk geomtype timeout).Carries client ↔
      (createObjectGeometry objectPk geometryName linkPk geomtype timeout).Unescaped := by
  refine carries_of fun h => ?_
  rw [send, sends_bind fun _ _ => sends_pure, ControllerClient.createObjectGeometry, Unescaped,
    ← three_read "name" "linkpk" "geomtype" 1 (plain_lit _ (by decide)) (plain_lit _ (by decide))
      (plain_lit _ (by decide))]
  refine (sends_post fun _ _ => sends_stringOf).trans ?_
  simp only [templateMember, quoted, List.append_assoc, List.cons_append, List.nil_append]
  rfl

theorem carries_createIkParam {objectPk name iktype : Text} {timeout : Double} :
    (createIkParam objectPk name iktype timeout).Carries client ↔
      (createIkParam objectPk name iktype timeout).Unescaped := by
  refine carries_of fun h => ?_
  rw [send, sends_bind fun _ _ => sends_pure, ControllerClient.createIkParam, Unescaped,
    ← two_read "name" "iktype" (plain_lit _ (by decide)) (plain_lit _ (by decide))]
  refine (sends_post fun _ _ => sends_stringOf).trans ?_
  simp only [templateMember, quoted, List.append_assoc, List.cons_append, List.nil_append]
  rfl

theorem carries_copy {primaryKey name : Text} :
    (copy primaryKey name).Carries client ↔ (copy primaryKey name).Unescaped := by
  have one : Plain (lit "1") := plain_lit _ (by decide)
  have template :=
    three_read "name" "reference_pk" "overwrite" 1 (s := name) (t := primaryKey) (u := lit "1")
      (plain_lit _ (by decide))
    (plain_lit _ (by decide)) (plain_lit _ (by decide))
  simp only [one, and_true] at template
  refine carries_of fun h => ?_
  rw [send, sends_bind fun _ _ => sends_pure, SceneResource.copy, Unescaped, ← template]
  refine (sends_post fun _ _ => sends_stringOf).trans ?_
  simp only [templateMember, quoted, List.append_assoc, List.cons_append, List.nil_append]
  rfl

/-- The members that are always there, as a template has them. -/
def placedText (name : Text) (quaternion translate : List Double) : Text :=
  lit "\x7b\"name\":\"" ++ name ++ lit "\", \"quaternion\":[" ++
    separated [byte ','] (quaternion.map (printFixed 15)) ++
    lit "], \"translate\":[" ++ separated [byte ','] (translate.map (printFixed 15)) ++ lit "]"

theorem placed_read {name : Text} {quaternion translate : List Double}
    (quaternionFinite : ∀ d ∈ quaternion, d.isFinite = true)
    (translateFinite : ∀ d ∈ translate, d.isFinite = true) :
    readJson standardToken (placedText name quaternion translate ++ lit "\x7d") =
      some (.object [named "name" name, (lit "quaternion", realArray quaternion),
        (lit "translate", realArray translate)]) ↔ Plain name := by
  have template := (exact_named standardToken "name" name (plain_lit _ (by decide)) 0).first 0 1
    |>.next ((exact_reals 0 0 quaternionFinite).member "quaternion" (plain_lit _ (by decide)) 0) 1
    |>.close ((exact_reals 0 0 translateFinite).member "translate" (plain_lit _ (by decide)) 0) 0
  have read := template.readJson_iff
  rw [and_true, and_true] at read
  rw [← read]
  simp only [placedText, templateMember, quoted, realsText, List.append_assoc, List.cons_append, List.nil_append]
  rfl

theorem placedNamed_read (key : String) (plain : Plain (lit key)) {name extra : Text}
    {quaternion translate : List Double} (quaternionFinite : ∀ d ∈ quaternion, d.isFinite = true)
    (translateFinite : ∀ d ∈ translate, d.isFinite = true) :
    readJson standardToken (placedText name quaternion translate ++
      (byte ',' :: blanks 1 ++ (templateMember key 1 (quoted extra) ++
      [byte '}']))) =
        some (.object [named "name" name, (lit "quaternion", realArray quaternion),
          (lit "translate", realArray translate), named key extra]) ↔ Plain name ∧ Plain extra := by
  have template := (exact_named standardToken "name" name (plain_lit _ (by decide)) 0).first 0 1
    |>.next ((exact_reals 0 0 quaternionFinite).member "quaternion" (plain_lit _ (by decide)) 0) 1
    |>.next ((exact_reals 0 0 translateFinite).member "translate" (plain_lit _ (by decide)) 0) 1
    |>.close (exact_named standardToken key extra plain 1) 0
  have read := template.readJson_iff
  rw [and_true, and_true] at read
  rw [← read]
  simp only [placedText, templateMember, quoted, realsText, List.append_assoc, List.cons_append, List.nil_append]
  rfl

theorem carries_createLink {objectPk parentlinkPk name : Text} {quaternion : Vec 4} {translate : Vec 3}
    {timeout : Double} (formats : client.formatReal = printFixed 15)
    (finite : ∀ d ∈ quaternion.val ++ translate.val, d.isFinite = true) :
    (createLink objectPk parentlinkPk name quaternion translate timeout).Carries client ↔
      (createLink objectPk parentlinkPk name quaternion translate timeout).Unescaped := by
  obtain ⟨quaternionFinite, translateFinite⟩ := List.forall_mem_append.mp finite
  refine carries_of fun h => ?_
  rw [send, sends_bind fun _ _ => sends_pure, ControllerClient.createLink, Unescaped]
  refine (sends_post fun _ _ => sends_stringOf).trans ?_
  rw [document, formats]
  by_cases root : parentlinkPk = []
  · subst root
    rw [if_neg (by simp), if_neg (by simp), List.append_nil, List.append_nil, and_iff_left plain_nil]
    exact placed_read quaternionFinite translateFinite
  · have last : lit ", \"parentlinkpk\": \"" ++ parentlinkPk ++ lit "\"" ++ lit "\x7d" =
        byte ',' :: blanks 1 ++ (templateMember "parentlinkpk" 1 (quoted parentlinkPk) ++ [byte '}']) := by
      simp only [templateMember, quoted, List.append_assoc, List.cons_append, List.nil_append]
      rfl
    rw [if_pos root, if_pos root, List.append_assoc _ _ (lit "\x7d"), last]
    exact placedNamed_read "parentlinkpk" (plain_lit _ (by decide)) quaternionFinite translateFinite

theorem carries_createInstObject {primaryKey name referenceUri : Text} {quaternion : Vec 4}
    {translate : Vec 3} {timeout : Double} (formats : client.formatReal = printFixed 15)
    (finite : ∀ d ∈ quaternion.val ++ translate.val, d.isFinite = true) :
    (createInstObject primaryKey name referenceUri quaternion translate timeout).Carries client ↔
      (createInstObject primaryKey name referenceUri quaternion translate timeout).Unescaped := by
  obtain ⟨quaternionFinite, translateFinite⟩ := List.forall_mem_append.mp finite
  have comma : lit "," = [byte ','] := rfl
  refine carries_of fun h => ?_
  rw [send, sends_bind fun _ _ => sends_pure, SceneResource.createInstObject, Unescaped]
  refine (sends_post fun _ _ => sends_stringOf.bind fun _ _ => sends_demand.mpr fun _ => sends_lift).trans ?_
  simp only [document, ControllerClient.reals, formats, comma]
  by_cases root : referenceUri = []
  · subst root
    rw [if_neg (by simp), if_neg (by simp), List.append_nil, List.append_nil, and_iff_left plain_nil]
    exact placed_read quaternionFinite translateFinite
  · have last : lit ", \"reference_uri\": \"" ++ referenceUri ++ lit "\"" ++ lit "\x7d" =
        byte ',' :: blanks 1 ++ (templateMember "reference_uri" 1 (quoted referenceUri) ++ [byte '}']) := by
      simp only [templateMember, quoted, List.append_assoc, List.cons_append, List.nil_append]
      rfl
    rw [if_pos root, if_pos root, List.append_assoc _ _ (lit "\x7d"), last]
    exact placedNamed_read "reference_uri" (plain_lit _ (by decide)) quaternionFinite translateFinite

/-- Looking at what is there sends nothing. -/
theorem sends_existing {ok : SentRequest → Prop} {object : Json} {key : String}
    {accepts : Text → Text → Bool} {error : Text → Text → Thrown} :
    Sends ok h (do
      let pk ← client.stringOf object "pk"
      let current ← client.stringOf object key
      demand (accepts pk current) (error pk current)
      return pk) :=
  sends_stringOf.bind fun _ _ => sends_stringOf.bind fun _ _ => sends_demand.mpr fun _ => sends_pure

/-- A GET before a POST: the POST is sent if the server has no object. -/
theorem sends_getThenPost {α : Type} {uri : Text} {timeout : Double} {f : Int × Json → Request α} {Q : Prop}
    (post : ∀ g code pt, firstObject? pt = none → (Sends (Right d) g (f (code, pt)) ↔ Q))
    (existing : ∀ g code pt object, firstObject? pt = some object → Sends (Right d) g (f (code, pt))) :
    Sends (Right d) h (client.callGet uri (.object []) 200 timeout >>= f) ↔ Q := by
  constructor
  · intro whole
    obtain ⟨g, rest⟩ := whole.rest (canReturn_callGet client uri (.object []) timeout)
    exact (post g 200 (.object []) rfl).mp rest
  · intro holds
    refine Sends.bind ((ControllerClient.sends_callGet client).mpr (.inl rfl)) fun x g => ?_
    obtain ⟨code, pt⟩ := x
    cases found : firstObject? pt with
    | none => exact (post g code pt found).mpr holds
    | some object => exact existing g code pt object found

theorem plain_tasktype_internal {tasktype : Text} :
    Plain (SceneResource.tasktype_internal tasktype) ↔ Plain tasktype := by
  unfold SceneResource.tasktype_internal
  split
  · rename_i same
    subst same
    exact iff_of_true (plain_lit _ (by decide)) (plain_lit _ (by decide))
  · exact Iff.rfl

theorem carries_getOrCreateTask {primaryKey taskname tasktype : Text} {options : int32.Value} :
    (getOrCreateTask primaryKey taskname tasktype options).Carries client ↔
      (getOrCreateTask primaryKey taskname tasktype options).Unescaped := by
  refine carries_of fun h => ?_
  rw [send, sends_bind fun _ _ => sends_pure, SceneResource.getOrCreateTaskFromName_UTF8, Unescaped]
  by_cases mine : options.val % 2 = 1
  · rw [if_pos mine]
    exact iff_of_true trivial fun other => absurd mine other
  · rw [if_neg mine]
    have template :=
      three_read "name" "tasktype" "scenepk" 0 (s := taskname)
        (t := SceneResource.tasktype_internal tasktype)
      (u := primaryKey) (plain_lit _ (by decide)) (plain_lit _ (by decide)) (plain_lit _ (by decide))
    rw [plain_tasktype_internal] at template
    rw [imp_iff_right mine]
    refine sends_getThenPost (fun g code pt none => ?_) fun g code pt object found => ?_
    · dsimp only
      rw [none, sends_bind fun _ _ => sends_pure, SceneResource.createTask, ← template]
      refine (sends_post fun _ _ => sends_stringOf).trans ?_
      simp only [templateMember, quoted, List.append_assoc, List.cons_append, List.nil_append]
      rfl
    · dsimp only
      rw [found]
      exact sends_existing.bind fun _ _ => sends_pure

theorem carries_getOrCreateOptimization {primaryKey optimizationname optimizationtype : Text} :
    (getOrCreateOptimization primaryKey optimizationname optimizationtype).Carries client ↔
      (getOrCreateOptimization primaryKey optimizationname optimizationtype).Unescaped := by
  refine carries_of fun h => ?_
  rw [send, sends_bind fun _ _ => sends_pure, TaskResource.getOrCreateOptimizationFromName_UTF8, Unescaped]
  refine sends_getThenPost (fun g code pt none => ?_) fun g code pt object found => ?_
  · dsimp only
    rw [none, TaskResource.createOptimization,
      ← three_read "name" "optimizationtype" "taskpk" 0 (plain_lit _ (by decide)) (plain_lit _ (by decide))
        (plain_lit _ (by decide))]
    refine (sends_post fun _ _ => sends_stringOf).trans ?_
    simp only [templateMember, quoted, List.append_assoc, List.cons_append, List.nil_append]
    rfl
  · dsimp only
    rw [found]
    exact sends_existing

theorem plain_flagString (flag : int32.Value) : Plain (OptimizationResource.flagString flag) := by
  unfold OptimizationResource.flagString
  split <;> exact plain_lit _ (by decide)

theorem opens_optimization (type : String) (plain : Plain (lit type)) :
    ExactOpens token (byte '{' :: blanks 0 ++
      (templateMember "optimizationtype" 0 (quoted (lit type)) ++ byte ',' :: blanks 1))
      [named "optimizationtype" (lit type)] True := by
  have opens := (exact_named token "optimizationtype" (lit type) (plain_lit _ (by decide)) 0).first 0 1
  rwa [eq_true plain] at opens

set_option maxRecDepth 4000 in
theorem robotPlacement_read {optparams : RobotPlacementOptimizationParameters}
    (formats : client.formatReal = printFixed 15)
    (maxrange : ∀ d ∈ optparams.maxrange.val, d.isFinite = true)
    (minrange : ∀ d ∈ optparams.minrange.val, d.isFinite = true)
    (stepsize : ∀ d ∈ optparams.stepsize.val, d.isFinite = true) :
    readJson standardToken (OptimizationResource.robotPlacementBody client optparams) =
      some (document (.setRobotPlacement primaryKey optparams)) ↔
        Plain optparams.targetname ∧ Plain optparams.framename ∧ Plain optparams.unit := by
  have parameters :=
    (exact_named standardToken "targetname" optparams.targetname (plain_lit _ (by decide)) 0).first 0 1
    |>.next (exact_named _ "frame" optparams.framename (plain_lit _ (by decide)) 0) 1
    |>.next (exact_named _ "ignorebasecollision" (OptimizationResource.flagString optparams.ignorebasecollision)
      (plain_lit _ (by decide)) 0) 1
    |>.next (exact_named _ "unit" optparams.unit (plain_lit _ (by decide)) 0) 1
    |>.next ((exact_reals 1 1 maxrange).member "maxrange_" (plain_lit _ (by decide)) 0) 2
    |>.next ((exact_reals 1 1 minrange).member "minrange_" (plain_lit _ (by decide)) 0) 1
    |>.next ((exact_reals 1 1 stepsize).member "stepsize_" (plain_lit _ (by decide)) 0) 1
    |>.close ((exact_int optparams.topstorecandidates).member "topstorecandidates" (plain_lit _ (by decide)) 0) 0
  have read := ((opens_optimization "robotplacement" (plain_lit _ (by decide))).close
    (parameters.member "optimizationparameters" (plain_lit _ (by decide)) 0) 1).readJson_iff
  have flag := plain_flagString optparams.ignorebasecollision
  simp only [flag, and_true, true_and, and_assoc] at read
  have comma : lit ", " = byte ',' :: blanks 1 := rfl
  rw [← read]
  refine iff_of_eq (congrArg₂ Eq (congrArg (readJson standardToken) ?_) rfl)
  simp only [OptimizationResource.robotPlacementBody, ControllerClient.reals, formats, comma,
    templateMember, realsText, quoted,
    List.append_assoc, List.cons_append, List.nil_append]
  rfl

theorem carries_setRobotPlacement {primaryKey : Text} {optparams : RobotPlacementOptimizationParameters}
    (formats : client.formatReal = printFixed 15)
    (finite : ∀ d ∈ (setRobotPlacement primaryKey optparams).reals, d.isFinite = true) :
    (setRobotPlacement primaryKey optparams).Carries client ↔
      (setRobotPlacement primaryKey optparams).Unescaped := by
  obtain ⟨front, stepsize⟩ := List.forall_mem_append.mp finite
  obtain ⟨maxrange, minrange⟩ := List.forall_mem_append.mp front
  refine carries_of fun h => ?_
  rw [send, OptimizationResource.setRobotPlacementParameters, sends_bind fun _ _ => sends_pure,
    ControllerClient.sends_callPut]
  exact right_put.trans (robotPlacement_read formats maxrange minrange stepsize)

/-- A target of a placement has two commas in a row in front of its ranges. -/
theorem placementText_start (client : ControllerClient) (itarget : Fin 2) (target : PlacementTarget)
    (first : OptimizationResource.suffix itarget = []) :
    ∃ rest, OptimizationResource.placementText client itarget target =
      byte ',' :: blanks 1 ++ (templateMember "targetname" 0 (quoted target.targetname) ++ byte ',' :: blanks 1) ++
        (templateMember "frame" 0 (quoted target.framename) ++ byte ',' :: blanks 1) ++
        (templateMember "ignorebasecollision" 0
          (quoted (OptimizationResource.flagString target.ignorebasecollision)) ++ byte ',' :: blanks 1) ++
        byte ',' :: (blanks 1 ++ byte '"' :: rest) := by
  refine ⟨lit "maxrange_\":[ " ++ (client.reals ", " target.maxrange.val ++ (lit "],  \"minrange_\":[ " ++
    (client.reals ", " target.minrange.val ++
      (lit "], \"stepsize_\":[ " ++ (client.reals ", " target.stepsize.val ++ lit "]"))))), ?_⟩
  unfold OptimizationResource.placementText
  rw [first]
  simp only [templateMember, quoted, List.append_assoc, List.cons_append, List.nil_append]
  rfl

theorem placementsBody_start (client : ControllerClient) (optparams : PlacementsOptimizationParameters) : ∃ rest,
    OptimizationResource.placementsBody client optparams =
      (byte '{' :: blanks 0 ++
        (templateMember "optimizationtype" 0 (quoted (lit "placements")) ++ byte ',' :: blanks 1)) ++
        templateMember "optimizationparameters" 0 (byte '{' :: blanks 1 ++
          (templateMember "unit" 0 (quoted optparams.unit) ++ byte ',' :: blanks 1) ++
          (templateMember "topstorecandidates" 0 (intText optparams.topstorecandidates.val) ++
          byte ',' :: blanks 1) ++
          (templateMember "targetname" 0 (quoted (optparams.targets 0).targetname) ++ byte ',' :: blanks 1) ++
          (templateMember "frame" 0 (quoted (optparams.targets 0).framename) ++ byte ',' :: blanks 1) ++
          (templateMember "ignorebasecollision" 0
            (quoted (OptimizationResource.flagString (optparams.targets 0).ignorebasecollision)) ++
            byte ',' :: blanks 1) ++ byte ',' :: (blanks 1 ++ byte '"' :: rest)) := by
  have both (f : Fin 2 → Text) : (List.finRange 2).flatMap f = f 0 ++ f 1 := by simp [List.finRange_succ]
  obtain ⟨rest, start⟩ := placementText_start client 0 (optparams.targets 0) rfl
  refine ⟨rest ++ (OptimizationResource.placementText client 1 (optparams.targets 1) ++ lit "\x7d \x7d"), ?_⟩
  rw [OptimizationResource.placementsBody, both, start]
  simp only [templateMember, quoted, List.append_assoc, List.cons_append, List.nil_append]
  rfl

/-- The two commas are reached whatever the strings in front of them are. -/
theorem placements_unread {primaryKey : Text} {optparams : PlacementsOptimizationParameters} :
    readJson standardToken (OptimizationResource.placementsBody client optparams) ≠
      some (document (.setPlacements primaryKey optparams)) := by
  intro read
  have parameters := (exact_named standardToken "unit" optparams.unit (plain_lit _ (by decide)) 0).first 1 1
    |>.next ((exact_int optparams.topstorecandidates).member "topstorecandidates" (plain_lit _ (by decide)) 0) 1
    |>.next (exact_named _ "targetname" (optparams.targets 0).targetname (plain_lit _ (by decide)) 0) 1
    |>.next (exact_named _ "frame" (optparams.targets 0).framename (plain_lit _ (by decide)) 0) 1
    |>.next (exact_named _ "ignorebasecollision"
      (OptimizationResource.flagString (optparams.targets 0).ignorebasecollision)
      (plain_lit _ (by decide)) 0) 1
  obtain ⟨rest, text⟩ := placementsBody_start client optparams
  rw [text, readJson_eq_some] at read
  have inside :=
    (opens_optimization "placements" (plain_lit _ (by decide))).inside trivial "optimizationparameters"
    (plain_lit _ (by decide)) 0 read
  have guarded : Guarded (byte ',' :: (blanks 1 ++ byte '"' :: rest)) :=
    (guarded_quote rest).append (s := byte ',' :: blanks 1) (plain_cons.mpr ⟨rfl, plain_blanks 1⟩)
  exact parameters.stops guarded inside _ ⟨[], rfl⟩

theorem carries_setPlacements {primaryKey : Text} {optparams : PlacementsOptimizationParameters} :
    ¬(setPlacements primaryKey optparams).Carries client := by
  refine (not_congr (carries_of (Q := False) fun h => ?_)).mpr not_false
  rw [send, OptimizationResource.setPlacementsParameters, sends_bind fun _ _ => sends_pure,
    ControllerClient.sends_callPut, right_put]
  exact iff_false_intro placements_unread

/-- Exactly the strings that stand for themselves reach the server, one after the other. What prints
the numbers is the formatting of the standard library. -/
theorem carries_iff (client : ControllerClient) (op : TemplatedRequest)
    (formats : client.formatReal = printFixed 15)
    (finite : ∀ d ∈ op.reals, d.isFinite = true) : op.Carries client ↔ op.Unescaped := by
  cases op with
  | registerScene uri scenetype => exact carries_registerScene
  | importSceneToCOLLADA importuri importformat newuri overwrite => exact carries_importSceneToCOLLADA
  | createObjectGeometry objectPk geometryName linkPk geomtype timeout => exact carries_createObjectGeometry
  | createIkParam objectPk name iktype timeout => exact carries_createIkParam
  | createLink objectPk parentlinkPk name quaternion translate timeout => exact carries_createLink formats finite
  | createInstObject primaryKey name referenceUri quaternion translate timeout =>
    exact carries_createInstObject formats finite
  | copy primaryKey name => exact carries_copy
  | getOrCreateTask primaryKey taskname tasktype options => exact carries_getOrCreateTask
  | getOrCreateOptimization primaryKey optimizationname optimizationtype => exact carries_getOrCreateOptimization
  | setRobotPlacement primaryKey optparams => exact carries_setRobotPlacement formats finite
  | setPlacements primaryKey optparams => exact iff_of_false carries_setPlacements id

/-- A link that is created without a parent. -/
theorem carries_root :
    (createLink [] [] [byte 'a'] ⟨[.zero, .zero, .zero, .zero], rfl⟩ ⟨[.zero, .zero, .zero], rfl⟩
    ControllerClient.defaultTimeout).Carries { (default : ControllerClient) with formatReal := printFixed 15 } :=
  (carries_iff _ _ rfl (by simp [reals, Double.zero, Double.isFinite])).mpr
    ⟨plain_cons.mpr ⟨rfl, plain_nil⟩, plain_nil⟩

/-- A quote in the name of a scene ends the name. -/
theorem copy_cut : ¬∀ (client : ControllerClient) (op : TemplatedRequest), client.formatReal = printFixed 15 →
    (∀ d ∈ op.reals, d.isFinite = true) → op.Carries client := by
  intro always
  have carried :=
    always { (default : ControllerClient) with formatReal := printFixed 15 } (copy [] [byte '"']) rfl
      (by simp [reals])
  exact Bool.noConfusion (plain_cons.mp (carries_copy.mp carried).1).1

end TemplatedRequest

end MujinClient
