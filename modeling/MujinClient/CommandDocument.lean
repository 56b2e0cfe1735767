import MujinClient.Noninterference

/-! What the streamed texts read as: the default parameters overridden by the arguments of
the call. -/
namespace MujinClient

def printedNumber (precision : Nat) (d : Double) : Json :=
  ((number? (printDouble precision d)).map Decimal.value).getD .null

def printedNumbers (precision : Nat) (ds : List Double) : Json := .array (ds.map (printedNumber precision))

def timestampValue (t : UInt64) : Json := .int ⟨t.val, t.property.jsonRange (by decide)⟩

def boolValue (b : Bool) : Json := .int ⟨boolInt b, by cases b <;> decide⟩

def embedded (t : Text) : Json := (readJson standardToken t).getD .null

def IsJson (t : Text) : Prop := ∃ v, readJson standardToken t = some v

def detectedObjectValue (obj : DetectedObject) : Json := .object <|
  [(lit "name", .string obj.name), (lit "object_uri", .string obj.object_uri),
    (lit "translation", printedNumbers 16 obj.transform.translate.val),
    (lit "quaternion", printedNumbers 16 obj.transform.quaternion.val),
    (lit "confidence", embedded obj.confidence), (lit "sensortimestamp", timestampValue obj.timestamp),
    (lit "isPickable", boolValue obj.isPickable)] ++ memberIf (obj.extra ≠ []) "extra" (embedded obj.extra)

def stateValue (state : Text) : Json := if state = [] then .object [] else embedded state

def marginsValue (m : CropContainerMarginsXYZXYZ) : Json :=
  printedNumbers 16 (m.minMargins.val ++ m.maxMargins.val)

def moveToolMembers (movetype : String) (goaltype : Text) (goals : List Double) (robotname toolname : Text)
    (robotspeed envclearance : Double) : Json.Members :=
  [(lit "command", .string (lit movetype)), (lit "goaltype", .string goaltype)] ++
    (memberIf (robotname ≠ []) "robotname" (.string robotname) ++
    (memberIf (toolname ≠ []) "toolname" (.string toolname) ++
    (memberIf (Double.le Double.zero robotspeed) "robotspeed" (printedNumber 16 robotspeed) ++
    (memberIf (Double.le Double.zero envclearance) "envclearance" (printedNumber 16 envclearance) ++
    [(lit "goals", printedNumbers 16 goals)]))))

def moveToolByIkParamMembers (movetype : String) (instobjectname ikparamname robotname toolname : Text)
    (robotspeed envclearance : Double) : Json.Members :=
  [(lit "command", .string (lit movetype)), (lit "goaltype", .null),
      (lit "instobjectname", .string instobjectname)] ++
    (memberIf (robotname ≠ []) "robotname" (.string robotname) ++
    (memberIf (toolname ≠ []) "toolname" (.string toolname) ++
    (memberIf (Double.le Double.zero robotspeed) "robotspeed" (printedNumber 16 robotspeed) ++
    (memberIf (Double.le Double.zero envclearance) "envclearance" (printedNumber 16 envclearance) ++
    [(lit "ikparamname", .string ikparamname)]))))

def updateObjectsMembers (tasktype objectname : Text) (detectedobjects : List DetectedObject)
    (resultstate unit : Text) : Json.Members :=
  [(lit "command", .string (lit "UpdateObjects")), (lit "tasktype", .string tasktype),
    (lit "objectname", .string objectname), (lit "envstate", .array (detectedobjects.map detectedObjectValue)),
    (lit "detectionResultState", stateValue resultstate), (lit "unit", .string unit)]

def updateEnvironmentStateMembers (tasktype objectname : Text) (detectedobjects : List DetectedObject)
    (obstacle : PointCloudObstacle) (state unit locationName : Text) (cameranames : List Text)
    (cropContainerMargins : Option CropContainerMarginsXYZXYZ) : Json.Members :=
  [(lit "command", .string (lit "UpdateEnvironmentState")), (lit "tasktype", .string tasktype),
      (lit "objectname", .string objectname), (lit "locationName", .string locationName),
      (lit "cameranames", .array (cameranames.map .string)),
      (lit "envstate", .array (detectedobjects.map detectedObjectValue)),
      (lit "detectionResultState", stateValue state), (lit "unit", .string unit)] ++
    (cropContainerMargins.elim [] (fun m => [(lit "cropContainerMarginsXYZXYZ", marginsValue m)]) ++
    [(lit "pointcloudid", .string obstacle.name), (lit "pointsize", printedNumber 7 obstacle.pointsize),
      (lit "points", printedNumbers 7 obstacle.points)])

/-- The arguments of the modelled streamed commands as members of the document. -/
def Command.arguments (platform : Platform) (tasktype : Text) : Command → Option Json.Members
  | .moveToolLinear goaltype goals robotname toolname _ _ _ _ =>
    some (moveToolMembers "MoveToolLinear" goaltype goals robotname toolname (Double.ofInt (-1))
      (Double.ofInt (-1)))
  | .moveToolLinearByIkParam instobjectname ikparamname robotname toolname _ _ _ _ =>
    some (moveToolByIkParamMembers "MoveToolLinear" instobjectname ikparamname robotname toolname
      (Double.ofInt (-1)) (Double.ofInt (-1)))
  | .moveToHandPosition goaltype goals robotname toolname robotspeed envclearance _ =>
    some (moveToolMembers "MoveToHandPosition" goaltype goals robotname toolname robotspeed envclearance)
  | .moveToHandPositionByIkParam instobjectname ikparamname robotname toolname robotspeed envclearance _ =>
    some (moveToolByIkParamMembers "MoveToHandPosition" instobjectname ikparamname robotname toolname
      robotspeed envclearance)
  | .updateObjects objectname detectedobjects resultstate unit =>
    some (updateObjectsMembers tasktype objectname detectedobjects resultstate unit)
  | .updateEnvironmentState objectname detectedobjects vpoints state pointsize pointcloudobstaclename unit
      locationName cameranames cropContainerMargins =>
    some (updateEnvironmentStateMembers tasktype objectname detectedobjects
      ⟨pointcloudobstaclename, vpoints, pointsize⟩
      state unit locationName cameranames cropContainerMargins)
  | .sendMVRRegistrationResult mvrResultInfo =>
    some [(lit "command", .string (lit "SendMVRRegistrationResult")),
      (lit "mvrResultInfo", .string (dumpJson platform mvrResultInfo))]
  | _ => none

def moveToolLinearValues (workspeedlin workspeedrot : Double) (checkEndeffectorCollision pTraj : Bool) :
    Json.Members :=
  let ignorethresh := Json.double (if checkEndeffectorCollision then Double.ofInt 0 else Double.ofInt 1000)
  [(lit "execute", boolValue !pTraj), (lit "workignorefirstcollisionee", ignorethresh),
    (lit "workignorelastcollisionee", ignorethresh), (lit "workignorefirstcollision", ignorethresh)] ++
    memberIf (Double.lt Double.zero workspeedlin && Double.lt Double.zero workspeedrot) "workspeed"
      (printedNumbers 6 [workspeedrot, workspeedlin])

def Command.optionValues : Command → Json.Members
  | .moveJoints _ _ _ _ pTraj | .moveToHandPosition _ _ _ _ _ _ pTraj
  | .moveToHandPositionByIkParam _ _ _ _ _ _ pTraj => [(lit "execute", boolValue !pTraj)]
  | .moveToolLinear _ _ _ _ workspeedlin workspeedrot checkEndeffectorCollision pTraj
  | .moveToolLinearByIkParam _ _ _ _ workspeedlin workspeedrot checkEndeffectorCollision pTraj =>
    moveToolLinearValues workspeedlin workspeedrot checkEndeffectorCollision pTraj
  | _ => []

/-- The text of a command right after `Initialize` is an object with distinct names that has
the arguments and options of the call, and else the defaults. A repeated default counts last. -/
def Decodes (platform : Platform) (tasktype : Text) (defaults : Json.Members) (c : Command)
    (args : Json.Members) : Prop :=
  ∃ t members, (Task.start platform defaults).text platform tasktype c = some t ∧
    readJson standardToken t = some (.object members) ∧ (Json.names members).Nodup ∧
    ∀ name, Json.findMember members name =
      (Json.findMember (args ++ c.optionValues) name).or (Json.findMember defaults.reverse name)

structure DetectedObject.Promised (obj : DetectedObject) : Prop where
  translate : ∀ d ∈ obj.transform.translate.val, d.isFinite = true
  quaternion : ∀ d ∈ obj.transform.quaternion.val, d.isFinite = true
  confidence : obj.confidence = [] ∨ IsJson obj.confidence
  extra : obj.extra = [] ∨ IsJson obj.extra

def CropContainerMarginsXYZXYZ.Promised (m : CropContainerMarginsXYZXYZ) : Prop :=
  ∀ d ∈ m.minMargins.val ++ m.maxMargins.val, d.isFinite = true

def Command.Promised : Command → Prop
  | .moveToolLinear _ goals _ _ workspeedlin workspeedrot _ _ =>
    (∀ d ∈ goals, d.isFinite = true) ∧ workspeedlin.isFinite = true ∧ workspeedrot.isFinite = true
  | .moveToolLinearByIkParam _ _ _ _ workspeedlin workspeedrot _ _ =>
    workspeedlin.isFinite = true ∧ workspeedrot.isFinite = true
  | .moveToHandPosition _ goals _ _ robotspeed envclearance _ =>
    (∀ d ∈ goals, d.isFinite = true) ∧ robotspeed.isFinite = true ∧ envclearance.isFinite = true
  | .moveToHandPositionByIkParam _ _ _ _ robotspeed envclearance _ =>
    robotspeed.isFinite = true ∧ envclearance.isFinite = true
  | .updateObjects _ detectedobjects resultstate _ =>
    (∀ obj ∈ detectedobjects, obj.Promised) ∧ (resultstate = [] ∨ IsJson resultstate)
  | .updateEnvironmentState _ detectedobjects vpoints state pointsize _ _ _ _ cropContainerMargins =>
    (∀ obj ∈ detectedobjects, obj.Promised) ∧ (∀ d ∈ vpoints, d.isFinite = true) ∧
      (state = [] ∨ IsJson state) ∧ pointsize.isFinite = true ∧ ∀ m ∈ cropContainerMargins, m.Promised
  | _ => True

/-- Names and URIs that need no escapes but for quotes, and a confidence. -/
structure DetectedObject.Encodable (obj : DetectedObject) : Prop where
  name : Clean obj.name
  object_uri : Clean obj.object_uri
  confidence : obj.confidence ≠ []

def Command.Encodable (platform : Platform) (tasktype : Text) : Command → Prop
  | .moveToolLinear goaltype _ robotname toolname _ _ _ _
      | .moveToHandPosition goaltype _ robotname toolname _ _ _ =>
    Clean goaltype ∧ Clean robotname ∧ Clean toolname
  | .moveToolLinearByIkParam instobjectname ikparamname robotname toolname _ _ _ _
  | .moveToHandPositionByIkParam instobjectname ikparamname robotname toolname _ _ _ =>
    Clean instobjectname ∧ Clean ikparamname ∧ Clean robotname ∧ Clean toolname
  | .updateObjects objectname detectedobjects _ unit =>
    Clean tasktype ∧ Clean objectname ∧ (∀ obj ∈ detectedobjects, obj.Encodable) ∧ Clean unit
  | .updateEnvironmentState objectname detectedobjects vpoints _ _ pointcloudobstaclename unit locationName
      cameranames _ =>
    Clean tasktype ∧ Clean objectname ∧ (∀ obj ∈ detectedobjects, obj.Encodable) ∧ 3 ∣ vpoints.length ∧
      Clean pointcloudobstaclename ∧ Clean unit ∧ Clean locationName ∧ ∀ camera ∈ cameranames, Clean camera
  | .sendMVRRegistrationResult mvrResultInfo => Clean (dumpJson platform mvrResultInfo)
  | _ => True

/-- Default names that need no escapes and are not written by the command. -/
def DefaultsEncodable (defaults args : Json.Members) : Prop :=
  ∀ name ∈ Json.names defaults, (∀ b ∈ name, isPlain b = true) ∧ name ∉ Json.names args

theorem yields_printDouble (precision : Nat) (finite : d.isFinite = true) :
    Yields standardToken (printDouble precision d) (printedNumber precision d) := by
  cases d with
  | finite x =>
    obtain ⟨decimal, read⟩ := number?_printDouble precision x
    have known : standardToken (printDouble precision (.finite x)) =
        some (printedNumber precision (.finite x)) := by
      simp [standardToken, keyword?_of_number read, read, printedNumber]
    refine yields_token known (fun empty => ?_) (allTokenBytes_number? read)
    simp [empty, number?] at read
  | nan => simp [Double.isFinite] at finite
  | infinite negative => simp [Double.isFinite] at finite

theorem yields_doubles (finite : ∀ d ∈ ds, d.isFinite = true) :
    Yields standardToken (getJsonStringDoubles ds) (printedNumbers 16 ds) :=
  yields_listText (forall₂_map ds fun d inside => yields_printDouble 16 (finite d inside))

theorem yields_embedded (json : IsJson t) : Yields standardToken t (embedded t) := by
  obtain ⟨v, read⟩ := json
  simpa [embedded, read] using yields_iff_readJson.mpr read

theorem yields_boolInt (b : Bool) : Yields standardToken (intText (boolInt b)) (boolValue b) :=
  yields_intText standardToken_reader ⟨boolInt b, _⟩

theorem yields_timestamp (t : UInt64) : Yields standardToken (intText t.val) (timestampValue t) :=
  yields_intText standardToken_reader ⟨t.val, _⟩

theorem yields_stateText (promised : state = [] ∨ IsJson state) :
    Yields standardToken (stateText state) (stateValue state) := by
  unfold stateText stateValue
  split
  · have empty : readJson standardToken (lit "\x7b\x7d") = some (.object []) := rfl
    exact yields_iff_readJson.mpr empty
  · exact yields_embedded (promised.resolve_left ‹_›)

theorem yields_detectedObject (promised : obj.Promised) (encodable : obj.Encodable) :
    Yields standardToken (getJsonStringObject obj) (detectedObjectValue obj) := by
  have confidence := yields_embedded (promised.confidence.resolve_left encodable.confidence)
  have opened := opens_brace.next (readsMember_value "name" (clean_lit _ (by decide)) encodable.name)
    |>.next (readsMember_value "object_uri" (clean_lit _ (by decide)) encodable.object_uri)
    |>.next (readsMember_keyed "translation" (yields_doubles promised.translate) (clean_lit _ (by decide)))
    |>.next (readsMember_keyed "quaternion" (yields_doubles promised.quaternion) (clean_lit _ (by decide)))
    |>.next (readsMember_keyed "confidence" confidence (clean_lit _ (by decide)))
    |>.next (readsMember_keyed "sensortimestamp" (yields_timestamp obj.timestamp) (clean_lit _ (by decide)))
  have pickable := readsMember_keyed "isPickable" (yields_boolInt obj.isPickable) (clean_lit _ (by decide))
  by_cases empty : obj.extra = []
  · have closed := opened.close pickable
    simpa [getJsonStringObject, detectedObjectValue, streamIf, memberIf, empty] using closed
  · have extra := yields_embedded (promised.extra.resolve_left empty)
    have closed := (opened.next pickable).close (readsMember_keyed "extra" extra (clean_lit _ (by decide)))
    simpa [getJsonStringObject, detectedObjectValue, streamIf, memberIf, empty] using closed

theorem forall₂_detectedObjects {objs : List DetectedObject} (promised : ∀ obj ∈ objs, obj.Promised)
    (encodable : ∀ obj ∈ objs, obj.Encodable) : Yields standardToken (listText (objs.map getJsonStringObject))
      (.array (objs.map detectedObjectValue)) :=
  yields_listText
    (forall₂_map objs fun obj inside => yields_detectedObject (promised obj inside) (encodable obj inside))

theorem separated_cons {separator : Text} (t : Text) (ts : List Text) :
    separated separator (t :: ts) = t ++ if ts = [] then [] else separator ++ separated separator ts := by
  cases ts <;> simp [separated]

theorem pointTexts_finite (whole : 3 ∣ points.length) (finite : ∀ d ∈ points, d.isFinite = true) :
    ∃ texts, pointTexts points = some texts ∧ (texts = [] ↔ points = []) ∧
      separated [byte ','] texts = separated [byte ','] (points.map (printDouble 7)) := by
  fun_induction pointTexts points with
  | case1 => exact ⟨[], rfl, by simp, rfl⟩
  | case2 x | case3 x | case4 x y | case5 x y => simp at whole
  | case6 x y z rest ih =>
    have number : ∀ d : Double, d.isFinite = true → d.isNan = false := by
      intro d finite
      cases d <;> simp_all [Double.isFinite, Double.isNan]
    obtain ⟨texts, known, empty, same⟩ := ih (by simpa [Nat.dvd_add_self_right] using whole)
      fun d inside => finite d (by simp [inside])
    refine ⟨_, by rw [known, Option.map_some], ?_, ?_⟩
    · simp [number x (finite x (by simp)), number y (finite y (by simp)), number z (finite z (by simp))]
    · simp [number x (finite x (by simp)), number y (finite y (by simp)), number z (finite z (by simp)),
        separated_cons, empty, same]

theorem yields_points (finite : ∀ d ∈ points, d.isFinite = true)
    (same : separated [byte ','] texts = separated [byte ','] (points.map (printDouble 7))) :
    Yields standardToken (byte '[' :: separated [byte ','] texts ++ [byte ']']) (printedNumbers 7 points) := by
  have spaces : Spaces [] := by simp [Spaces]
  rw [same]
  exact yields_array spaces (forall₂_map points fun d inside => yields_printDouble 7 (finite d inside))

variable {base : Text} {shared : Json.Members} {platform : Platform} {tasktype : Text} {c : Command}

theorem yields_moveTool (opens : Opens standardToken base shared) (move : Clean (lit movetype))
    (goal : Clean goaltype) (robot : Clean robotname) (tool : Clean toolname)
    (goalsFinite : ∀ d ∈ goals, d.isFinite = true) (speed : robotspeed.isFinite = true)
    (clearance : envclearance.isFinite = true) :
    Yields standardToken
      (base ++ generateMoveToolCommand movetype goaltype goals robotname toolname robotspeed envclearance)
      (.object (shared ++ moveToolMembers movetype goaltype goals robotname toolname robotspeed
        envclearance)) := by
  have opened := opens.next (readsMember_value "command" (clean_lit _ (by decide)) move)
    |>.next (readsMember_value "goaltype" (clean_lit _ (by decide)) goal)
    |>.nextIf (robotname ≠ []) (fun _ => readsMember_value "robotname" (clean_lit _ (by decide)) robot)
    |>.nextIf (toolname ≠ []) (fun _ => readsMember_value "toolname" (clean_lit _ (by decide)) tool)
    |>.nextIf (Double.le Double.zero robotspeed)
      (fun _ => readsMember_keyed "robotspeed" (yields_printDouble 16 speed) (clean_lit _ (by decide)))
    |>.nextIf (Double.le Double.zero envclearance)
      (fun _ => readsMember_keyed "envclearance" (yields_printDouble 16 clearance) (clean_lit _ (by decide)))
  have closed := opened.close (readsMember_keyed "goals" (yields_doubles goalsFinite) (clean_lit _ (by decide)))
  simpa only [generateMoveToolCommand, moveToolMembers, streamSpeed, List.append_assoc, List.cons_append,
    List.nil_append] using closed

/-- A literal key that is not followed by a space. -/
theorem readsMember_literal (plain : lit text = quoted (lit key) ++ [byte ':'])
    (clean : ∀ b ∈ lit key, isPlain b = true)
    (yields : Yields token t v) : ReadsMember token (lit text ++ t) (lit key) v := by
  have spaces : Spaces [] := by simp [Spaces]
  have body : Unescapes token ((lit key).flatMap fun b => [b]) (lit key) :=
    unescapes_flatMap fun b inside => unescapes_plain (clean b inside)
  rw [List.flatMap_singleton'] at body
  simpa [plain] using readsMember body spaces yields

theorem yields_moveToolByIkParam (opens : Opens standardToken base shared) (move : Clean (lit movetype))
    (instobject : Clean instobjectname) (ikparam : Clean ikparamname) (robot : Clean robotname)
    (tool : Clean toolname) (speed : robotspeed.isFinite = true) (clearance : envclearance.isFinite = true) :
    Yields standardToken
      (base ++ generateMoveToolByIkParamCommand movetype instobjectname ikparamname robotname toolname robotspeed
        envclearance)
      (.object (shared ++ moveToolByIkParamMembers movetype instobjectname ikparamname robotname toolname
        robotspeed
        envclearance)) := by
  have goaltype : ReadsMember standardToken (lit "\"goaltype\": null") (lit "goaltype") .null := by
    have null : Yields standardToken (lit "null") .null := yields_keyword standardToken_reader rfl
    have spelled : lit "\"goaltype\": null" = keyed "goaltype" (lit "null") := by decide +kernel
    rw [spelled]
    exact readsMember_keyed _ null (clean_lit _ (by decide))
  have comma : lit "\"goaltype\": null," = lit "\"goaltype\": null" ++ [byte ','] := by decide +kernel
  have opened := opens.next (readsMember_value "command" (clean_lit _ (by decide)) move)
    |>.comma goaltype spaces_nil
    |>.next (readsMember_value "instobjectname" (clean_lit _ (by decide)) instobject)
    |>.nextIf (robotname ≠ []) (fun _ => readsMember_value "robotname" (clean_lit _ (by decide)) robot)
    |>.nextIf (toolname ≠ []) (fun _ => readsMember_value "toolname" (clean_lit _ (by decide)) tool)
    |>.nextIf (Double.le Double.zero robotspeed)
      (fun _ => readsMember_keyed "robotspeed" (yields_printDouble 16 speed) (clean_lit _ (by decide)))
    |>.nextIf (Double.le Double.zero envclearance)
      (fun _ => readsMember_keyed "envclearance" (yields_printDouble 16 clearance) (clean_lit _ (by decide)))
  have closed := opened.close (readsMember_value "ikparamname" (clean_lit _ (by decide)) ikparam)
  simpa only [generateMoveToolByIkParamCommand, moveToolByIkParamMembers, streamSpeed, comma, List.append_assoc,
    List.cons_append, List.nil_append] using closed

theorem yields_updateObjects (opens : Opens standardToken base shared) (task : Clean tasktype)
    (object : Clean objectname) (promised : ∀ obj ∈ objs, obj.Promised) (encodable : ∀ obj ∈ objs, obj.Encodable)
    (state : resultstate = [] ∨ IsJson resultstate) (units : Clean unit) :
    Yields standardToken (base ++ updateObjects tasktype objectname objs resultstate unit)
      (.object (shared ++ updateObjectsMembers tasktype objectname objs resultstate unit)) := by
  have command : Clean (lit "UpdateObjects") := clean_lit _ (by decide)
  have envstate := forall₂_detectedObjects promised encodable
  have opened := opens.next (readsMember_value "command" (clean_lit _ (by decide)) command)
    |>.next (readsMember_value "tasktype" (clean_lit _ (by decide)) task)
    |>.next (readsMember_value "objectname" (clean_lit _ (by decide)) object)
    |>.next (readsMember_keyed "envstate" envstate (clean_lit _ (by decide)))
    |>.next (readsMember_keyed "detectionResultState" (yields_stateText state) (clean_lit _ (by decide)))
  have closed := opened.close (readsMember_value "unit" (clean_lit _ (by decide)) units)
  simpa only [updateObjects, updateObjectsMembers, List.append_assoc, List.cons_append,
    List.nil_append] using closed

theorem yields_sendMVRRegistrationResult (opens : Opens standardToken base shared)
    (info : Clean (dumpJson platform mvrResultInfo)) :
    Yields standardToken
      (base ++ (getJsonStringValue "command" (lit "SendMVRRegistrationResult") ++ lit ", " ++
        getJsonStringValue "mvrResultInfo" (dumpJson platform mvrResultInfo) ++ [byte '}']))
      (.object (shared ++ [(lit "command", .string (lit "SendMVRRegistrationResult")),
        (lit "mvrResultInfo", .string (dumpJson platform mvrResultInfo))])) := by
  have command : Clean (lit "SendMVRRegistrationResult") := clean_lit _ (by decide)
  have opened := opens.next (readsMember_value "command" (clean_lit _ (by decide)) command)
  have closed := opened.close (readsMember_value "mvrResultInfo" (clean_lit _ (by decide)) info)
  simpa only [List.append_assoc, List.cons_append, List.nil_append] using closed

theorem Opens.margins (opens : Opens standardToken t members) (m : Option CropContainerMarginsXYZXYZ)
    (promised : ∀ margins ∈ m, margins.Promised) :
    Opens standardToken (t ++ m.elim [] marginsText)
      (members ++ m.elim [] fun margins => [(lit "cropContainerMarginsXYZXYZ", marginsValue margins)]) := by
  cases m with
  | none => simpa using opens
  | some margins =>
    have spelled : lit "\"cropContainerMarginsXYZXYZ\":" = quoted (lit "cropContainerMarginsXYZXYZ") ++
        [byte ':'] := by
      decide +kernel
    exact opens.next (readsMember_literal spelled (by decide +kernel) (yields_doubles (promised margins rfl)))

theorem yields_updateEnvironmentState (opens : Opens standardToken base shared) (task : Clean tasktype)
    (object : Clean objectname) (promised : ∀ obj ∈ objs, obj.Promised) (encodable : ∀ obj ∈ objs, obj.Encodable)
    (result : state = [] ∨ IsJson state) (units : Clean unit) (location : Clean locationName)
    (cameras : ∀ camera ∈ cameranames, Clean camera) (margins : ∀ m ∈ cropContainerMargins, m.Promised)
    (name : Clean obstacle.name) (size : obstacle.pointsize.isFinite = true)
    (finite : ∀ d ∈ obstacle.points, d.isFinite = true)
    (cloud : getJsonStringPointCloud obstacle = some pointCloud) (whole : 3 ∣ obstacle.points.length) :
    Yields standardToken
      (base ++ updateEnvironmentState tasktype objectname objs pointCloud state unit locationName cameranames
        cropContainerMargins)
      (.object (shared ++ updateEnvironmentStateMembers tasktype objectname objs obstacle state unit locationName
        cameranames cropContainerMargins)) := by
  obtain ⟨texts, points, -, same⟩ := pointTexts_finite whole finite
  rw [getJsonStringPointCloud, points, Option.map_some, Option.some.injEq] at cloud
  subst cloud
  have command : Clean (lit "UpdateEnvironmentState") := clean_lit _ (by decide)
  have envstate := forall₂_detectedObjects promised encodable
  have spelled : lit "\"cameranames\":" = quoted (lit "cameranames") ++ [byte ':'] := by decide +kernel
  have names : Yields standardToken (getJsonStringStrings cameranames) (.array (cameranames.map .string)) :=
    yields_listText (forall₂_map cameranames fun camera inside => yields_getJsonString (cameras camera inside))
  have opened := opens.next (readsMember_value "command" (clean_lit _ (by decide)) command)
    |>.next (readsMember_value "tasktype" (clean_lit _ (by decide)) task)
    |>.next (readsMember_value "objectname" (clean_lit _ (by decide)) object)
    |>.next (readsMember_value "locationName" (clean_lit _ (by decide)) location)
    |>.next (readsMember_literal spelled (by decide +kernel) names)
    |>.next (readsMember_keyed "envstate" envstate (clean_lit _ (by decide)))
    |>.next (readsMember_keyed "detectionResultState" (yields_stateText result) (clean_lit _ (by decide)))
    |>.next (readsMember_value "unit" (clean_lit _ (by decide)) units)
    |>.margins cropContainerMargins margins
    |>.next (readsMember_value "pointcloudid" (clean_lit _ (by decide)) name)
    |>.next (readsMember_keyed "pointsize" (yields_printDouble 7 size) (clean_lit _ (by decide)))
  have closed := opened.close (readsMember_keyed "points" (yields_points finite same) (clean_lit _ (by decide)))
  delta updateEnvironmentState updateEnvironmentStateMembers
  simpa only [List.append_assoc, List.cons_append, List.nil_append] using closed

theorem readsMember_parameter (plain : ∀ b ∈ name, isPlain b = true) (yields : Yields token text v) :
    ReadsMember token (byte '"' :: name ++ lit "\":" ++ text) name v := by
  have spaces : Spaces [] := by simp [Spaces]
  have colon : lit "\":" = [byte '"', byte ':'] := rfl
  have body : Unescapes token (name.flatMap fun b => [b]) name :=
    unescapes_flatMap fun b inside => unescapes_plain (plain b inside)
  rw [List.flatMap_singleton'] at body
  simpa [quoted, colon] using readsMember body spaces yields

def parameterMember (entry : Text × Text) : Text × Json := (entry.1, embedded entry.2)

theorem opens_parameters {entries : List (Text × Text)} (opens : Opens standardToken base shared)
    (plain : ∀ entry ∈ entries, ∀ b ∈ entry.1, isPlain b = true) (json : ∀ entry ∈ entries, IsJson entry.2) :
    Opens standardToken (base ++ entries.flatMap parameterText) (shared ++ entries.map parameterMember) := by
  induction entries generalizing base shared with
  | nil => simpa using opens
  | cons entry rest ih =>
    have member := readsMember_parameter (plain entry List.mem_cons_self)
      (yields_embedded (json entry List.mem_cons_self))
    have later := ih (opens.next member) (fun e inside => plain e (List.mem_cons_of_mem _ inside))
      fun e inside => json e (List.mem_cons_of_mem _ inside)
    simpa [parameterText, parameterMember] using later

theorem opens_setMapTaskParameters (params : TaskParameters)
    (plain : ∀ entry ∈ params.entries, ∀ b ∈ entry.1, isPlain b = true)
    (json : ∀ entry ∈ params.entries, IsJson entry.2) :
    Opens standardToken (setMapTaskParameters params) (params.entries.map parameterMember) :=
  opens_parameters opens_brace plain json

/-- A text that reads as the value, under the same name. -/
def Stores (entry : Text × Text) (member : Text × Json) : Prop :=
  entry.1 = member.1 ∧ readJson standardToken entry.2 = some member.2

theorem findMember_parameters {entries : List (Text × Text)} {members : Json.Members}
    (stored : List.Forall₂ Stores entries members) :
    (findEntry entries name).map embedded = Json.findMember members name := by
  induction stored with
  | nil => rfl
  | cons stores _ ih =>
    obtain ⟨named, read⟩ := stores
    rename_i entry member _ _ _
    obtain ⟨key, text⟩ := entry
    obtain ⟨other, value⟩ := member
    obtain rfl : key = other := named
    by_cases same : key = name <;> simp [findEntry, Json.findMember, same, embedded, read, ih]

theorem findMember_reverse {members : Json.Members} (distinct : (Json.names members).Nodup) :
    Json.findMember members.reverse name = Json.findMember members name := by
  have reversed : (Json.names members.reverse).Nodup := by
    simpa [Json.names, List.map_reverse] using distinct
  cases found : Json.findMember members name with
  | none =>
    rw [Json.findMember_eq_none_iff] at found ⊢
    simpa [Json.names] using found
  | some value =>
    exact Json.findMember_of_mem reversed (List.mem_reverse.mpr (Json.mem_of_findMember found))

theorem stores_default (plain : ∀ b ∈ name, isPlain b = true) (printable : Printable platform value) :
    Stores (cString name, dumpJson platform value) (name, value) := by
  refine ⟨cString_of_nulFree name fun zero => ?_, readJson_dumpJson standardToken_reader platform value printable⟩
  exact absurd (plain 0 zero) (by decide)

theorem stores_execute (pTraj : Bool) : Stores (executeOption pTraj) (lit "execute", boolValue !pTraj) := by
  cases pTraj <;> exact ⟨rfl, by decide +kernel⟩

theorem stores_options (promised : c.Promised) : List.Forall₂ Stores c.options c.optionValues := by
  have linear : ∀ workspeedlin workspeedrot check pTraj, workspeedlin.isFinite = true →
      workspeedrot.isFinite = true →
      List.Forall₂ Stores (moveToolLinearOptions workspeedlin workspeedrot check pTraj)
        (moveToolLinearValues workspeedlin workspeedrot check pTraj) := by
    intro workspeedlin workspeedrot check pTraj lin rot
    have thresholds : readJson standardToken (lit "0.0") = some (.double (Double.ofInt 0)) ∧
        readJson standardToken (lit "1000.0") = some (.double (Double.ofInt 1000)) := by decide +kernel
    have threshold : ∀ name : Text, Stores (name, if check then lit "0.0" else lit "1000.0")
        (name, .double (if check then Double.ofInt 0 else Double.ofInt 1000)) := by
      intro name
      cases check
      · exact ⟨rfl, thresholds.2⟩
      · exact ⟨rfl, thresholds.1⟩
    have speeds := yields_listText (.cons (yields_printDouble 6 rot) (.cons (yields_printDouble 6 lin) .nil))
    unfold moveToolLinearOptions moveToolLinearValues memberIf
    refine List.rel_append (.cons (stores_execute pTraj) (.cons (threshold _) (.cons (threshold _)
      (.cons (threshold _) .nil)))) ?_
    split
    · exact .cons ⟨rfl, speeds.readJson⟩ .nil
    · exact .nil
  cases c with
  | moveJoints _ _ _ _ pTraj | moveToHandPosition _ _ _ _ _ _ pTraj
  | moveToHandPositionByIkParam _ _ _ _ _ _ pTraj =>
    exact .cons (stores_execute pTraj) .nil
  | moveToolLinear _ _ _ _ workspeedlin workspeedrot check pTraj => exact linear _ _ _ _ promised.2.1 promised.2.2
  | moveToolLinearByIkParam _ _ _ _ workspeedlin workspeedrot check pTraj =>
    exact linear _ _ _ _ promised.1 promised.2
  | _ => exact .nil

def optionNames : List Text := [lit "execute", lit "workignorefirstcollisionee", lit "workignorelastcollisionee",
  lit "workignorefirstcollision", lit "workspeed"]

theorem names_memberIf (condition : Bool) (name : String) (v : Json) :
    (Json.names (memberIf condition name v)).Sublist [lit name] := by
  cases condition
  · exact List.nil_sublist _
  · exact .refl _

theorem options_named (c : Command) : (c.optionValues.map Prod.fst).Sublist optionNames := by
  have linear : ∀ workspeedlin workspeedrot check pTraj,
      ((moveToolLinearValues workspeedlin workspeedrot check pTraj).map Prod.fst).Sublist optionNames := by
    intro workspeedlin workspeedrot check pTraj
    unfold moveToolLinearValues
    rw [List.map_append]
    exact (List.Sublist.refl _).append (names_memberIf ..)
  have single : List.Sublist [lit "execute"] optionNames := (List.nil_sublist _).cons_cons _
  cases c with
  | moveJoints | moveToHandPosition | moveToHandPositionByIkParam => exact single
  | moveToolLinear | moveToolLinearByIkParam => exact linear ..
  | _ => exact List.nil_sublist _

/-- Distinct names, none of them the name of an option. -/
def Separate (names : List Text) : Prop := names.Nodup ∧ ∀ option ∈ optionNames, option ∉ names

instance : DecidablePred Separate := fun names =>
  inferInstanceAs (Decidable (names.Nodup ∧ ∀ option ∈ optionNames, option ∉ names))

theorem Separate.sublist (separate : Separate all) (part : List.Sublist names all) : Separate names :=
  ⟨separate.1.sublist part, fun option known member => separate.2 option known (part.subset member)⟩

theorem separate_moveToolMembers : Separate (Json.names
    (moveToolMembers movetype goaltype goals robotname toolname robotspeed envclearance)) := by
  have all : Separate ([lit "command", lit "goaltype"] ++ ([lit "robotname"] ++ ([lit "toolname"] ++
      ([lit "robotspeed"] ++ ([lit "envclearance"] ++ [lit "goals"]))))) := by decide +kernel
  refine all.sublist ?_
  simp only [moveToolMembers, Json.names_append]
  exact .append (.refl _) (.append (names_memberIf ..) (.append (names_memberIf ..)
    (.append (names_memberIf ..) (.append (names_memberIf ..) (.refl _)))))

theorem separate_moveToolByIkParamMembers : Separate (Json.names
    (moveToolByIkParamMembers movetype instobjectname ikparamname robotname toolname robotspeed
      envclearance)) := by
  have all : Separate ([lit "command", lit "goaltype", lit "instobjectname"] ++ ([lit "robotname"] ++
      ([lit "toolname"] ++ ([lit "robotspeed"] ++ ([lit "envclearance"] ++ [lit "ikparamname"]))))) := by
    decide +kernel
  refine all.sublist ?_
  simp only [moveToolByIkParamMembers, Json.names_append]
  exact .append (.refl _) (.append (names_memberIf ..) (.append (names_memberIf ..)
    (.append (names_memberIf ..) (.append (names_memberIf ..) (.refl _)))))

theorem separate_updateEnvironmentStateMembers : Separate (Json.names
    (updateEnvironmentStateMembers tasktype objectname objs obstacle state unit locationName cameranames
      margins)) := by
  have all : Separate ([lit "command", lit "tasktype", lit "objectname", lit "locationName", lit "cameranames",
      lit "envstate", lit "detectionResultState", lit "unit"] ++ ([lit "cropContainerMarginsXYZXYZ"] ++
      [lit "pointcloudid", lit "pointsize", lit "points"])) := by decide +kernel
  refine all.sublist ?_
  have optional : (Json.names
      (margins.elim [] fun m => [(lit "cropContainerMarginsXYZXYZ", marginsValue m)])).Sublist
      [lit "cropContainerMarginsXYZXYZ"] := by
    cases margins
    · exact List.nil_sublist _
    · exact .refl _
  delta updateEnvironmentStateMembers
  rw [Json.names_append, Json.names_append]
  exact .append (.refl _) (.append optional (.refl _))

theorem separate_arguments (known : c.arguments platform tasktype = some args) : Separate (Json.names args) := by
  cases c with
  | moveToolLinear | moveToHandPosition =>
    obtain rfl := Option.some.inj known
    exact separate_moveToolMembers
  | moveToolLinearByIkParam | moveToHandPositionByIkParam =>
    obtain rfl := Option.some.inj known
    exact separate_moveToolByIkParamMembers
  | updateObjects =>
    obtain rfl := Option.some.inj known
    have all : Separate [lit "command", lit "tasktype", lit "objectname", lit "envstate",
      lit "detectionResultState", lit "unit"] := by decide +kernel
    exact all
  | updateEnvironmentState =>
    obtain rfl := Option.some.inj known
    exact separate_updateEnvironmentStateMembers
  | sendMVRRegistrationResult =>
    obtain rfl := Option.some.inj known
    have all : Separate [lit "command", lit "mvrResultInfo"] := by decide +kernel
    exact all
  | _ => simp [Command.arguments] at known

/-- The streamed part of a command reads as its arguments. -/
theorem yields_streamed (known : c.arguments platform tasktype = some args) (promised : c.Promised)
    (encodable : c.Encodable platform tasktype) (opens : Opens standardToken base shared) :
    ∃ body, c.assemble platform tasktype false = .stream body ∧
      Yields standardToken (base ++ body) (.object (shared ++ args)) := by
  have minus : (Double.ofInt (-1)).isFinite = true := by decide +kernel
  cases c with
  | moveToolLinear =>
    obtain rfl := Option.some.inj known
    obtain ⟨goal, robot, tool⟩ := encodable
    exact ⟨_, rfl, yields_moveTool opens (clean_lit _ (by decide)) goal robot tool promised.1 minus minus⟩
  | moveToHandPosition =>
    obtain rfl := Option.some.inj known
    obtain ⟨goal, robot, tool⟩ := encodable
    obtain ⟨goals, speed, clearance⟩ := promised
    exact ⟨_, rfl, yields_moveTool opens (clean_lit _ (by decide)) goal robot tool goals speed clearance⟩
  | moveToolLinearByIkParam =>
    obtain rfl := Option.some.inj known
    obtain ⟨instobject, ikparam, robot, tool⟩ := encodable
    exact ⟨_, rfl, yields_moveToolByIkParam opens (clean_lit _ (by decide)) instobject ikparam robot tool
      minus minus⟩
  | moveToHandPositionByIkParam =>
    obtain rfl := Option.some.inj known
    obtain ⟨instobject, ikparam, robot, tool⟩ := encodable
    exact ⟨_, rfl, yields_moveToolByIkParam opens (clean_lit _ (by decide)) instobject ikparam robot tool
      promised.1 promised.2⟩
  | updateObjects =>
    obtain rfl := Option.some.inj known
    obtain ⟨task, object, objects, units⟩ := encodable
    exact ⟨_, rfl, yields_updateObjects opens task object promised.1 objects promised.2 units⟩
  | updateEnvironmentState objectname objs vpoints state pointsize name unit locationName cameranames margins =>
    obtain rfl := Option.some.inj known
    obtain ⟨task, object, objects, whole, obstacle, units, location, cameras⟩ := encodable
    obtain ⟨promised, finite, result, size, bounds⟩ := promised
    obtain ⟨texts, points, -⟩ := pointTexts_finite whole finite
    obtain ⟨pointCloud, cloud⟩ : ∃ pointCloud, getJsonStringPointCloud ⟨name, vpoints, pointsize⟩ =
        some pointCloud := by
      simp [getJsonStringPointCloud, points]
    refine ⟨_, by rw [Command.assemble, cloud], ?_⟩
    exact yields_updateEnvironmentState opens task object promised objects result units location cameras bounds
      obstacle size finite cloud whole
  | sendMVRRegistrationResult =>
    obtain rfl := Option.some.inj known
    exact ⟨_, rfl, yields_sendMVRRegistrationResult opens encodable⟩
  | _ => simp [Command.arguments] at known

theorem names_parameterMember (params : TaskParameters) :
    Json.names (params.entries.map parameterMember) = params.keys := by
  simp [Json.names, SortedMap.keys, parameterMember, Function.comp_def]

theorem findMember_parameterMember (params : TaskParameters) (name : Text) :
    Json.findMember (params.entries.map parameterMember) name = (params.find? name).map embedded := by
  unfold SortedMap.find?
  induction params.entries with
  | nil => rfl
  | cons entry rest ih =>
    by_cases same : entry.1 = name
    · simp [findEntry, parameterMember, same]
    · simpa [findEntry, Json.findMember, parameterMember, same] using ih

/-- The texts `Initialize` stores for the defaults, and after them the options of the call. -/
def storedTexts (platform : Platform) (defaults : Json.Members) (c : Command) : List (Text × Text) :=
  defaults.map (fun member => (cString member.1, dumpJson platform member.2)) ++ c.options

theorem stores_storedTexts {defaults : Json.Members} (promised : c.Promised)
    (printable : Printable platform (.object defaults))
    (plain : ∀ name ∈ Json.names defaults, ∀ b ∈ name, isPlain b = true) :
    List.Forall₂ Stores (storedTexts platform defaults c) (defaults ++ c.optionValues) := by
  refine List.rel_append ?_ (stores_options promised)
  rw [List.forall₂_map_left_iff, List.forall₂_same]
  intro member inside
  exact stores_default (plain member.1 (List.mem_map_of_mem inside))
    (printableMembers_iff.mp printable member inside)

theorem mem_of_stores {entries : List (Text × Text)} {members : Json.Members}
    (stored : List.Forall₂ Stores entries members) (inside : entry ∈ entries) :
    entry.1 ∈ Json.names members ∧ IsJson entry.2 := by
  induction stored with
  | nil => simp at inside
  | cons stores _ ih =>
    rcases List.mem_cons.mp inside with rfl | later
    · exact ⟨by simp [Json.names, stores.1], _, stores.2⟩
    · exact ⟨List.mem_cons_of_mem _ (ih later).1, (ih later).2⟩

theorem optionNames_plain : ∀ name ∈ optionNames, ∀ b ∈ name, isPlain b = true := by
  decide +kernel

/-- The text of a command is the default parameters overridden by its arguments. -/
theorem commandText_decodes {defaults args : Json.Members} (known : c.arguments platform tasktype = some args)
    (promised : c.Promised) (printable : Printable platform (.object defaults))
    (encodable : c.Encodable platform tasktype) (apart : DefaultsEncodable defaults args) :
    Decodes platform tasktype defaults c args := by
  have separate := separate_arguments known
  have stored := stores_storedTexts promised printable fun name member => (apart name member).1
  let params : TaskParameters := SortedMap.empty.insertAll (storedTexts platform defaults c)
  have all : (Task.start platform defaults).parameters.insertAll c.options = params :=
    (SortedMap.insertAll_append _ _ _).symm
  -- every stored name is a default or an option
  have entries : ∀ entry ∈ params.entries,
      (entry.1 ∈ Json.names defaults ∨ entry.1 ∈ optionNames) ∧ IsJson entry.2 := by
    refine SortedMap.forall_insertAll (by simp) fun entry inside => ?_
    obtain ⟨named, json⟩ := mem_of_stores stored inside
    rw [Json.names_append, List.mem_append] at named
    exact ⟨named.imp_right fun option => (options_named c).subset option, json⟩
  have plain : ∀ entry ∈ params.entries, ∀ b ∈ entry.1, isPlain b = true := fun entry inside =>
    (entries entry inside).1.elim (fun name => (apart _ name).1) (optionNames_plain _)
  have disjoint : ∀ name ∈ params.keys, name ∉ Json.names args := by
    intro name member
    obtain ⟨entry, inside, rfl⟩ := List.mem_map.mp member
    exact (entries entry inside).1.elim (fun name => (apart _ name).2) (separate.2 _)
  obtain ⟨body, assembled, yields⟩ := yields_streamed known promised encodable
    (opens_setMapTaskParameters params plain fun entry inside => (entries entry inside).2)
  refine ⟨setMapTaskParameters params ++ body, params.entries.map parameterMember ++ args, ?_,
    yields.readJson, ?_, ?_⟩
  · rw [Task.text, all]
    exact congrArg (Assembly.text platform params) assembled
  · rw [Json.names_append, names_parameterMember, List.nodup_append]
    refine ⟨params.keys_nodup, separate.1, fun name member other inside same => ?_⟩
    exact disjoint name member (same ▸ inside)
  · intro name
    have shared : Json.findMember (params.entries.map parameterMember) name =
        (Json.findMember c.optionValues name).or (Json.findMember defaults.reverse name) := by
      have found : params.find? name = findEntry (storedTexts platform defaults c).reverse name := by
        rw [SortedMap.find?_insertAll, SortedMap.find?_empty, Option.or_none]
      have options : (Json.names c.optionValues).Nodup :=
        List.Nodup.sublist (options_named c) (by decide +kernel)
      calc Json.findMember (params.entries.map parameterMember) name
          = (params.find? name).map embedded := findMember_parameterMember ..
        _ = Json.findMember (defaults ++ c.optionValues).reverse name := by
          rw [found]
          exact findMember_parameters (List.forall₂_reverse_iff.mpr stored)
        _ = _ := by
          rw [List.reverse_append, Json.findMember_append, findMember_reverse options]
    rw [Json.findMember_append, Json.findMember_append, shared]
    by_cases own : name ∈ Json.names args
    · have absent : Json.findMember (params.entries.map parameterMember) name = none := by
        rw [Json.findMember_eq_none_iff, names_parameterMember]
        exact fun member => disjoint name member own
      rw [← shared, absent, Option.none_or]
      obtain ⟨value, found⟩ := Option.ne_none_iff_exists'.mp (mt Json.findMember_eq_none_iff.mp (not_not.mpr own))
      simp [found]
    · rw [Json.findMember_eq_none_iff.mpr own, Option.or_none, Option.none_or]

def handMove (robotname : Text) : Command :=
  .moveToHandPosition (lit "transform6d") [] robotname [] (Double.ofInt (-1)) (Double.ofInt (-1)) false

def handMoveArguments (robotname : Text) : Json.Members :=
  moveToolMembers "MoveToHandPosition" (lit "transform6d") [] robotname [] (Double.ofInt (-1)) (Double.ofInt (-1))

theorem commandText_decodes_quote :
    Decodes default (lit "binpicking") [(lit "speed", .int ⟨1, by decide⟩)] (handMove (lit "arm \"1\""))
      (handMoveArguments (lit "arm \"1\"")) := by
  refine commandText_decodes rfl ?_ ?_ ?_ ?_
  · exact ⟨by simp, by decide +kernel, by decide +kernel⟩
  · exact ⟨trivial, trivial⟩
  · exact ⟨by decide +kernel, by decide +kernel, by decide +kernel⟩
  · intro name member
    obtain rfl := List.mem_singleton.mp member
    exact ⟨by decide +kernel, by decide +kernel⟩

/-- A backslash at the end of a name escapes the quote after it. -/
theorem backslash_breaks : (handMove (lit "arm\\")).Promised ∧
    ¬ Decodes default (lit "binpicking") [] (handMove (lit "arm\\")) (handMoveArguments (lit "arm\\")) := by
  refine ⟨⟨by simp, by decide +kernel, by decide +kernel⟩, ?_⟩
  rintro ⟨t, members, handed, read, -⟩
  have unreadable : ((Task.start default []).text default (lit "binpicking") (handMove (lit "arm\\"))).bind
      (readJson standardToken) = none := by decide +kernel
  rw [handed, Option.bind_some, read] at unreadable
  simp at unreadable

end MujinClient
