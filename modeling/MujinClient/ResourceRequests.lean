import MujinClient.ClientOperations
import MujinClient.TaskState

/-! The requests by which scenes, tasks and optimizations create what belongs to them and set their
parameters. The bodies are made from text templates. -/
namespace MujinClient

open Request

/-- The numbers of a template, each with `%.15f`. -/
def ControllerClient.reals (client : ControllerClient) (separator : String) (values : List Double) : Text :=
  separated (lit separator) (values.map client.formatReal)

/-- `LoadJsonValueByKey(v, key, t, d)`. -/
def loadJsonValueByKeyOr {α : Type} (load : Load α) (v : Json) (key : String) (d : α) : Loading LoadError α Unit :=
  match v with
  | .object members =>
    match Json.findMember members (lit key) with
    | none | some .null => Loading.update fun _ => d
    | some member => Loading.mapError (LoadError.atKey (lit key)) (load member)
  | _ => Loading.throw (.message (lit "Cannot load value of non-object."))

/-- What `CreateInstObject` sets of a `SceneResource::InstObject`. -/
structure InstObject where
  pk : Text
  object_pk : Text
  reference_object_pk : Text
  reference_uri : Text
  dofvalues : List Double
  quaternion : Vec 4
  translate : Vec 3

def InstObject.initial (pk : Text) : InstObject :=
  ⟨pk, [], [], [], [], Transform.initial.quaternion, Transform.initial.translate⟩

/-- The loads of `CreateInstObject` after the constructor. -/
def InstObject.load (platform : Platform) (pt : Json) : Loading LoadError InstObject Unit := do
  Loading.zoom (·.object_pk) (fun x s => { s with object_pk := x })
    (loadJsonValueByKey (loadJsonValue platform .string) pt "object_pk")
  Loading.zoom (·.reference_object_pk) (fun x s => { s with reference_object_pk := x })
    (loadJsonValueByKeyOr (loadJsonValue platform .string) pt "reference_object_pk" [])
  Loading.zoom (·.reference_uri) (fun x s => { s with reference_uri := x })
    (loadJsonValueByKey (loadJsonValue platform .string) pt "reference_uri")
  Loading.zoom (·.dofvalues) (fun x s => { s with dofvalues := x })
    (loadJsonValueByKey (loadJsonValue platform (.vector .double)) pt "dofvalues")
  Loading.zoom (·.quaternion) (fun x s => { s with quaternion := x })
    (loadJsonValueByKey (loadCArray 4 (loadJsonValue platform .double)) pt "quaternion")
  Loading.zoom (·.translate) (fun x s => { s with translate := x })
    (loadJsonValueByKey (loadCArray 3 (loadJsonValue platform .double)) pt "translate")

def firstObject? : Json → Option Json
  | .object members =>
    match Json.findMember members (lit "objects") with
    | some (.array (object :: _)) => some object
    | _ => none
  | _ => none

inductive CreatedTask where
  | task (pk : Text)
  | binPicking (pk scenepk : Text)
  | binPickingZmq (pk scenepk tasktype : Text)

namespace SceneResource

variable (client : ControllerClient) (primaryKey : Text)

def createInstObject (name referenceUri : Text) (quaternion : Vec 4) (translate : Vec 3) (timeout : Double) :
    Request InstObject := do
  let uri := lit "scene/" ++ primaryKey ++
    lit "/instobject/?format=json&fields=pk,object_pk,reference_object_pk,reference_uri,dofvalues,quaternion,translate"
  let data := lit "\x7b\"name\":\"" ++ name ++ lit "\", \"quaternion\":[" ++ client.reals "," quaternion.val ++
    lit "], \"translate\":[" ++ client.reals "," translate.val ++ lit "]" ++
    (if referenceUri ≠ [] then lit ", \"reference_uri\": \"" ++ referenceUri ++ lit "\"" else []) ++ lit "\x7d"
  let (_, pt) ← client.callPost uri data 201 timeout
  let inst_pk ← client.stringOf pt "pk"
  demand (!inst_pk.isEmpty) (.load .assertion)
  Program.lift ((fresh (InstObject.initial inst_pk) (InstObject.load client.platform) pt).mapError .load)

def copy (name : Text) : Request Text := do
  let data := lit "\x7b\"name\":\"" ++ name ++ lit "\", \"reference_pk\":\"" ++ primaryKey ++
    lit "\", \"overwrite\": \"1\"\x7d"
  let (_, pt) ← client.callPost (lit "scene/?format=json") data 201 ControllerClient.defaultTimeout
  client.stringOf pt "pk"

def tasktype_internal (tasktype : Text) : Text :=
  if tasktype = lit "realtimeitlplanning" then lit "realtimeitlplanning3" else tasktype

/-- The types of tasks that are made from the binpicking task. -/
def isBinPicking (tasktype : Text) : Bool :=
  tasktype = lit "binpicking" || tasktype = lit "realtimeitlplanning3" || tasktype = lit "packing"

/-- Without asking the server, a task is made that talks to the scene. -/
def localTask (tasktype : Text) : CreatedTask :=
  if isBinPicking tasktype then .binPickingZmq primaryKey primaryKey tasktype
  else if tasktype = lit "cablepicking" then .binPickingZmq primaryKey primaryKey (lit "binpicking")
  else .task primaryKey

def taskOf (pk tasktype : Text) : CreatedTask :=
  if isBinPicking tasktype || tasktype = lit "cablepicking" then .binPicking pk primaryKey else .task pk

def existingTask (tasktype : Text) (object : Json) : Request Text := do
  let pk ← client.stringOf object "pk"
  let currenttasktype ← client.stringOf object "tasktype"
  demand (currenttasktype = tasktype ∨ currenttasktype = lit "realtimeitlplanning" ∧
    tasktype = lit "realtimeitlplanning3")
    (.mujin ⟨lit "task pk " ++ pk ++ lit " exists and has type " ++ currenttasktype ++
      lit ", expected is " ++ tasktype, .invalidState⟩)
  return pk

def createTask (taskname tasktype : Text) : Request Text := do
  let data := lit "\x7b\"name\":\"" ++ taskname ++ lit "\", \"tasktype\":\"" ++ tasktype ++
    lit "\", \"scenepk\":\"" ++ primaryKey ++
    lit "\"\x7d"
  let (_, pt) ← client.callPost (lit "scene/" ++ primaryKey ++ lit "/task/?format=json&fields=pk") data 201
      ControllerClient.defaultTimeout
  client.stringOf pt "pk"

def getOrCreateTaskFromName_UTF8 (taskname tasktype : Text) (options : int32.Value) :
    Request (Option CreatedTask) := do
  let tasktype := tasktype_internal tasktype
  if options.val % 2 = 1 then
    return some (localTask primaryKey tasktype)
  else
    let (_, pt) ← client.callGet (lit "scene/" ++ primaryKey ++ lit "/task/?format=json&limit=1&name=" ++
        client.escapeString taskname ++
      lit "&fields=pk,tasktype") (.object []) 200 ControllerClient.defaultTimeout
    let pk ← match firstObject? pt with
      | some object => existingTask client tasktype object
      | none => createTask client primaryKey taskname tasktype
    return if pk = [] then none else some (taskOf primaryKey pk tasktype)

end SceneResource

def TaskResource.existingOptimization (client : ControllerClient) (optimizationtype : Text)
    (object : Json) : Request Text := do
  let pk ← client.stringOf object "pk"
  let currentoptimizationtype ← client.stringOf object "optimizationtype"
  demand (currentoptimizationtype = optimizationtype)
    (.mujin ⟨lit "optimization pk " ++ pk ++ lit " exists and has type " ++ currentoptimizationtype ++
      lit ", expected is " ++
      optimizationtype, .invalidState⟩)
  return pk

def TaskResource.createOptimization (client : ControllerClient)
    (primaryKey optimizationname optimizationtype : Text) : Request Text := do
  let data := lit "\x7b\"name\":\"" ++ optimizationname ++ lit "\", \"optimizationtype\":\"" ++ optimizationtype ++
    lit "\", \"taskpk\":\"" ++ primaryKey ++ lit "\"\x7d"
  let (_, pt) ← client.callPost (lit "task/" ++ primaryKey ++ lit "/optimization/?format=json&fields=pk") data 201
    ControllerClient.defaultTimeout
  client.stringOf pt "pk"

def TaskResource.getOrCreateOptimizationFromName_UTF8 (client : ControllerClient)
    (primaryKey optimizationname optimizationtype : Text) : Request Text := do
  let (_, pt) ← client.callGet (lit "task/" ++ primaryKey ++ lit "/optimization/?format=json&limit=1&name=" ++
    client.escapeString optimizationname ++ lit "&fields=pk,optimizationtype") (.object []) 200
      ControllerClient.defaultTimeout
  match firstObject? pt with
  | some object => existingOptimization client optimizationtype object
  | none => createOptimization client primaryKey optimizationname optimizationtype

structure RobotPlacementOptimizationParameters where
  targetname : Text
  framename : Text
  maxrange : Vec 4
  minrange : Vec 4
  stepsize : Vec 4
  ignorebasecollision : int32.Value
  unit : Text
  topstorecandidates : int32.Value

/-- What there is once for each of the two targets of `PlacementsOptimizationParameters`. -/
structure PlacementTarget where
  targetname : Text
  framename : Text
  maxrange : Vec 4
  minrange : Vec 4
  stepsize : Vec 4
  ignorebasecollision : int32.Value

structure PlacementsOptimizationParameters where
  targets : Fin 2 → PlacementTarget
  unit : Text
  topstorecandidates : int32.Value

namespace OptimizationResource

variable (client : ControllerClient) (primaryKey : Text)

/-- A flag as Python spells it. -/
def flagString (flag : int32.Value) : Text := if flag.val ≠ 0 then lit "True" else lit "False"

def robotPlacementBody (optparams : RobotPlacementOptimizationParameters) : Text :=
  lit "\x7b\"optimizationtype\":\"robotplacement\", \"optimizationparameters\":\x7b\"targetname\":\"" ++
  optparams.targetname ++ lit "\", \"frame\":\"" ++ optparams.framename ++
  lit "\", \"ignorebasecollision\":\"" ++ flagString optparams.ignorebasecollision ++
  lit "\", \"unit\":\"" ++ optparams.unit ++
  lit "\", \"maxrange_\":[ " ++ client.reals ", " optparams.maxrange.val ++
  lit "],  \"minrange_\":[ " ++ client.reals ", " optparams.minrange.val ++
  lit "], \"stepsize_\":[ " ++ client.reals ", " optparams.stepsize.val ++
  lit "], \"topstorecandidates\":" ++ intText optparams.topstorecandidates.val ++ lit "\x7d \x7d"

def setRobotPlacementParameters (optparams : RobotPlacementOptimizationParameters) : Request Unit := do
  let _ ← client.callPut (lit "optimization/" ++ primaryKey ++ lit "/?format=json&fields=")
      (robotPlacementBody client optparams) .json 202 ControllerClient.defaultTimeout

/-- The names of the second target end in its number. -/
def suffix (itarget : Fin 2) : Text := if itarget.val > 0 then natText (itarget.val + 1) else []

def placementText (itarget : Fin 2) (target : PlacementTarget) : Text :=
  lit ", \"targetname" ++ suffix itarget ++ lit "\":\"" ++ target.targetname ++
  lit "\", \"frame" ++ suffix itarget ++ lit "\":\"" ++ target.framename ++
  lit "\", \"ignorebasecollision" ++ suffix itarget ++ lit "\":\"" ++ flagString target.ignorebasecollision ++
  lit "\", , \"maxrange" ++ suffix itarget ++ lit "_\":[ " ++ client.reals ", " target.maxrange.val ++
  lit "],  \"minrange" ++ suffix itarget ++ lit "_\":[ " ++ client.reals ", " target.minrange.val ++
  lit "], \"stepsize" ++ suffix itarget ++ lit "_\":[ " ++ client.reals ", " target.stepsize.val ++ lit "]"

def placementsBody (optparams : PlacementsOptimizationParameters) : Text :=
  lit "\x7b\"optimizationtype\":\"placements\", \"optimizationparameters\":\x7b \"unit\":\"" ++ optparams.unit ++
  lit "\", \"topstorecandidates\":" ++ intText optparams.topstorecandidates.val ++
  (List.finRange 2).flatMap (fun itarget => placementText client itarget (optparams.targets itarget)) ++
    lit "\x7d \x7d"

def setPlacementsParameters (optparams : PlacementsOptimizationParameters) : Request Unit := do
  let _ ← client.callPut (lit "optimization/" ++ primaryKey ++ lit "/?format=json&fields=")
      (placementsBody client optparams) .json 202
    ControllerClient.defaultTimeout

end OptimizationResource

end MujinClient
