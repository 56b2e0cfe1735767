import MujinClient.JsonTypes

/-! The published state of a bin picking task and `ResultGetBinpickingState::Parse`,
which fills it in place from the slave's JSON. -/
namespace MujinClient

open Loading

abbrev Int32 := IntType.int.Value
abbrev UInt64 := uint64.Value
abbrev UInt8 := IntType.uint8.Value
abbrev Vec (n : Nat) := (Ty.array .double n).Val

structure SensorSelectionInfo where
  sensorName : Text
  sensorLinkName : Text
  deriving DecidableEq

structure OcclusionResult where
  sensorSelectionInfo : SensorSelectionInfo
  bodyname : Text
  isocclusion : Int32
  deriving DecidableEq

structure LocationTrackingInfo where
  locationName : Text
  containerId : Text
  containerName : Text
  containerUsage : Text
  cycleIndex : Text
  deriving DecidableEq

structure LocationExecutionInfo where
  locationName : Text
  containerId : Text
  forceRequestStampMS : UInt64
  lastInsideContainerStampMS : UInt64
  needContainerState : Text
  deriving DecidableEq

structure MinViableRegionInfo where
  size2D : Vec 2
  maxPossibleSize : Vec 3
  maxPossibleSizeOriginal : Vec 3
  cornerMaskOriginal : UInt8
  cornerMask : UInt8
  deriving DecidableEq

structure RegisterMinViableRegionInfo where
  minViableRegion : MinViableRegionInfo
  locationName : Text
  translation : Vec 3
  quaternion : Vec 4
  objectWeight : Double
  objectType : Text
  sensorTimeStampMS : UInt64
  robotDepartStopTimestamp : Double
  liftedWorldOffset : Vec 3
  maxCandidateSize : Vec 3
  minCandidateSize : Vec 3
  transferSpeedPostMult : Double
  targetTemplateSceneData : Json
  graspModelInfo : Json
  registrationVisionInfo : Json
  minCornerVisibleDist : Double
  minCornerVisibleInsideDist : Double
  maxCornerAngleDeviation : Double
  occlusionFreeCornerMask : UInt8
  registrationMode : UInt8
  skipAppendingToObjectSet : Bool
  maxPossibleSizePadding : Double
  fullDofValues : List Double
  connectedBodyActiveStates : List IntType.int8.Value
  deriving DecidableEq

structure RemoveObjectFromObjectListInfo where
  timestamp : Double
  objectPk : Text
  deriving DecidableEq

structure TriggerDetectionCaptureInfo where
  timestamp : Double
  triggerType : Text
  locationName : Text
  targetUpdateNamePrefix : Text
  deriving DecidableEq

structure Transform where
  quaternion : Vec 4
  translate : Vec 3
  deriving DecidableEq

structure AABB where
  pos : Vec 3
  extents : Vec 3
  deriving DecidableEq

structure PickPlaceHistoryItem where
  pickPlaceType : Text
  locationName : Text
  containerName : Text
  eventTimeStampUS : UInt64
  object_uri : Text
  objectpose : Transform
  localaabb : AABB
  sensorTimeStampUS : UInt64
  deriving DecidableEq

structure ResultGetBinpickingState where
  statusPickPlace : Text
  statusDescPickPlace : Text
  statusPhysics : Text
  isDynamicEnvironmentStateEmpty : Bool
  pickAttemptFromSourceId : Int32
  timestamp : UInt64
  lastGrabbedTargetTimeStamp : UInt64
  vOcclusionResults : List OcclusionResult
  activeLocationTrackingInfos : List LocationTrackingInfo
  locationExecutionInfos : List LocationExecutionInfo
  isGrabbingTarget : Bool
  isGrabbingLastTarget : Bool
  hasRobotExecutionStarted : Bool
  orderNumber : Int32
  numLeftInOrder : Int32
  numLeftInSupply : Int32
  placedInDest : Int32
  cycleIndex : Text
  registerMinViableRegionInfo : RegisterMinViableRegionInfo
  removeObjectFromObjectListInfos : List RemoveObjectFromObjectListInfo
  triggerDetectionCaptureInfo : TriggerDetectionCaptureInfo
  pickPlaceHistoryItems : List PickPlaceHistoryItem
  rUnitInfo : Json
  deriving DecidableEq

def int32Of (z : Int) : Int32 := int32.convert z
def uint64Of (z : Int) : UInt64 := uint64.convert z
def uint8Of (z : Int) : UInt8 := loadUInt8.target.convert z

def zeros (n : Nat) : Vec n := (Ty.array .double n).initial

def SensorSelectionInfo.initial : SensorSelectionInfo := ⟨[], []⟩
def OcclusionResult.initial : OcclusionResult := ⟨.initial, [], int32Of 0⟩
def LocationTrackingInfo.initial : LocationTrackingInfo := ⟨[], [], [], [], []⟩
def LocationExecutionInfo.initial : LocationExecutionInfo := ⟨[], [], uint64Of 0, uint64Of 0, []⟩
def MinViableRegionInfo.initial : MinViableRegionInfo := ⟨zeros 2, zeros 3, zeros 3, uint8Of 0, uint8Of 0⟩
def RemoveObjectFromObjectListInfo.initial : RemoveObjectFromObjectListInfo := ⟨Double.zero, []⟩
def TriggerDetectionCaptureInfo.initial : TriggerDetectionCaptureInfo := ⟨Double.zero, [], [], []⟩

def Transform.initial : Transform :=
  ⟨⟨[Double.ofInt 1, Double.zero, Double.zero, Double.zero], rfl⟩, zeros 3⟩

def AABB.initial : AABB := ⟨zeros 3, zeros 3⟩

def PickPlaceHistoryItem.initial : PickPlaceHistoryItem :=
  ⟨[], [], [], uint64Of 0, [], .initial, .initial, uint64Of 0⟩

/-- The constructor leaves `registrationMode` uninitialized; `mode` is what is there. -/
def RegisterMinViableRegionInfo.initial (mode : UInt8) : RegisterMinViableRegionInfo where
  minViableRegion := .initial
  locationName := []
  translation := zeros 3
  quaternion := zeros 4
  objectWeight := Double.zero
  objectType := []
  sensorTimeStampMS := uint64Of 0
  robotDepartStopTimestamp := Double.zero
  liftedWorldOffset := zeros 3
  maxCandidateSize := zeros 3
  minCandidateSize := zeros 3
  transferSpeedPostMult := Double.ofInt 1
  targetTemplateSceneData := .null
  graspModelInfo := .null
  registrationVisionInfo := .null
  minCornerVisibleDist := Double.ofInt 30
  minCornerVisibleInsideDist := Double.zero
  maxCornerAngleDeviation := Double.zero
  occlusionFreeCornerMask := uint8Of 0
  registrationMode := mode
  skipAppendingToObjectSet := false
  maxPossibleSizePadding := Double.ofInt 30
  fullDofValues := []
  connectedBodyActiveStates := []

def ResultGetBinpickingState.initial (mode : UInt8) : ResultGetBinpickingState where
  statusPickPlace := []
  statusDescPickPlace := []
  statusPhysics := []
  isDynamicEnvironmentStateEmpty := false
  pickAttemptFromSourceId := int32Of (-1)
  timestamp := uint64Of 0
  lastGrabbedTargetTimeStamp := uint64Of 0
  vOcclusionResults := []
  activeLocationTrackingInfos := []
  locationExecutionInfos := []
  isGrabbingTarget := true
  isGrabbingLastTarget := true
  hasRobotExecutionStarted := false
  orderNumber := int32Of (-1)
  numLeftInOrder := int32Of (-1)
  numLeftInSupply := int32Of (-1)
  placedInDest := int32Of (-1)
  cycleIndex := []
  registerMinViableRegionInfo := .initial mode
  removeObjectFromObjectListInfos := []
  triggerDetectionCaptureInfo := .initial
  pickPlaceHistoryItems := []
  rUnitInfo := .null

/-- `FindMember`, which asserts that the value is an object. -/
def findMemberNamed (v : Json) (name : Text) : Except LoadError (Option Json) :=
  match v with
  | .object members => .ok (Json.findMember members name)
  | _ => .error .assertion

def findMemberOf (v : Json) (key : String) : Except LoadError (Option Json) := findMemberNamed v (lit key)

/-- `v[i]` asserts that the index is in range. -/
def elementAt (js : List Json) (i : Nat) : Except LoadError Json :=
  match js[i]? with
  | some j => .ok j
  | none => .error .assertion

/-- A vector member: cleared, and if the JSON member is an array, resized and loaded in place. -/
def parseList (start : α) (load : Load α) (v : Json) (key : String) : Loading LoadError (List α) Unit := do
  update fun _ => []
  match ← lift (findMemberOf v key) with
  | some (.array js) => do
    update fun _ => List.replicate js.length start
    loadElements load js
  | _ => pure ()

variable (platform : Platform)

def SensorSelectionInfo.loadFromJson : Load SensorSelectionInfo := fun v => do
  zoom (·.sensorName) (fun x s => { s with sensorName := x })
    (loadJsonValueByKey (loadJsonValue platform .string) v "sensorName")
  zoom (·.sensorLinkName) (fun x s => { s with sensorLinkName := x })
    (loadJsonValueByKey (loadJsonValue platform .string) v "sensorLinkName")

def getSensorSelectionInfo (v : Json) (key : String) : Except LoadError SensorSelectionInfo :=
  match v with
  | .object members =>
    match Json.findMember members (lit key) with
    | none | some .null => .ok .initial
    | some member => (fresh .initial (SensorSelectionInfo.loadFromJson platform) member).mapError
        (LoadError.atKey (lit key))
  | _ => .error (.message (lit "Cannot get value of non-object (\"" ++ getJsonTypeName v ++
      lit "\") for key \"" ++ lit key ++ lit "\"."))

def parseOcclusionResult : Load OcclusionResult := fun result => do
  assign (fun x s => { s with sensorSelectionInfo := x })
    (getSensorSelectionInfo platform result "sensorSelectionInfo")
  assign (fun x s => { s with bodyname := x }) (getJsonValueByKey platform .string result "bodyname" [])
  assign (fun x s => { s with isocclusion := x })
    (getJsonValueByKey platform (.integer .int) result "isocclusion" (int32Of (-1)))

def parseRemoveObjectFromObjectListInfo : Load RemoveObjectFromObjectListInfo := fun rInfo => do
  assign (fun x s => { s with timestamp := x }) (getJsonValueByKey platform .double rInfo "timestamp" Double.zero)
  assign (fun x s => { s with objectPk := x }) (getJsonValueByKey platform .string rInfo "objectPk" [])

def parseLocationTrackingInfo : Load LocationTrackingInfo := fun rInfo => do
  assign (fun x s => { s with locationName := x }) (getJsonValueByKey platform .string rInfo "locationName" [])
  assign (fun x s => { s with containerId := x }) (getJsonValueByKey platform .string rInfo "containerId" [])
  assign (fun x s => { s with containerName := x }) (getJsonValueByKey platform .string rInfo "containerName" [])
  assign (fun x s => { s with containerUsage := x }) (getJsonValueByKey platform .string rInfo "containerUsage" [])
  assign (fun x s => { s with cycleIndex := x }) (getJsonValueByKey platform .string rInfo "cycleIndex" [])

def parseLocationExecutionInfo : Load LocationExecutionInfo := fun rInfo => do
  assign (fun x s => { s with locationName := x }) (getJsonValueByKey platform .string rInfo "locationName" [])
  assign (fun x s => { s with containerId := x }) (getJsonValueByKey platform .string rInfo "containerId" [])
  assign (fun x s => { s with forceRequestStampMS := x })
    (getJsonValueByKey platform (.integer .uint64) rInfo "forceRequestStampMS" (uint64Of 0))
  assign (fun x s => { s with lastInsideContainerStampMS := x })
    (getJsonValueByKey platform (.integer .uint64) rInfo "lastInsideContainerStampMS" (uint64Of 0))
  assign (fun x s => { s with needContainerState := x })
    (getJsonValueByKey platform .string rInfo "needContainerState" [])

/-- Loads `js[first]`, `js[first + 1]`, .. over the elements of a fixed array. -/
def loadCoordinates (n first : Nat) (js : List Json) : Loading LoadError (Vec n) Unit :=
  (List.range n).foldr (fun i rest => (do
    let j ← lift (elementAt js (first + i))
    let x ← lift (loadDouble platform j)
    update fun t => ⟨t.val.set i x, (List.length_set ..).trans t.property⟩
    rest)) (pure ())

def loadAABBFromJsonValue : Load AABB := fun rAABB => do
  let pos ← lift (findMemberOf rAABB "pos")
  let extents ← lift (findMemberOf rAABB "extents")
  match pos, extents with
  | some pos, some extents => do
    match pos with
    | .array js => zoom (·.pos) (fun x s => { s with pos := x }) (loadCoordinates platform 3 0 js)
    | _ => throw .assertion
    match extents with
    | .array js => zoom (·.extents) (fun x s => { s with extents := x }) (loadCoordinates platform 3 0 js)
    | _ => throw .assertion
  | _, _ => throw .assertion

def PickPlaceHistoryItem.loadFromJson : Load PickPlaceHistoryItem := fun rItem => do
  zoom (·.pickPlaceType) (fun x s => { s with pickPlaceType := x })
    (loadJsonValueByKey (loadJsonValue platform .string) rItem "pickPlaceType")
  zoom (·.locationName) (fun x s => { s with locationName := x })
    (loadJsonValueByKey (loadJsonValue platform .string) rItem "locationName")
  zoom (·.containerName) (fun x s => { s with containerName := x })
    (loadJsonValueByKey (loadJsonValue platform .string) rItem "containerName")
  zoom (·.eventTimeStampUS) (fun x s => { s with eventTimeStampUS := x })
    (loadJsonValueByKey (loadJsonValue platform (.integer .ulonglong)) rItem "eventTimeStampUS")
  zoom (·.object_uri) (fun x s => { s with object_uri := x })
    (loadJsonValueByKey (loadJsonValue platform .string) rItem "object_uri")
  match ← lift (findMemberOf rItem "objectpose") with
  | some (.array js) =>
    if js.length = 7 then
      zoom (·.objectpose) (fun x s => { s with objectpose := x }) (do
        zoom (·.quaternion) (fun x s => { s with quaternion := x }) (loadCoordinates platform 4 0 js)
        zoom (·.translate) (fun x s => { s with translate := x }) (loadCoordinates platform 3 4 js))
    else pure ()
  | _ => pure ()
  match ← lift (findMemberOf rItem "localaabb") with
  | some rLocalAABB =>
    zoom (·.localaabb) (fun x s => { s with localaabb := x }) (loadAABBFromJsonValue platform rLocalAABB)
  | none => pure ()
  zoom (·.sensorTimeStampUS) (fun x s => { s with sensorTimeStampUS := x })
    (loadJsonValueByKey (loadJsonValue platform (.integer .ulonglong)) rItem "sensorTimeStampUS")

/-- `GetMinViableRegionRegistrationModeFromString`, with the default `MVRRM_None`. -/
def getMinViableRegionRegistrationModeFromString (modeStr : Text) : Except LoadError UInt8 :=
  if modeStr = [] then .ok (uint8Of 0)
  else if modeStr = lit "None" then .ok (uint8Of 0)
  else if modeStr = lit "Lift" then .ok (uint8Of 1)
  else if modeStr = lit "Drag" then .ok (uint8Of 2)
  else if modeStr = lit "PerpendicularDrag" then .ok (uint8Of 3)
  else .error (.mujin (MujinException.mk (lit "Failed to parse '" ++ modeStr ++
    lit "' as ExecutionVerificationMode") .invalidArguments))

def MinViableRegionInfo.loadFromJson : Load MinViableRegionInfo := fun rMinViableRegion => do
  zoom (·.size2D) (fun x s => { s with size2D := x })
    (loadJsonValueByKey (loadJsonValue platform (.array .double 2)) rMinViableRegion "size2D")
  zoom (·.maxPossibleSize) (fun x s => { s with maxPossibleSize := x })
    (loadJsonValueByKey (loadJsonValue platform (.array .double 3)) rMinViableRegion "maxPossibleSize")
  zoom (·.maxPossibleSizeOriginal) (fun x s => { s with maxPossibleSizeOriginal := x })
    (loadJsonValueByKey (loadJsonValue platform (.array .double 3)) rMinViableRegion "maxPossibleSizeOriginal")
  assign (fun x s => { s with cornerMask := uint8Of x.val })
    (getJsonValueByKey platform (.integer .uint) rMinViableRegion "cornerMask" ((Ty.integer .uint).initial))
  assign (fun x s => { s with cornerMaskOriginal := uint8Of x.val })
    (getJsonValueByKey platform (.integer .uint) rMinViableRegion "cornerMaskOriginal"
      ((Ty.integer .uint).initial))

/-- A document member: reset and copied if present. -/
def copyMember (v : Json) (key : String) : Except LoadError Json :=
  (findMemberOf v key).map fun member => member.getD .null

def RegisterMinViableRegionInfo.deserializeObject (rInfo : Json) :
    Loading LoadError RegisterMinViableRegionInfo Unit := do
  match ← lift (findMemberOf rInfo "minViableRegion") with
  | some rMinViableRegion =>
    zoom (·.minViableRegion) (fun x s => { s with minViableRegion := x })
      (MinViableRegionInfo.loadFromJson platform rMinViableRegion)
  | none => pure ()
  zoom (·.locationName) (fun x s => { s with locationName := x })
    (loadJsonValueByKey (loadJsonValue platform .string) rInfo "locationName")
  zoom (·.translation) (fun x s => { s with translation := x })
    (loadJsonValueByKey (loadJsonValue platform (.array .double 3)) rInfo "translation")
  zoom (·.quaternion) (fun x s => { s with quaternion := x })
    (loadJsonValueByKey (loadJsonValue platform (.array .double 4)) rInfo "quaternion")
  assign (fun x s => { s with objectWeight := x })
    (getJsonValueByKey platform .double rInfo "objectWeight" Double.zero)
  zoom (·.objectType) (fun x s => { s with objectType := x })
    (loadJsonValueByKey (loadJsonValue platform .string) rInfo "objectType")
  assign (fun x s => { s with sensorTimeStampMS := x })
    (getJsonValueByKey platform (.integer .uint64) rInfo "sensorTimeStampMS" (uint64Of 0))
  assign (fun x s => { s with robotDepartStopTimestamp := x })
    (getJsonValueByKey platform .double rInfo "robotDepartStopTimestamp" Double.zero)
  zoom (·.liftedWorldOffset) (fun x s => { s with liftedWorldOffset := x })
    (loadJsonValueByKey (loadJsonValue platform (.array .double 3)) rInfo "liftedWorldOffset")
  zoom (·.minCandidateSize) (fun x s => { s with minCandidateSize := x })
    (loadJsonValueByKey (loadJsonValue platform (.array .double 3)) rInfo "minCandidateSize")
  zoom (·.maxCandidateSize) (fun x s => { s with maxCandidateSize := x })
    (loadJsonValueByKey (loadJsonValue platform (.array .double 3)) rInfo "maxCandidateSize")
  assign (fun x s => { s with transferSpeedPostMult := x })
    (getJsonValueByKey platform .double rInfo "transferSpeedPostMult" (Double.ofInt 1))
  assign (fun x s => { s with targetTemplateSceneData := x }) (copyMember rInfo "targetTemplateSceneData")
  assign (fun x s => { s with graspModelInfo := x }) (copyMember rInfo "graspModelInfo")
  assign (fun x s => { s with registrationVisionInfo := x }) (copyMember rInfo "registrationVisionInfo")
  assign (fun x s => { s with minCornerVisibleDist := x })
    (getJsonValueByKey platform .double rInfo "minCornerVisibleDist" (Double.ofInt 30))
  assign (fun x s => { s with minCornerVisibleInsideDist := x })
    (getJsonValueByKey platform .double rInfo "minCornerVisibleInsideDist" Double.zero)
  assign (fun x s => { s with maxCornerAngleDeviation := x })
    (getJsonValueByKey platform .double rInfo "maxCornerAngleDeviation" Double.zero)
  assign (fun x s => { s with occlusionFreeCornerMask := uint8Of x.val })
    (getJsonValueByKey platform (.integer .uint) rInfo "occlusionFreeCornerMask" ((Ty.integer .uint).initial))
  assign (fun x s => { s with registrationMode := x })
    ((getJsonValueByKey platform .string rInfo "registrationMode" []).bind fun modeStr =>
      getMinViableRegionRegistrationModeFromString (cString modeStr))
  assign (fun x s => { s with skipAppendingToObjectSet := x })
    (getJsonValueByKey platform .bool rInfo "skipAppendingToObjectSet" false)
  assign (fun x s => { s with maxPossibleSizePadding := x })
    (getJsonValueByKey platform .double rInfo "maxPossibleSizePadding" (Double.ofInt 30))
  zoom (·.fullDofValues) (fun x s => { s with fullDofValues := x })
    (loadJsonValueByKey (loadJsonValue platform (.vector .double)) rInfo "fullDofValues")
  zoom (·.connectedBodyActiveStates) (fun x s => { s with connectedBodyActiveStates := x })
    (loadJsonValueByKey (loadJsonValue platform (.vector (.integer .int8))) rInfo "connectedBodyActiveStates")

def RegisterMinViableRegionInfo.deserializeJSON (rInfo : Json) :
    Loading LoadError RegisterMinViableRegionInfo Unit := do
  update fun s => { s with minViableRegion := .initial }
  if rInfo.isNull then pure () else RegisterMinViableRegionInfo.deserializeObject platform rInfo

/-- `(unsigned long long)(seconds * 1000.0)`. -/
def milliseconds (seconds : Double) : UInt64 :=
  let ms := Double.mul seconds (Double.ofInt 1000)
  match Double.toUInt64? ms with
  | some n => uint64Of n
  | none => platform.outOfRange ms

namespace ResultGetBinpickingState

def parseStatus (v : Json) : Loading LoadError ResultGetBinpickingState Unit := do
  update fun s => { s with rUnitInfo := .null }
  assign (fun x s => { s with rUnitInfo := x }) (copyMember v "unitInfo")
  assign (fun x s => { s with statusPickPlace := x })
    (getJsonValueByKey platform .string v "statusPickPlace" (lit "unknown"))
  assign (fun x s => { s with statusDescPickPlace := x })
    (getJsonValueByKey platform .string v "statusDescPickPlace" (lit "unknown"))
  assign (fun x s => { s with cycleIndex := x })
    (getJsonValueByKey platform .string v "statusPickPlaceCycleIndex" [])
  assign (fun x s => { s with statusPhysics := x })
    (getJsonValueByKey platform .string v "statusPhysics" (lit "unknown"))
  assign (fun x s => { s with pickAttemptFromSourceId := x })
    (getJsonValueByKey platform (.integer .int) v "pickAttemptFromSourceId" (int32Of (-1)))
  assign (fun x s => { s with timestamp := milliseconds platform x })
    (getJsonValueByKey platform .double v "timestamp" Double.zero)
  assign (fun x s => { s with lastGrabbedTargetTimeStamp := milliseconds platform x })
    (getJsonValueByKey platform .double v "lastGrabbedTargetTimeStamp" Double.zero)

def parseOrder (v : Json) : Loading LoadError ResultGetBinpickingState Unit := do
  zoom (·.vOcclusionResults) (fun x s => { s with vOcclusionResults := x })
    (parseList .initial (parseOcclusionResult platform) v "occlusionResults")
  assign (fun x s => { s with isGrabbingTarget := x }) (getJsonValueByKey platform .bool v "isGrabbingTarget" true)
  assign (fun x s => { s with isGrabbingLastTarget := x })
    (getJsonValueByKey platform .bool v "isGrabbingLastTarget" true)
  assign (fun x s => { s with hasRobotExecutionStarted := x })
    (getJsonValueByKey platform .bool v "hasRobotExecutionStarted" false)
  assign (fun x s => { s with orderNumber := x })
    (getJsonValueByPath platform (.integer .int) v ["orderstate", "orderNumber"] (int32Of (-1)))
  assign (fun x s => { s with numLeftInOrder := x })
    (getJsonValueByPath platform (.integer .int) v ["orderstate", "numLeftInOrder"] (int32Of (-1)))
  assign (fun x s => { s with numLeftInSupply := x })
    (getJsonValueByPath platform (.integer .int) v ["orderstate", "numLeftInSupply"] (int32Of (-1)))
  assign (fun x s => { s with placedInDest := x })
    (getJsonValueByPath platform (.integer .int) v ["orderstate", "placedInDest"] (int32Of (-1)))

/-- `mode` is what the temporary's uninitialized `registrationMode` contains. -/
def parseRegistration (mode : UInt8) (v : Json) : Loading LoadError ResultGetBinpickingState Unit := do
  update fun s => { s with registerMinViableRegionInfo := .initial mode }
  match ← lift (findMemberOf v "registerMinViableRegionInfo") with
  | some rInfo =>
    zoom (·.registerMinViableRegionInfo) (fun x s => { s with registerMinViableRegionInfo := x })
      (RegisterMinViableRegionInfo.deserializeJSON platform rInfo)
  | none => pure ()

def parseTrigger (v : Json) : Loading LoadError TriggerDetectionCaptureInfo Unit := do
  assign (fun x s => { s with timestamp := x })
    (getJsonValueByPath platform .double v ["triggerDetectionCaptureInfo", "timestamp"] Double.zero)
  assign (fun x s => { s with triggerType := x })
    (getJsonValueByPath platform .string v ["triggerDetectionCaptureInfo", "triggerType"] [])
  assign (fun x s => { s with locationName := x })
    (getJsonValueByPath platform .string v ["triggerDetectionCaptureInfo", "locationName"] [])
  assign (fun x s => { s with targetUpdateNamePrefix := x })
    (getJsonValueByPath platform .string v ["triggerDetectionCaptureInfo", "targetUpdateNamePrefix"] [])

def parseLocations (v : Json) : Loading LoadError ResultGetBinpickingState Unit := do
  zoom (·.removeObjectFromObjectListInfos) (fun x s => { s with removeObjectFromObjectListInfos := x })
    (parseList .initial (parseRemoveObjectFromObjectListInfo platform) v "removeObjectsFromObjectList")
  zoom (·.triggerDetectionCaptureInfo) (fun x s => { s with triggerDetectionCaptureInfo := x })
    (parseTrigger platform v)
  zoom (·.activeLocationTrackingInfos) (fun x s => { s with activeLocationTrackingInfos := x })
    (parseList .initial (parseLocationTrackingInfo platform) v "activeLocationTrackingInfos")
  zoom (·.locationExecutionInfos) (fun x s => { s with locationExecutionInfos := x })
    (parseList .initial (parseLocationExecutionInfo platform) v "locationExecutionInfos")
  zoom (·.pickPlaceHistoryItems) (fun x s => { s with pickPlaceHistoryItems := x }) (do
    update fun _ => []
    loadJsonValueByKey (loadVector .initial (PickPlaceHistoryItem.loadFromJson platform)) v
      "pickPlaceHistoryItems")

/-- `Parse` of a document whose `output` is `v`. -/
def parse (mode : UInt8) (v : Json) : Loading LoadError ResultGetBinpickingState Unit := do
  parseStatus platform v
  parseOrder platform v
  parseRegistration platform mode v
  parseLocations platform v

variable {platform : Platform}

theorem agree_parseList (start : α) (load : Load α) (v : Json) (key : String) :
    Agree (fun _ _ => True) (parseList start load v key) (· = ·) :=
  agree_reset_bind [] _

theorem agree_parseTrigger (v : Json) : Agree (fun _ _ => True) (parseTrigger platform v) (· = ·) := by
  unfold parseTrigger
  refine Writes.agree ((writes_assign _ _).bind ((writes_assign _ _).bind
    ((writes_assign _ _).bind (writes_assign _ _)))) ?_
  rintro ⟨_, _, _, _⟩ s t -
  rfl

theorem writes_parseRegistration (mode : UInt8) (v : Json) :
    Writes (fun x s => { s with registerMinViableRegionInfo := x }) (parseRegistration platform mode v) := by
  -- the registration info is reset first, so the parse is one of that field alone
  have field : parseRegistration platform mode v =
      zoom (·.registerMinViableRegionInfo) (fun x s => { s with registerMinViableRegionInfo := x }) (do
        update fun _ => .initial mode
        match ← lift (findMemberOf v "registerMinViableRegionInfo") with
        | some rInfo => RegisterMinViableRegionInfo.deserializeJSON platform rInfo
        | none => pure ()) := by
    funext s
    unfold parseRegistration
    rcases findMemberOf v "registerMinViableRegionInfo" with e | _ | rInfo <;> rfl
  rw [field]
  exact writes_zoom (agree_reset_bind _ _)

/-- A complete parse leaves the same state from every two states, up to the one field it never assigns. -/
theorem agree_parse_any (platform : Platform) (mode : UInt8) (v : Json) :
    Agree (fun _ _ => True) (parse platform mode v)
      (fun s t => { s with isDynamicEnvironmentStateEmpty := t.isDynamicEnvironmentStateEmpty } = t) := by
  have list : ∀ {α : Type} (start : α) (load : Load α) (key : String)
      {view : ResultGetBinpickingState → List α} {put : List α → ResultGetBinpickingState →
        ResultGetBinpickingState}, Writes put (zoom view put (parseList start load v key)) :=
    fun start load key => writes_zoom (agree_parseList start load v key)
  unfold parse parseStatus parseOrder parseLocations
  refine Writes.agree (Writes.bind
    -- status
    ((writes_update _).bind ((writes_assign _ _).bind ((writes_assign _ _).bind ((writes_assign _ _).bind
      ((writes_assign _ _).bind ((writes_assign _ _).bind ((writes_assign _ _).bind
        ((writes_assign _ _).bind (writes_assign _ _))))))))) (Writes.bind
    -- order
    ((list _ _ _).bind ((writes_assign _ _).bind ((writes_assign _ _).bind ((writes_assign _ _).bind
      ((writes_assign _ _).bind ((writes_assign _ _).bind ((writes_assign _ _).bind
        (writes_assign _ _)))))))) (Writes.bind
    (writes_parseRegistration mode v)
    -- locations
    ((list _ _ _).bind ((writes_zoom (agree_parseTrigger v)).bind ((list _ _ _).bind
      ((list _ _ _).bind (writes_zoom (agree_reset_bind _ _))))))))) ?_
  intro x s t _
  simp only [Function.comp_apply]

/-- `Parse` never assigns this field, also where it throws. -/
theorem keeps_parse (platform : Platform) (mode : UInt8) (v : Json) (empty : Bool) :
    Keeps (fun s => s.isDynamicEnvironmentStateEmpty = empty) (parse platform mode v) := by
  unfold parse parseStatus parseOrder parseRegistration parseLocations
  repeat' first
    | exact keeps_update _ fun s same => same
    | exact keeps_assign fun x s _ same => same
    | exact keeps_zoom_part fun s x same => same
    | refine keeps_lift_bind fun member found => ?_
    | refine Keeps.bind ?_ fun _ => ?_
  cases member
  · exact keeps_pure ()
  · exact keeps_zoom_part fun s x same => same

theorem agree_parse (platform : Platform) (mode : UInt8) (v : Json) :
    Agree (fun s t => s.isDynamicEnvironmentStateEmpty = t.isDynamicEnvironmentStateEmpty)
      (parse platform mode v) (· = ·) := by
  intro s t untouched
  rcases agree_parse_any platform mode v s t trivial with ⟨a, s', t', left, right, alike⟩ | failed
  · have first := keeps_parse platform mode v _ s untouched
    have second := keeps_parse platform mode v _ t rfl
    rw [left] at first
    rw [right] at second
    exact .inl ⟨a, s', t', left, right, by rw [← alike, second, ← first]⟩
  · exact .inr failed

/-- What a parse that returns leaves is what a parse into a new state leaves. -/
theorem parse_of_returned (untouched : s.isDynamicEnvironmentStateEmpty = false) (fresh mode : UInt8)
    (ran : parse platform mode v s = (.ok (), final)) :
    parse platform mode v (.initial fresh) = (.ok (), final) := by
  rcases agree_parse platform mode v s (.initial fresh) untouched with
    ⟨_, x, y, left, right, rfl⟩ | ⟨e, f, x, y, left, -⟩
  · rw [ran] at left
    rw [right, (Prod.mk.inj left).2]
  · rw [ran] at left
    simp at left

/-- The time stamp that a task state carries, in milliseconds. -/
def stamp (platform : Platform) (v : Json) : Option Int :=
  match getJsonValueByKey platform .double v "timestamp" Double.zero with
  | .ok seconds => some (milliseconds platform seconds).val
  | .error _ => none

theorem stamp_of_ok (known : getJsonValueByKey platform .double v "timestamp" Double.zero = .ok seconds) :
    stamp platform v = some (milliseconds platform seconds).val := by
  rw [stamp, known]

theorem keeps_later_stamp (platform : Platform) (invariant : Int → Prop) (mode : UInt8) (v : Json) :
    Keeps (fun s => invariant s.timestamp.val) (parseOrder platform v) ∧
    Keeps (fun s => invariant s.timestamp.val) (parseRegistration platform mode v) ∧
    Keeps (fun s => invariant s.timestamp.val) (parseLocations platform v) := by
  unfold parseOrder parseRegistration parseLocations
  refine ⟨?_, ?_, ?_⟩
  · repeat' first
      | exact keeps_assign fun x s _ same => same
      | exact keeps_zoom_part fun s x same => same
      | refine Keeps.bind ?_ fun _ => ?_
  · refine Keeps.bind (keeps_update _ fun s same => same) fun _ => keeps_lift_bind fun member found => ?_
    cases member
    · exact keeps_pure ()
    · exact keeps_zoom_part fun s x same => same
  · repeat' first
      | exact keeps_zoom_part fun s x same => same
      | refine Keeps.bind ?_ fun _ => ?_

/-- A parse that returns leaves the time stamp the JSON value carries. -/
theorem ensures_stamp (mode : UInt8) (v : Json) :
    Ensures (fun s => stamp platform v = some s.timestamp.val) (parse platform mode v) := by
  obtain ⟨order, registration, locations⟩ :=
    keeps_later_stamp platform (fun t => stamp platform v = some t) mode v
  have status : Ensures (fun s => stamp platform v = some s.timestamp.val) (parseStatus platform v) := by
    unfold parseStatus
    refine .last (fun _ => .last (fun _ => .last (fun _ => .last (fun _ => .last (fun _ =>
      .last (fun _ => .last (fun _ => ?_) _) _) _) _) _) _) _
    exact Ensures.then_keeps (ensures_assign fun seconds s known => stamp_of_ok known) fun _ =>
      keeps_assign fun _ _ _ same => same
  exact status.then_keeps fun _ => order.bind fun _ => registration.bind fun _ => locations

/-- Where a parse throws, the time stamp is the old one or the one the JSON value carries. -/
theorem keeps_stamp (old : Int) (mode : UInt8) (v : Json) :
    Keeps (fun s => s.timestamp.val = old ∨ stamp platform v = some s.timestamp.val)
      (parse platform mode v) := by
  obtain ⟨order, registration, locations⟩ := keeps_later_stamp platform
    (fun t => t = old ∨ stamp platform v = some t) mode v
  have status : Keeps (fun s => s.timestamp.val = old ∨ stamp platform v = some s.timestamp.val)
      (parseStatus platform v) := by
    unfold parseStatus
    refine Keeps.bind (keeps_update _ fun s same => same) fun _ => ?_
    iterate 6 refine Keeps.bind (keeps_assign fun x s _ same => same) fun _ => ?_
    exact Keeps.bind (keeps_assign fun seconds s known _ => .inr (stamp_of_ok known)) fun _ =>
      keeps_assign fun x s _ same => same
  exact status.bind fun _ => order.bind fun _ => registration.bind fun _ => locations

/-- `Parse` of the reply to a state query. -/
def parseReply (platform : Platform) (mode : UInt8) (pt : Json) :
    Loading LoadError ResultGetBinpickingState Unit :=
  match findMemberOf pt "output" with
  | .ok (some v) => parse platform mode v
  | _ => throw .assertion

end ResultGetBinpickingState
end MujinClient
