import MujinClient.CommandText

/-! The robot commands of a bin picking task. Each is a text made from the shared task
parameters and its own arguments, and some of them store options in the parameters. -/
namespace MujinClient

structure CropContainerMarginsXYZXYZ where
  minMargins : Vec 3
  maxMargins : Vec 3

structure AddPointOffsetInfo where
  zOffsetAtBottom : Double
  zOffsetAtTop : Double

/-- The calls that hand a text to `ExecuteCommand`, by their arguments. `pTraj` is whether
the caller asks for the trajectory; results and timeouts are not part of the text. -/
inductive Command where
  | getJointValues (unit : Text)
  | setInstantaneousJointValues (jointvalues : List Double) (unit : Text)
  | computeIkParamPosition (name unit : Text)
  | computeIKFromParameters (targetname : Text) (ikparamnames : List Text) (filteroptions limit : Int32)
  | moveJoints (goaljoints : List Double) (jointindices : List Int32) (envclearance speed : Double) (pTraj : Bool)
  | getTransform (targetname unit : Text)
  | sendMVRRegistrationResult (mvrResultInfo : Json)
  | sendRemoveObjectsFromObjectListResult (infos : List RemoveObjectFromObjectListInfo) (success : Bool)
  | sendTriggerDetectionCaptureResult (triggerType returnCode : Text)
  | setTransform (targetname : Text) (transform : Transform) (unit : Text)
  | getManipTransformToRobot (unit : Text)
  | getManipTransform (unit : Text)
  | getAABB (targetname unit : Text)
  | getInnerEmptyRegionOBB (targetname linkname unit : Text)
  | getOBB (targetname linkname unit : Text)
  | updateObjects (objectname : Text) (detectedobjects : List DetectedObject) (resultstate unit : Text)
  | addPointCloudObstacle (vpoints : List Double) (pointsize : Double) (name : Text)
      (starttimestamp endtimestamp : UInt64) (executionverification : Bool) (unit : Text) (isoccluded : Int32)
      (locationName : Text) (clampToContainer : Bool) (cropContainerMargins : Option CropContainerMarginsXYZXYZ)
      (addPointOffsetInfo : Option AddPointOffsetInfo)
  | updateEnvironmentState (objectname : Text) (detectedobjects : List DetectedObject) (vpoints : List Double)
      (state : Text) (pointsize : Double) (pointcloudobstaclename unit locationName : Text)
      (cameranames : List Text) (cropContainerMargins : Option CropContainerMarginsXYZXYZ)
  | removeObjectsWithPrefix ( objectPrefix : Text)
  | visualizePointCloud (pointslist : List (List Double)) (pointsize : Double) (names : List Text) (unit : Text)
  | clearVisualization
  | getPickedPositions (unit : Text)
  | isRobotOccludingBody (check : SensorOcclusionCheck)
  | getInstObjectAndSensorInfo (instobjectnames : List Text)
    (sensorSelectionInfos : List SensorSelectionInfo) (unit : Text)
  | getInstObjectInfoFromURI (objecturi : Text) (instobjecttransform : Transform) (unit : Text)
  | getPublishedTaskState (robotname unit : Text)
  | getBinpickingState (robotname unit : Text)
  | getITLState (robotname unit : Text)
  | setJogModeVelocities (jogtype : Text) (movejointsigns : List Int32) (robotname toolname : Text)
      (robotspeed robotaccelmult : Double)
  | moveToolLinear (goaltype : Text) (goals : List Double) (robotname toolname : Text)
      (workspeedlin workspeedrot : Double) (checkEndeffectorCollision pTraj : Bool)
  | moveToolLinearByIkParam (instobjectname ikparamname robotname toolname : Text)
      (workspeedlin workspeedrot : Double) (checkEndeffectorCollision pTraj : Bool)
  | moveToHandPosition (goaltype : Text) (goals : List Double) (robotname toolname : Text)
      (robotspeed envclearance : Double) (pTraj : Bool)
  | moveToHandPositionByIkParam (instobjectname ikparamname robotname toolname : Text)
      (robotspeed envclearance : Double) (pTraj : Bool)
  | getGrabbed (robotname : Text)
  | executeSingleXMLTrajectory (trajectory : Text) (filterTraj : Bool)
  | grab (targetname robotname toolname : Text)
  | release (targetname robotname toolname : Text)
  | getRobotBridgeIOVariableString (ionames : List Text)

def serializeGetStateCommand (functionname : String) (tasktype robotname unit : Text) : Text :=
  getJsonStringValue "command" (lit functionname) ++ lit ", " ++
  getJsonStringValue "tasktype" tasktype ++ lit ", " ++
  streamIf (robotname ≠ []) (getJsonStringValue "robotname" robotname ++ lit ", ") ++
  getJsonStringValue "unit" unit ++ [byte '}']

/-- `robotspeed >= 0`, and the same test of the other optional speeds and clearances. -/
def streamSpeed (key : String) (value : Double) : Text :=
  streamIf (Double.le Double.zero value) (keyed key (printDouble 16 value) ++ lit ", ")

def generateMoveToolCommand (movetype : String) (goaltype : Text) (goals : List Double) (robotname toolname : Text)
    (robotspeed envclearance : Double) : Text :=
  getJsonStringValue "command" (lit movetype) ++ lit ", " ++
  getJsonStringValue "goaltype" goaltype ++ lit ", " ++
  streamIf (robotname ≠ []) (getJsonStringValue "robotname" robotname ++ lit ", ") ++
  streamIf (toolname ≠ []) (getJsonStringValue "toolname" toolname ++ lit ", ") ++
  streamSpeed "robotspeed" robotspeed ++
  streamSpeed "envclearance" envclearance ++
  keyed "goals" (getJsonStringDoubles goals) ++ [byte '}']

def generateMoveToolByIkParamCommand (movetype : String) (instobjectname ikparamname robotname toolname : Text)
    (robotspeed envclearance : Double) : Text :=
  getJsonStringValue "command" (lit movetype) ++ lit ", " ++
  lit "\"goaltype\": null," ++
  getJsonStringValue "instobjectname" instobjectname ++ lit ", " ++
  streamIf (robotname ≠ []) (getJsonStringValue "robotname" robotname ++ lit ", ") ++
  streamIf (toolname ≠ []) (getJsonStringValue "toolname" toolname ++ lit ", ") ++
  streamSpeed "robotspeed" robotspeed ++
  streamSpeed "envclearance" envclearance ++
  getJsonStringValue "ikparamname" ikparamname ++ [byte '}']

def marginsText (m : CropContainerMarginsXYZXYZ) : Text :=
  lit "\"cropContainerMarginsXYZXYZ\":" ++ getJsonStringDoubles (m.minMargins.val ++ m.maxMargins.val) ++ lit ", "

def offsetText (info : AddPointOffsetInfo) : Text :=
  lit "\"addPointOffsetInfo\":\x7b" ++
  lit "\"zOffsetAtBottom\": " ++ printDouble 16 info.zOffsetAtBottom ++ lit ", " ++
  lit "\"zOffsetAtTop\": " ++ printDouble 16 info.zOffsetAtTop ++ lit ", " ++
  lit "\"use\": true" ++ lit "\x7d, "

def stateText (state : Text) : Text := if state = [] then lit "\x7b\x7d" else state

/-- `GetOBB` and `GetInnerEmptyRegionOBB`. -/
def regionText (command : String) (tasktype targetname linkname unit : Text) : Text :=
  getJsonStringValue "command" (lit command) ++ lit ", " ++
  getJsonStringValue "targetname" targetname ++ lit ", " ++
  streamIf (linkname ≠ []) (getJsonStringValue "linkname" linkname ++ lit ", ") ++
  getJsonStringValue "tasktype" tasktype ++ lit ", " ++
  getJsonStringValue "unit" unit ++ [byte '}']

/-- `Grab` and `Release`. -/
def grabText (command : String) (targetname robotname toolname : Text) : Text :=
  getJsonStringValue "command" (lit command) ++ lit ", " ++
  getJsonStringValue "targetname" targetname ++
  streamIf (robotname ≠ []) (lit ", " ++ getJsonStringValue "robotname" robotname) ++
  streamIf (toolname ≠ []) (lit ", " ++ getJsonStringValue "toolname" toolname) ++ [byte '}']

def updateObjects (tasktype objectname : Text) (detectedobjects : List DetectedObject) (resultstate unit : Text) :
    Text :=
  getJsonStringValue "command" (lit "UpdateObjects") ++ lit ", " ++
  getJsonStringValue "tasktype" tasktype ++ lit ", " ++
  getJsonStringValue "objectname" objectname ++ lit ", " ++
  keyed "envstate" (listText (detectedobjects.map getJsonStringObject)) ++ lit ", " ++
  keyed "detectionResultState" (stateText resultstate) ++ lit ", " ++
  getJsonStringValue "unit" unit ++ [byte '}']

def addPointCloudObstacle (tasktype pointCloud : Text) (starttimestamp endtimestamp : UInt64)
    (executionverification : Bool) (unit : Text) (isoccluded : Int32) (locationName : Text)
    (clampToContainer : Bool)
    (cropContainerMargins : Option CropContainerMarginsXYZXYZ) (addPointOffsetInfo : Option AddPointOffsetInfo) :
    Text :=
  getJsonStringValue "command" (lit "AddPointCloudObstacle") ++ lit ", " ++
  getJsonStringValue "tasktype" tasktype ++ lit ", " ++
  getJsonStringInt "isoccluded" isoccluded.val ++ lit ", " ++
  getJsonStringValue "locationName" locationName ++ lit ", " ++
  getJsonStringInt "clampToContainer" (boolInt clampToContainer) ++ lit ", " ++
  cropContainerMargins.elim [] marginsText ++ addPointOffsetInfo.elim [] offsetText ++ pointCloud ++
  lit ", \"starttimestamp\": " ++ intText starttimestamp.val ++
  lit ", \"endtimestamp\": " ++ intText endtimestamp.val ++
  lit ", \"executionverification\": " ++ intText (boolInt executionverification) ++
  lit ", " ++ getJsonStringValue "unit" unit ++ [byte '}']

def updateEnvironmentState (tasktype objectname : Text) (detectedobjects : List DetectedObject)
    (pointCloud state unit locationName : Text) (cameranames : List Text)
    (cropContainerMargins : Option CropContainerMarginsXYZXYZ) : Text :=
  getJsonStringValue "command" (lit "UpdateEnvironmentState") ++ lit ", " ++
  getJsonStringValue "tasktype" tasktype ++ lit ", " ++
  getJsonStringValue "objectname" objectname ++ lit ", " ++
  getJsonStringValue "locationName" locationName ++ lit ", " ++
  lit "\"cameranames\":" ++ getJsonStringStrings cameranames ++ lit ", " ++
  keyed "envstate" (listText (detectedobjects.map getJsonStringObject)) ++ lit ", " ++
  keyed "detectionResultState" (stateText state) ++ lit ", " ++
  getJsonStringValue "unit" unit ++ lit ", " ++
  cropContainerMargins.elim [] marginsText ++ pointCloud ++ [byte '}']

def setJogModeVelocities (jogtype : Text) (movejointsigns : List Int32) (robotname toolname : Text)
    (robotspeed robotaccelmult : Double) : Text :=
  getJsonStringValue "command" (lit "SetJogModeVelocities") ++ lit ", " ++
  getJsonStringValue "jogtype" jogtype ++ lit ", " ++
  streamIf (robotname ≠ []) (getJsonStringValue "robotname" robotname ++ lit ", ") ++
  streamIf (toolname ≠ []) (getJsonStringValue "toolname" toolname ++ lit ", ") ++
  streamSpeed "robotspeed" robotspeed ++
  streamSpeed "robotaccelmult" robotaccelmult ++
  keyed "movejointsigns" (getJsonStringInts movejointsigns) ++ [byte '}']

inductive Assembly where
  /-- Streamed after the shared parameters. -/
  | stream (body : Text)
  /-- These members are set in a document that holds the shared parameters. -/
  | document (members : Json.Members)
  /-- No text is handed over. -/
  | nothing

def saveDoubles (values : List Double) : Json := .array (values.map .double)

/-- `published` is whether the task state that was received has a time stamp. -/
def Command.assemble (platform : Platform) (tasktype : Text) (published : Bool) : Command → Assembly
  | .getJointValues unit => .stream <|
    getJsonStringValue "command" (lit "GetJointValues") ++ lit ", " ++
    getJsonStringValue "robottype" (lit "densowave") ++ lit ", " ++
    getJsonStringValue "unit" unit ++ lit ", " ++
    getJsonStringValue "tasktype" tasktype ++ [byte '}']
  | .setInstantaneousJointValues jointvalues unit => .document
    [(lit "command", .string (lit "SetInstantaneousJointValues")), (lit "tasktype", saveString tasktype),
      (lit "jointvalues", saveDoubles jointvalues), (lit "unit", saveString unit)]
  | .computeIkParamPosition name unit => .document
    [(lit "command", .string (lit "ComputeIkParamPosition")), (lit "tasktype", saveString tasktype),
      (lit "name", saveString name), (lit "unit", saveString unit)]
  | .computeIKFromParameters targetname ikparamnames filteroptions limit => .document
    [(lit "command", .string (lit "ComputeIKFromParameters")), (lit "tasktype", saveString tasktype),
      (lit "targetname", saveString targetname), (lit "ikparamnames", .array (ikparamnames.map saveString)),
      (lit "filteroptions", saveInteger .int filteroptions), (lit "limit", saveInteger .int limit)]
  | .moveJoints goaljoints jointindices envclearance speed _ => .stream <|
    getJsonStringValue "command" (lit "MoveJoints") ++ lit ", " ++
    getJsonStringValue "robottype" (lit "densowave") ++ lit ", " ++
    getJsonStringValue "tasktype" tasktype ++ lit ", " ++
    keyed "goaljoints" (getJsonStringDoubles goaljoints) ++ lit ", " ++
    keyed "jointindices" (getJsonStringInts jointindices) ++ lit ", " ++
    getJsonStringReal "envclearance" envclearance ++ lit ", " ++
    getJsonStringReal "speed" speed ++ [byte '}']
  | .getTransform targetname unit => .stream <|
    getJsonStringValue "command" (lit "GetTransform") ++ lit ", " ++
    getJsonStringValue "targetname" targetname ++ lit ", " ++
    getJsonStringValue "tasktype" tasktype ++ lit ", " ++
    getJsonStringValue "unit" unit ++ [byte '}']
  | .sendMVRRegistrationResult mvrResultInfo => .stream <|
    getJsonStringValue "command" (lit "SendMVRRegistrationResult") ++ lit ", " ++
    getJsonStringValue "mvrResultInfo" (dumpJson platform mvrResultInfo) ++ [byte '}']
  | .sendRemoveObjectsFromObjectListResult infos success => .stream <|
    getJsonStringValue "command" (lit "SendRemoveObjectsFromObjectListResult") ++ lit ", " ++
    keyed "objectPks" (getJsonStringStrings (infos.map (·.objectPk))) ++ lit ", " ++
    getJsonStringInt "success" (boolInt success) ++ [byte '}']
  | .sendTriggerDetectionCaptureResult triggerType returnCode => .stream <|
    getJsonStringValue "command" (lit "SendTriggerDetectionCaptureResult") ++ lit ", " ++
    getJsonStringValue "triggerType" triggerType ++ lit ", " ++
    getJsonStringValue "returnCode" returnCode ++ [byte '}']
  | .setTransform targetname transform unit => .stream <|
    getJsonStringValue "command" (lit "SetTransform") ++ lit ", " ++
    getJsonStringValue "targetname" targetname ++ lit ", " ++
    getJsonStringValue "tasktype" tasktype ++ lit ", " ++
    getJsonStringTransform transform ++ lit ", " ++
    getJsonStringValue "unit" unit ++ [byte '}']
  | .getManipTransformToRobot unit => .stream <|
    getJsonStringValue "command" (lit "GetManipTransformToRobot") ++ lit ", " ++
    getJsonStringValue "tasktype" tasktype ++ lit ", " ++
    getJsonStringValue "unit" unit ++ [byte '}']
  | .getManipTransform unit => .stream <|
    getJsonStringValue "command" (lit "GetManipTransform") ++ lit ", " ++
    getJsonStringValue "tasktype" tasktype ++ lit ", " ++
    getJsonStringValue "unit" unit ++ [byte '}']
  | .getAABB targetname unit => .stream <|
    getJsonStringValue "command" (lit "GetAABB") ++ lit ", " ++
    getJsonStringValue "targetname" targetname ++ lit ", " ++
    getJsonStringValue "tasktype" tasktype ++ lit ", " ++
    getJsonStringValue "unit" unit ++ [byte '}']
  | .getInnerEmptyRegionOBB targetname linkname unit =>
    .stream (regionText "GetInnerEmptyRegionOBB" tasktype targetname linkname unit)
  | .getOBB targetname linkname unit => .stream (regionText "GetOBB" tasktype targetname linkname unit)
  | .updateObjects objectname detectedobjects resultstate unit =>
    .stream (MujinClient.updateObjects tasktype objectname detectedobjects resultstate unit)
  | .addPointCloudObstacle vpoints pointsize name starttimestamp endtimestamp executionverification unit isoccluded
      locationName clampToContainer cropContainerMargins addPointOffsetInfo =>
    match getJsonStringPointCloud ⟨name, vpoints, pointsize⟩ with
    | none => .nothing
    | some pointCloud => .stream (MujinClient.addPointCloudObstacle tasktype pointCloud starttimestamp endtimestamp
        executionverification unit isoccluded locationName clampToContainer cropContainerMargins
          addPointOffsetInfo)
  | .updateEnvironmentState objectname detectedobjects vpoints state pointsize pointcloudobstaclename unit
      locationName cameranames cropContainerMargins =>
    match getJsonStringPointCloud ⟨pointcloudobstaclename, vpoints, pointsize⟩ with
    | none => .nothing
    | some pointCloud => .stream (MujinClient.updateEnvironmentState tasktype objectname detectedobjects pointCloud
        state unit locationName cameranames cropContainerMargins)
  | .removeObjectsWithPrefix objectPrefix => .stream <|
    getJsonStringValue "command" (lit "RemoveObjectsWithPrefix") ++ lit ", " ++
    getJsonStringValue "prefix" objectPrefix ++ [byte '}']
  | .visualizePointCloud pointslist pointsize names unit => .stream <|
    getJsonStringValue "command" (lit "VisualizePointCloud") ++ lit ", " ++
    getJsonStringValue "tasktype" tasktype ++ lit ", " ++
    keyed "pointslist" (listText (pointslist.map getJsonStringFloats)) ++ lit ", " ++
    keyed "pointsize" (printDouble 16 pointsize) ++ lit ", " ++
    keyed "names" (getJsonStringStrings names) ++ lit ", " ++
    getJsonStringValue "unit" unit ++ [byte '}']
  | .clearVisualization => .stream <|
    getJsonStringValue "command" (lit "ClearVisualization") ++ lit ", " ++
    getJsonStringValue "tasktype" tasktype ++ [byte '}']
  | .getPickedPositions unit => .stream <|
    getJsonStringValue "command" (lit "GetPickedPositions") ++ lit "," ++
    getJsonStringValue "tasktype" tasktype ++ lit ", " ++
    getJsonStringValue "unit" unit ++ [byte '}']
  | .isRobotOccludingBody check => .stream <|
    getJsonStringValue "command" (lit "IsRobotOccludingBody") ++ lit ", " ++
    getJsonStringValue "tasktype" tasktype ++ lit ", " ++
    getJsonStringCheck check ++ [byte '}']
  | .getInstObjectAndSensorInfo instobjectnames sensorSelectionInfos unit => .stream <|
    getJsonStringValue "command" (lit "GetInstObjectAndSensorInfo") ++ lit ", " ++
    getJsonStringValue "tasktype" tasktype ++ lit ", " ++
    keyed "instobjectnames" (getJsonStringStrings instobjectnames) ++ lit ", " ++
    keyed "sensorSelectionInfos" (getJsonStringSelectionInfos platform sensorSelectionInfos) ++ lit ", " ++
    getJsonStringValue "unit" unit ++ [byte '}']
  | .getInstObjectInfoFromURI objecturi instobjecttransform unit => .stream <|
    getJsonStringValue "command" (lit "GetInstObjectInfoFromURI") ++ lit ", " ++
    getJsonStringValue "unit" unit ++ lit ", " ++
    lit "\"objecturi\":" ++ getJsonString objecturi ++ lit ", " ++
    lit "\"instobjectpose\":" ++
    getJsonStringDoubles (instobjecttransform.quaternion.val ++ instobjecttransform.translate.val) ++ [byte '}']
  | .getPublishedTaskState robotname unit =>
    -- both GetBinpickingState and GetITLState ask for GetState
    if published then .nothing else .stream (serializeGetStateCommand "GetState" tasktype robotname unit)
  | .getBinpickingState robotname unit | .getITLState robotname unit =>
    .stream (serializeGetStateCommand "GetState" tasktype robotname unit)
  | .setJogModeVelocities jogtype movejointsigns robotname toolname robotspeed robotaccelmult =>
    .stream (MujinClient.setJogModeVelocities jogtype movejointsigns robotname toolname robotspeed robotaccelmult)
  | .moveToolLinear goaltype goals robotname toolname _ _ _ _ =>
    .stream (generateMoveToolCommand "MoveToolLinear" goaltype goals robotname toolname (Double.ofInt (-1))
      (Double.ofInt (-1)))
  | .moveToolLinearByIkParam instobjectname ikparamname robotname toolname _ _ _ _ =>
    .stream (generateMoveToolByIkParamCommand "MoveToolLinear" instobjectname ikparamname robotname toolname
      (Double.ofInt (-1)) (Double.ofInt (-1)))
  | .moveToHandPosition goaltype goals robotname toolname robotspeed envclearance _ =>
    .stream (generateMoveToolCommand "MoveToHandPosition" goaltype goals robotname toolname robotspeed
      envclearance)
  | .moveToHandPositionByIkParam instobjectname ikparamname robotname toolname robotspeed envclearance _ =>
    .stream (generateMoveToolByIkParamCommand "MoveToHandPosition" instobjectname ikparamname robotname toolname
      robotspeed envclearance)
  | .getGrabbed robotname => .document <|
    [(lit "command", .string (lit "GetGrabbed")), (lit "tasktype", saveString tasktype)] ++
      if robotname = [] then [] else [(lit "robotname", saveString robotname)]
  | .executeSingleXMLTrajectory trajectory filterTraj => .stream <|
    getJsonStringValue "command" (lit "ExecuteSingleXMLTrajectory") ++ lit ", " ++
    getJsonStringInt "filtertraj" (boolInt filterTraj) ++ lit ", " ++
    getJsonStringValue "trajectory" trajectory ++ [byte '}']
  | .grab targetname robotname toolname => .stream (grabText "Grab" targetname robotname toolname)
  | .release targetname robotname toolname => .stream (grabText "Release" targetname robotname toolname)
  | .getRobotBridgeIOVariableString ionames => .stream <|
    getJsonStringValue "command" (lit "GetRobotBridgeIOVariableString") ++ lit ", " ++
    lit "\"ionames\":" ++ getJsonStringStrings ionames ++ [byte '}']

end MujinClient
