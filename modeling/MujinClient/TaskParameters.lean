import MujinClient.CommandDocument
import MujinClient.EnvironmentStates
import MujinClient.EscapedLines
import MujinClient.ResourceRequests
import MujinClient.SearchAndReplace

/-! The parameters of a task for ITL planning: how they are written, into a template, and how they are
read from what the task has. -/
namespace MujinClient

open Loading

structure ITLPlanningTaskParameters (R : Type) where
  startfromcurrent : int32.Value
  returnmode : Text
  vrcruns : int32.Value
  ignorefigure : int32.Value
  unit : Text
  optimizationvalue : Double
  program : Text
  parameters : Text
  initial_envstate : EnvironmentState R
  final_envstate : EnvironmentState R

def intOfBool (b : Bool) : int32.Value := int32.convert (boolInt b)

variable {R : Type}

namespace ITLPlanningTaskParameters

/-- `SetDefaults`, which leaves the parameters and the states as they are. -/
def setDefaults (taskparameters : ITLPlanningTaskParameters R) : ITLPlanningTaskParameters R :=
  { taskparameters with
    startfromcurrent := intOfBool false
    returnmode := lit "start"
    vrcruns := intOfBool true
    ignorefigure := intOfBool true
    unit := lit "mm"
    optimizationvalue := Double.ofInt 1
    program := [] }

def initial : ITLPlanningTaskParameters R :=
  setDefaults ⟨intOfBool false, [], intOfBool false, intOfBool false, [], Double.zero, [], [], .empty, .empty⟩

end ITLPlanningTaskParameters

theorem quote_nonempty : lit "\"" ≠ [] := by decide

theorem newline_nonempty : lit "\n" ≠ [] := by decide

theorem carriageReturn_nonempty : lit "\r\n" ≠ [] := by decide

namespace TaskResource

def serachpairs : List Replacement :=
  [⟨lit "\"", lit "\\\"", quote_nonempty⟩, ⟨lit "\n", lit "\\n", newline_nonempty⟩,
    ⟨lit "\r\n", lit "\\n", carriageReturn_nonempty⟩]

variable (print : R → Text)

def envstateText (name : String) (envstate : EnvironmentState R) : Text :=
  if envstate.entries.length > 0 then
    lit ", \"" ++ lit name ++ lit "\":" ++ serializeEnvironmentStateToJSON print envstate
  else []

def taskgoalput (taskparameters : ITLPlanningTaskParameters R) : Text :=
  lit "\x7b\"tasktype\": \"itlplanning\", \"taskparameters\":\x7b\"optimizationvalue\":" ++
  printFixed 6 taskparameters.optimizationvalue ++ lit ", \"program\":\"" ++
  Replacement.searchAndReplace taskparameters.program serachpairs ++
  lit "\", \"parameters\":" ++ taskparameters.parameters ++
  lit ", \"unit\":\"" ++ taskparameters.unit ++ lit "\", \"returnmode\":\"" ++ taskparameters.returnmode ++
  lit "\", \"startfromcurrent\":\"" ++ OptimizationResource.flagString taskparameters.startfromcurrent ++
  lit "\", \"ignorefigure\":\"" ++ OptimizationResource.flagString taskparameters.ignorefigure ++
  lit "\", \"vrcruns\":" ++ intText taskparameters.vrcruns.val ++ lit " " ++
  envstateText print "initial_envstate" taskparameters.initial_envstate ++ lit " " ++
  envstateText print "final_envstate" taskparameters.final_envstate ++ lit " \x7d \x7d"

def setTaskParameters (client : ControllerClient) (primaryKey : Text)
    (taskparameters : ITLPlanningTaskParameters R) : Request Unit := do
  let _ ← client.callPut (lit "task/" ++ primaryKey ++ lit "/?format=json&fields=")
      (taskgoalput print taskparameters) .json 202
    ControllerClient.defaultTimeout

end TaskResource

/-- The start of a line at this level of nesting. -/
def indented (indent level : Nat) : Text := 10 :: blanks (indent * level)

mutual
/-- `DumpJson` with an indent other than zero, of a value at this level of nesting. -/
def dumpIndented (platform : Platform) (indent level : Nat) : Json → Text
  | .array [] => lit "[]"
  | .array xs =>
    byte '[' :: separated [byte ','] (dumpLines platform indent (level + 1) xs) ++ indented indent level ++
      [byte ']']
  | .object [] => lit "{}"
  | .object xs =>
    byte '{' :: separated [byte ','] (dumpMemberLines platform indent (level + 1) xs) ++
      indented indent level ++ [byte '}']
  | v => dumpJson platform v

def dumpLines (platform : Platform) (indent level : Nat) : List Json → List Text
  | [] => []
  | x :: xs =>
    (indented indent level ++ dumpIndented platform indent level x) :: dumpLines platform indent level xs

def dumpMemberLines (platform : Platform) (indent level : Nat) : Json.Members → List Text
  | [] => []
  | (name, value) :: rest =>
    (indented indent level ++ dumpString name ++ lit ": " ++ dumpIndented platform indent level value) ::
    dumpMemberLines platform indent level rest
end

/-- `GetString`, which asserts that there is one. -/
def getCString : Json → Except LoadError Text
  | .string s => .ok (cString s)
  | _ => .error .assertion

def isTrue (v : Json) : Except LoadError Bool := (getCString v).map fun s => s = lit "True"

namespace TaskResource

/-- What the loop over the members notes of the modes. -/
structure ReturnFields where
  bhasreturnmode : Bool
  bhasreturntostart : Bool
  breturntostart : Bool

variable [Zero R] [One R] [Add R] [Mul R] [Div R] [LT R] [DecidableLT R] (sqrt : R → R) (platform : Platform)
  (number : Json → Except LoadError R)

/-- One turn of the loop over the members. -/
def readTaskParameter (taskparametersjson : Json) (v : Text × Json) :
    Loading LoadError (ITLPlanningTaskParameters R × ReturnFields) Unit :=
  if cString v.1 = lit "startfromcurrent" then
    assign (fun b s => ({ s.1 with startfromcurrent := intOfBool b }, s.2)) (isTrue v.2)
  else if cString v.1 = lit "returntostart" then
    assign (fun b s => (s.1, { s.2 with bhasreturntostart := true, breturntostart := b })) (isTrue v.2)
  else if cString v.1 = lit "returnmode" then
    assign (fun t s => ({ s.1 with returnmode := t }, { s.2 with bhasreturnmode := true })) (getCString v.2)
  else if cString v.1 = lit "ignorefigure" then
    assign (fun b s => ({ s.1 with ignorefigure := intOfBool b }, s.2)) (isTrue v.2)
  else if cString v.1 = lit "vrcruns" then
    zoom (·.1.vrcruns) (fun x s => ({ s.1 with vrcruns := x }, s.2))
      (loadJsonValueByKey (loadJsonValue platform (.integer .int)) taskparametersjson "vrcruns")
  else if cString v.1 = lit "unit" then
    assign (fun t s => ({ s.1 with unit := t }, s.2)) (getCString v.2)
  else if cString v.1 = lit "optimizationvalue" then
    zoom (·.1.optimizationvalue) (fun x s => ({ s.1 with optimizationvalue := x }, s.2))
      (loadJsonValueByKey (loadJsonValue platform .double) taskparametersjson "optimizationvalue")
  else if cString v.1 = lit "program" then
    assign (fun t s => ({ s.1 with program := t }, s.2)) (getCString v.2)
  else if cString v.1 = lit "parameters" then
    update fun s => ({ s.1 with parameters := dumpIndented platform 2 0 v.2 }, s.2)
  else if cString v.1 = lit "initial_envstate" then
    zoom (·.1.initial_envstate) (fun x s => ({ s.1 with initial_envstate := x }, s.2))
      (extractEnvironmentStateFromPTree sqrt platform number v.2)
  else if cString v.1 = lit "final_envstate" then
    zoom (·.1.final_envstate) (fun x s => ({ s.1 with final_envstate := x }, s.2))
      (extractEnvironmentStateFromPTree sqrt platform number v.2)
  else pure ()

/-- Tasks from before there were modes have a flag. -/
def keepReturnMode (s : ITLPlanningTaskParameters R × ReturnFields) : ITLPlanningTaskParameters R :=
  if s.2.bhasreturnmode = false ∧ s.2.bhasreturntostart then
    { s.1 with returnmode := if s.2.breturntostart then lit "start" else [] }
  else s.1

/-- The loop over the members, and what comes after it. -/
def readTaskParameters (taskparametersjson : Json) (members : Json.Members) :
    Loading LoadError (ITLPlanningTaskParameters R) Unit :=
  zoom (·, ⟨false, false, false⟩) (fun s _ => s.1) do
    forEach (readTaskParameter sqrt platform number taskparametersjson) members
    update fun s => (keepReturnMode s, s.2)

/-- What `GetTaskParameters` throws for a task of another type. -/
def otherType (primaryKey tasktype : Text) : LoadError :=
  .mujin ⟨lit "task " ++ primaryKey ++ lit " is type " ++ tasktype ++ lit ", expected itlplanning",
    .invalidArguments⟩

def getTaskParameters (callGet : Text → Except LoadError Json) (primaryKey : Text) :
    Loading LoadError (ITLPlanningTaskParameters R) Unit := do
  let pt ← lift (callGet (lit "task/" ++ primaryKey ++ lit "/?format=json&fields=taskparameters,tasktype"))
  let tasktype ← lift (valueByKey platform .string pt "tasktype")
  let taskparametersjson ← lift (if tasktype = lit "itlplanning" then memberOf pt "taskparameters" else
      .error (otherType primaryKey tasktype))
  update (·.setDefaults)
  let members ← lift (membersOf taskparametersjson)
  readTaskParameters sqrt platform number taskparametersjson members

end TaskResource

end MujinClient
