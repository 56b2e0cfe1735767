import MujinClient.JsonWriter
import MujinClient.Maps
import MujinClient.TaskState

/-! The pieces a command's text is streamed from: `utils::GetJsonString` and the shared
task parameters in front of every command. -/
namespace MujinClient

-- `utils::GetJsonString` escapes quotes only.
def escapeQuote (b : Byte) : Text := if b = byte '"' then [byte '\\', b] else [b]

def getJsonString (str : Text) : Text := quoted (str.flatMap escapeQuote)

/-- `GetJsonString(key) << ": "` and what is streamed after it. -/
def keyed (key : String) (value : Text) : Text := getJsonString (lit key) ++ lit ": " ++ value

def listText (texts : List Text) : Text := byte '[' :: separated (lit ", ") texts ++ [byte ']']

def getJsonStringFloats (vec : List Double) : Text := listText (vec.map (printDouble 7))
def getJsonStringDoubles (vec : List Double) : Text := listText (vec.map (printDouble 16))
def getJsonStringInts (vec : List Int32) : Text := listText (vec.map fun x => intText x.val)
def getJsonStringStrings (vec : List Text) : Text := listText (vec.map getJsonString)

def getJsonStringValue (key : String) (value : Text) : Text := keyed key (getJsonString value)
def getJsonStringInt (key : String) (value : Int) : Text := keyed key (intText value)
def getJsonStringReal (key : String) (value : Double) : Text := keyed key (printDouble 6 value)

/-- A `bool` argument takes the overload for integers. -/
def boolInt (b : Bool) : Int := if b then 1 else 0

def streamIf (condition : Bool) (text : Text) : Text := if condition then text else []

def getJsonStringTransform (transform : Transform) : Text :=
  keyed "translation" (getJsonStringDoubles transform.translate.val) ++ lit ", " ++
  keyed "quaternion" (getJsonStringDoubles transform.quaternion.val)

structure DetectedObject where
  name : Text
  object_uri : Text
  transform : Transform
  confidence : Text
  timestamp : UInt64
  extra : Text
  isPickable : Bool

def getJsonStringObject (obj : DetectedObject) : Text :=
  [byte '{'] ++
  getJsonStringValue "name" obj.name ++ lit ", " ++
  getJsonStringValue "object_uri" obj.object_uri ++ lit ", " ++
  keyed "translation" (getJsonStringDoubles obj.transform.translate.val) ++ lit ", " ++
  keyed "quaternion" (getJsonStringDoubles obj.transform.quaternion.val) ++ lit ", " ++
  keyed "confidence" obj.confidence ++ lit ", " ++
  keyed "sensortimestamp" (intText obj.timestamp.val) ++ lit ", " ++
  keyed "isPickable" (intText (boolInt obj.isPickable)) ++
  streamIf (obj.extra ≠ []) (lit ", " ++ keyed "extra" obj.extra) ++ [byte '}']

structure PointCloudObstacle where
  name : Text
  points : List Double
  pointsize : Double

/-- The loop over the points in steps of three. Points with a not-a-number are skipped.
It reads past the end if the last point is not whole. -/
def pointTexts : List Double → Option (List Text)
  | [] => some []
  | [x] => if x.isNan then some [] else none
  | [x, y] => if x.isNan || y.isNan then some [] else none
  | x :: y :: z :: rest => (pointTexts rest).map fun later =>
    if x.isNan || y.isNan || z.isNan then later
    else separated [byte ','] [printDouble 7 x, printDouble 7 y, printDouble 7 z] :: later

/-- For vectors that an index of 32 bits gets through. -/
def getJsonStringPointCloud (obj : PointCloudObstacle) : Option Text :=
  (pointTexts obj.points).map fun points =>
    getJsonStringValue "pointcloudid" obj.name ++ lit ", " ++
    keyed "pointsize" (printDouble 7 obj.pointsize) ++ lit ", " ++
    keyed "points" (byte '[' :: separated [byte ','] points ++ [byte ']'])

structure SensorOcclusionCheck where
  bodyname : Text
  cameraname : Text
  starttime : UInt64
  endtime : UInt64

def getJsonStringCheck (check : SensorOcclusionCheck) : Text :=
  getJsonStringValue "bodyname" check.bodyname ++ lit ", " ++
  getJsonStringValue "cameraname" check.cameraname ++ lit ", " ++
  keyed "starttime" (intText check.starttime.val) ++ lit ", " ++
  keyed "endtime" (intText check.endtime.val)

/-- `SaveJsonValue` of the infos, written by `mujinjson::GetJsonString`. -/
def getJsonStringSelectionInfos (platform : Platform) (infos : List SensorSelectionInfo) : Text :=
  dumpJson platform (.array (infos.map fun info => .object
    [(lit "sensorName", saveString info.sensorName), (lit "sensorLinkName", saveString info.sensorLinkName)]))

abbrev TaskParameters := SortedMap Text Text

/-- `Initialize` with the members of the parsed default parameters. -/
def initialParameters (platform : Platform) (defaults : Json.Members) : TaskParameters :=
  SortedMap.empty.insertAll (defaults.map fun member => (cString member.1, dumpJson platform member.2))

def parameterText (entry : Text × Text) : Text := byte '"' :: entry.1 ++ lit "\":" ++ entry.2 ++ lit ", "

/-- `SetMapTaskParameters`. The names are not escaped. -/
def setMapTaskParameters (params : TaskParameters) : Text := byte '{' :: params.entries.flatMap parameterText

example : setMapTaskParameters (SortedMap.empty.insert (lit "speed") (lit "0.5")) ++
    getJsonStringValue "name" (lit "a\"b") ++ [byte '}'] = lit "\x7b\"speed\":0.5, \"name\": \"a\\\"b\"\x7d" := by
  decide +kernel

theorem lit_comma : lit ", " = [byte ',', 32] := rfl

theorem lit_colon : lit ": " = [byte ':', 32] := rfl

variable {token : Text → Option Json}

theorem yields_listText (each : List.Forall₂ (Yields token) ts vs) : Yields token (listText ts) (.array vs) := by
  have spaces : Spaces [32] := by simp [Spaces, isSpace]
  rw [listText, lit_comma]
  exact yields_array spaces each

/-- No control characters and no backslashes. Quotes are escaped. -/
def Clean (t : Text) : Prop := ∀ b ∈ t, 32 ≤ b.val ∧ b ≠ byte '\\'

instance : DecidablePred Clean := fun t => inferInstanceAs (Decidable (∀ b ∈ t, 32 ≤ b.val ∧ b ≠ byte '\\'))

/-- The characters of a literal are looked at one by one. -/
theorem clean_lit (cs : List Char) (each : cs.all fun c => 32 ≤ c.toNat && c.toNat < 128 && c.toNat ≠ 92) :
    Clean (lit (String.ofList cs)) := by
  intro b member
  obtain ⟨c, bounds, rfl⟩ := char_of_mem_lit each member
  simp only [Bool.and_eq_true, decide_eq_true_eq] at bounds
  have value : (Fin.ofNat 256 c.toNat).val = c.toNat := Nat.mod_eq_of_lt (by omega)
  refine ⟨by omega, fun same => ?_⟩
  have backslash : c.toNat = 92 := value.symm.trans (congrArg Fin.val same)
  omega

theorem unescapes_escapeQuote (clean : Clean s) : Unescapes token (s.flatMap escapeQuote) s := by
  have each : ∀ b : Byte, 32 ≤ b.val → b ≠ byte '\\' → unescape [] [] (escapeQuote b) = some [b] := by
    decide +kernel
  exact unescapes_flatMap fun b inside => unescapes_of_unescape (each b (clean b inside).1 (clean b inside).2)

theorem yields_getJsonString (clean : Clean s) : Yields token (getJsonString s) (.string s) :=
  yields_string (unescapes_escapeQuote clean)

/-- Keys are literals of the source. -/
theorem readsMember_keyed (key : String) (yields : Yields token t v) (clean : Clean (lit key)) :
    ReadsMember token (keyed key t) (lit key) v := by
  have spaces : Spaces [32] := by simp [Spaces, isSpace]
  have member := readsMember (unescapes_escapeQuote clean) spaces yields
  simpa [keyed, getJsonString, lit_colon] using member

theorem readsMember_value (key : String) (clean : Clean (lit key)) (value : Clean s) :
    ReadsMember token (getJsonStringValue key s) (lit key) (.string s) :=
  readsMember_keyed _ (yields_getJsonString value) clean

def memberIf (condition : Bool) (name : String) (v : Json) : Json.Members :=
  if condition then [(lit name, v)] else []

theorem Opens.next (opens : Opens token t members) (member : ReadsMember token u name v) :
    Opens token (t ++ (u ++ lit ", ")) (members ++ [(name, v)]) := by
  have spaces : Spaces [32] := by simp [Spaces, isSpace]
  have opened := opens.comma member spaces
  rwa [← lit_comma, List.append_assoc] at opened

theorem Opens.nextIf (opens : Opens token t members) (condition : Bool)
    (member : condition = true → ReadsMember token u (lit name) v) :
    Opens token (t ++ streamIf condition (u ++ lit ", ")) (members ++ memberIf condition name v) := by
  cases condition with
  | false => simpa [streamIf, memberIf] using opens
  | true => exact opens.next (member rfl)

end MujinClient
