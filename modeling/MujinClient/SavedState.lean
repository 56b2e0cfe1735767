import MujinClient.Accumulation
import MujinClient.RoundTrip
import MujinClient.TaskState

/-! The object to register and the pick history of a slave, saved as JSON and loaded back. What
a load leaves in a target that is used again is what was saved. -/
namespace MujinClient

open Loading

/-- `SetJsonValueByKey` under a key that is not there yet. -/
def savedMember (key : String) (ty : Ty) (x : ty.Val) : Text × Json := (lit key, saveJsonValue ty x)

/-- A document is added unless it is null. -/
def savedDocument (key : String) (v : Json) : Json.Members := if v.isNull then [] else [(lit key, v)]

def getMinViableRegionRegistrationModeString (mode : UInt8) : Text :=
  match mode.val with
  | 0 => lit "None"
  | 1 => lit "Lift"
  | 2 => lit "Drag"
  | 3 => lit "PerpendicularDrag"
  | _ => lit "(unknown)"

def MinViableRegionInfo.savedMembers (region : MinViableRegionInfo) : Json.Members := [
  savedMember "size2D" (.array .double 2) region.size2D,
  savedMember "maxPossibleSize" (.array .double 3) region.maxPossibleSize,
  savedMember "maxPossibleSizeOriginal" (.array .double 3) region.maxPossibleSizeOriginal,
  savedMember "cornerMask" (.integer .uint8) region.cornerMask,
  savedMember "cornerMaskOriginal" (.integer .uint8) region.cornerMaskOriginal]

namespace RegisterMinViableRegionInfo

def savedShape (info : RegisterMinViableRegionInfo) : Json.Members := [
  (lit "minViableRegion", .object info.minViableRegion.savedMembers),
  savedMember "locationName" .string info.locationName,
  savedMember "translation" (.array .double 3) info.translation,
  savedMember "quaternion" (.array .double 4) info.quaternion,
  savedMember "objectWeight" .double info.objectWeight,
  savedMember "objectType" .string info.objectType,
  savedMember "sensorTimeStampMS" (.integer .uint64) info.sensorTimeStampMS,
  savedMember "robotDepartStopTimestamp" .double info.robotDepartStopTimestamp,
  savedMember "liftedWorldOffset" (.array .double 3) info.liftedWorldOffset,
  savedMember "minCandidateSize" (.array .double 3) info.minCandidateSize,
  savedMember "maxCandidateSize" (.array .double 3) info.maxCandidateSize,
  savedMember "transferSpeedPostMult" .double info.transferSpeedPostMult]

def savedLimits (info : RegisterMinViableRegionInfo) : Json.Members := [
  savedMember "minCornerVisibleDist" .double info.minCornerVisibleDist,
  savedMember "minCornerVisibleInsideDist" .double info.minCornerVisibleInsideDist,
  savedMember "maxCornerAngleDeviation" .double info.maxCornerAngleDeviation,
  savedMember "occlusionFreeCornerMask" (.integer .uint8) info.occlusionFreeCornerMask,
  savedMember "registrationMode" .string (getMinViableRegionRegistrationModeString info.registrationMode),
  savedMember "skipAppendingToObjectSet" .bool info.skipAppendingToObjectSet,
  savedMember "maxPossibleSizePadding" .double info.maxPossibleSizePadding,
  savedMember "fullDofValues" (.vector .double) info.fullDofValues,
  savedMember "connectedBodyActiveStates" (.vector (.integer .int8)) info.connectedBodyActiveStates]

def savedMembers (info : RegisterMinViableRegionInfo) : Json.Members :=
  info.savedShape ++ (savedDocument "targetTemplateSceneData" info.targetTemplateSceneData ++
    ((lit "graspModelInfo", info.graspModelInfo) ::
      (savedDocument "registrationVisionInfo" info.registrationVisionInfo ++ info.savedLimits)))

def serializeJSON (info : RegisterMinViableRegionInfo) : Json := .object info.savedMembers

end RegisterMinViableRegionInfo

def AABB.savedMembers (localaabb : AABB) : Json.Members := [
  savedMember "pos" (.array .double 3) localaabb.pos,
  savedMember "extents" (.array .double 3) localaabb.extents]

/-- The quaternion, then the translation. -/
def Transform.posearray (objectpose : Transform) : Vec 7 :=
  ⟨objectpose.quaternion.val ++ objectpose.translate.val,
    List.length_append.trans (congrArg₂ (· + ·) objectpose.quaternion.property objectpose.translate.property)⟩

namespace PickPlaceHistoryItem

def savedMembers (item : PickPlaceHistoryItem) : Json.Members := [
  savedMember "pickPlaceType" .string item.pickPlaceType,
  savedMember "locationName" .string item.locationName,
  savedMember "containerName" .string item.containerName,
  savedMember "eventTimeStampUS" (.integer .ulonglong) item.eventTimeStampUS,
  savedMember "object_uri" .string item.object_uri,
  savedMember "objectpose" (.array .double 7) item.objectpose.posearray,
  (lit "localaabb", .object item.localaabb.savedMembers),
  savedMember "sensorTimeStampUS" (.integer .ulonglong) item.sensorTimeStampUS]

def saveToJson (item : PickPlaceHistoryItem) : Json := .object item.savedMembers

end PickPlaceHistoryItem

/-- Scalars and the sequences of them. -/
def Ty.Flat : Ty → Prop
  | .string | .integer _ | .bool | .double => True
  | .vector a | .array a _ => a.Flat
  | _ => False

theorem Ty.Flat.solid {ty : Ty} (flat : ty.Flat) (b : Ty) : ty ≠ .optional b := by
  rintro rfl
  exact flat

theorem loadElements_saved {load : Load α} {save : α → Json} (xs ts : List α) (same : ts.length = xs.length)
    (each : ∀ x ∈ xs, Makes (load (save x)) fun _ => x) : loadElements load (xs.map save) ts = (.ok (), xs) := by
  induction xs generalizing ts with
  | nil => cases List.length_eq_zero_iff.mp same; rfl
  | cons x xs ih =>
    cases ts with
    | nil => cases same
    | cons t ts =>
      have head := each x List.mem_cons_self t
      have tail := ih ts (Nat.succ.inj same) fun y later => each y (List.mem_cons_of_mem _ later)
      simp [loadElements, head, tail]

theorem makes_loadJsonValue (platform : Platform) {ty : Ty} (flat : ty.Flat) (x : ty.Val)
    (nulFree : ty.NulFree x) :
    Makes (loadJsonValue platform ty (saveJsonValue ty x)) fun _ => x := by
  induction ty with
  | string => exact makes_assign (congrArg Except.ok (cString_of_nulFree x nulFree))
  | integer type => exact makes_assign (loadInteger_save type x)
  | bool | double => exact fun _ => rfl
  | vector a each =>
    intro t
    refine (bind_ok rfl).trans (loadElements_saved x _ ?_ fun e member => each flat e (nulFree e member))
    rw [List.length_replicate, List.length_map]
  | array a n each =>
    rintro ⟨t, long⟩
    have same : (x.val.map (saveJsonValue a)).length = n := (List.length_map ..).trans x.property
    have elements :=
      loadElements_saved x.val t (long.trans x.property.symm) fun e member => each flat e (nulFree e member)
    change loadArray n (loadJsonValue platform a) (.array (x.val.map (saveJsonValue a))) _ = _
    rw [loadArray_same same]
    exact Prod.ext (by simp [loadFixed, elements]) (Subtype.ext (by simp [loadFixed, elements]))
  | _ => exact flat.elim

section

variable (platform : Platform) {members : Json.Members} {key : String} {ty : Ty} {x : ty.Val}

theorem makes_loadByKey platform (found : Json.findMember members (lit key) = some (saveJsonValue ty x))
    (flat : ty.Flat) (nulFree : ty.NulFree x) :
    Makes (loadJsonValueByKey (loadJsonValue platform ty) (.object members) key) fun _ => x := by
  intro t
  have loaded := makes_loadJsonValue platform flat x nulFree t
  have present := save_not_null ty flat.solid x
  unfold loadJsonValueByKey
  cases saved : saveJsonValue ty x with
  | null => simp [saved, Json.isNull] at present
  | _ =>
    rw [saved] at found loaded
    simp [found, mapError, loaded, Except.mapError]

theorem getByKey_saved (found : Json.findMember members (lit key) = some (saveJsonValue ty x)) (flat : ty.Flat)
    (nulFree : ty.NulFree x) (fallback : ty.Val) :
    getJsonValueByKey platform ty (.object members) key fallback = .ok x := by
  have loaded := makes_loadJsonValue platform flat x nulFree ty.initial
  have present := save_not_null ty flat.solid x
  unfold getJsonValueByKey
  cases saved : saveJsonValue ty x with
  | null => simp [saved, Json.isNull] at present
  | _ =>
    rw [saved] at found loaded
    simp [found, fresh, loaded, Except.mapError]

/-- A mask is saved as a byte, loaded as an `unsigned int` and narrowed. -/
theorem getByKey_mask {mask : UInt8} (found : Json.findMember members (lit key) = some (saveInteger .uint8 mask))
    (fallback : IntType.uint.Value) :
    ∃ x, getJsonValueByKey platform (.integer .uint) (.object members) key fallback = .ok x ∧
      uint8Of x.val = mask := by
  have wide : IntFormat.Holds loadUInt.target mask.val := by
    have holds := mask.property
    simp [IntFormat.Holds, loadUInt, IntType.overload, loadUInt8, uint32] at holds ⊢
    omega
  have saved : Json.findMember members (lit key) = some (saveJsonValue (.integer .uint) ⟨mask.val, wide⟩) := found
  exact ⟨_, getByKey_saved platform saved trivial trivial fallback, IntFormat.convert_val ..⟩

end

theorem found_at (members : Json.Members) (distinct : (Json.names members).Nodup) {m : Text × Json} (i : Nat)
    (here : members[i]? = some m) : Json.findMember members m.1 = some m.2 :=
  Json.findMember_of_mem distinct (List.mem_of_getElem? here)

theorem makes_loadRegion (platform : Platform) (region : MinViableRegionInfo) :
    Makes (MinViableRegionInfo.loadFromJson platform (.object region.savedMembers)) fun _ => region := by
  have distinct : (["size2D", "maxPossibleSize", "maxPossibleSizeOriginal", "cornerMask",
      "cornerMaskOriginal"].map lit).Nodup := by
    decide
  have found {member : Text × Json} := found_at (m := member) region.savedMembers distinct
  have size2D := makes_loadByKey platform (found 0 rfl) trivial fun _ _ => trivial
  have maxPossibleSize := makes_loadByKey platform (found 1 rfl) trivial fun _ _ => trivial
  have maxPossibleSizeOriginal := makes_loadByKey platform (found 2 rfl) trivial fun _ _ => trivial
  obtain ⟨cornerMask, gotMask, isMask⟩ := getByKey_mask platform (found 3 rfl) (Ty.integer .uint).initial
  obtain ⟨cornerMaskOriginal, gotOriginal, isOriginal⟩ :=
    getByKey_mask platform (found 4 rfl) (Ty.integer .uint).initial
  intro prior
  unfold MinViableRegionInfo.loadFromJson
  refine Eq.trans (bind_ok (makes_zoom size2D _)) ?_
  refine Eq.trans (bind_ok (makes_zoom maxPossibleSize _)) ?_
  refine Eq.trans (bind_ok (makes_zoom maxPossibleSizeOriginal _)) ?_
  refine Eq.trans (bind_ok (makes_assign gotMask _)) ?_
  refine Eq.trans (makes_assign gotOriginal _) ?_
  rw [isMask, isOriginal]

theorem getMode_getString {mode : UInt8} (valid : mode.val ≤ 3) :
    getMinViableRegionRegistrationModeFromString (getMinViableRegionRegistrationModeString mode) = .ok mode ∧
      NulFree (getMinViableRegionRegistrationModeString mode) := by
  obtain ⟨z, holds⟩ := mode
  have nonnegative : 0 ≤ z := by
    simp [IntFormat.Holds, IntType.overload, loadUInt8] at holds
    omega
  obtain rfl | rfl | rfl | rfl : z = 0 ∨ z = 1 ∨ z = 2 ∨ z = 3 := by
    simp only at valid
    omega
  all_goals exact ⟨by rfl, by simp only [getMinViableRegionRegistrationModeString]; decide⟩

theorem names_savedDocument (key : String) (v : Json) : (Json.names (savedDocument key v)).Sublist [lit key] := by
  unfold savedDocument
  split
  · exact List.nil_sublist _
  · exact .refl _

/-- A document comes back whether it was null or not. -/
theorem copyMember_saved {members before after : Json.Members} {key : String} {v : Json}
    (distinct : (Json.names (before ++ (lit key, v) :: after)).Nodup)
    (split : members = before ++ (savedDocument key v ++ after)) :
    copyMember (.object members) key = .ok v := by
  have found : (Json.findMember members (lit key)).getD .null = v := by
    subst split
    by_cases null : v.isNull = true
    · have absent : lit key ∉ Json.names (before ++ after) := by
        rw [Json.names_append, Json.names_cons, List.nodup_middle, List.nodup_cons] at distinct
        rw [Json.names_append]
        exact distinct.1
      rw [savedDocument, if_pos null, List.nil_append, Json.findMember_eq_none_iff.mpr absent]
      cases v <;> simp_all [Json.isNull]
    · have inside : (lit key, v) ∈ before ++ (lit key, v) :: after := List.mem_append_right _ List.mem_cons_self
      rw [savedDocument, if_neg null, List.singleton_append, Json.findMember_of_mem distinct inside,
        Option.getD_some]
  exact congrArg Except.ok found

namespace RegisterMinViableRegionInfo

def shapeNames : List Text :=
  ["minViableRegion", "locationName", "translation", "quaternion", "objectWeight", "objectType",
  "sensorTimeStampMS", "robotDepartStopTimestamp", "liftedWorldOffset", "minCandidateSize", "maxCandidateSize",
  "transferSpeedPostMult"].map lit

def limitNames : List Text := ["minCornerVisibleDist", "minCornerVisibleInsideDist", "maxCornerAngleDeviation",
  "occlusionFreeCornerMask", "registrationMode", "skipAppendingToObjectSet", "maxPossibleSizePadding",
    "fullDofValues", "connectedBodyActiveStates"].map lit

def memberNames : List Text := shapeNames ++ ([lit "targetTemplateSceneData"] ++ (lit "graspModelInfo" ::
  ([lit "registrationVisionInfo"] ++ limitNames)))

theorem nodup_memberNames : memberNames.Nodup := by decide

section

variable (info : RegisterMinViableRegionInfo)

theorem names_savedShape : Json.names info.savedShape = shapeNames := rfl
theorem names_savedLimits : Json.names info.savedLimits = limitNames := rfl

theorem names_savedMembers : (Json.names info.savedMembers).Sublist memberNames := by
  simp only [savedMembers, Json.names_append, Json.names_cons, names_savedShape, names_savedLimits]
  exact (List.Sublist.refl _).append
    ((names_savedDocument ..).append (.cons_cons _ ((names_savedDocument ..).append (.refl _))))

theorem found_of_mem {member : Text × Json} (inside : member ∈ info.savedMembers) :
    Json.findMember info.savedMembers member.1 = some member.2 :=
  Json.findMember_of_mem (nodup_memberNames.sublist info.names_savedMembers) inside

theorem found_shape {member : Text × Json} (i : Nat) (here : info.savedShape[i]? = some member) :
    Json.findMember info.savedMembers member.1 = some member.2 :=
  info.found_of_mem (List.mem_append_left _ (List.mem_of_getElem? here))

theorem found_limit {member : Text × Json} (i : Nat) (here : info.savedLimits[i]? = some member) :
    Json.findMember info.savedMembers member.1 = some member.2 :=
  info.found_of_mem (List.mem_append_right _ (List.mem_append_right _
    (List.mem_cons_of_mem _ (List.mem_append_right _ (List.mem_of_getElem? here)))))

theorem copy_targetTemplateSceneData :
    copyMember (.object info.savedMembers) "targetTemplateSceneData" = .ok info.targetTemplateSceneData := by
  refine copyMember_saved (nodup_memberNames.sublist ?_) rfl
  simp only [Json.names_append, Json.names_cons, names_savedShape, names_savedLimits]
  exact (List.Sublist.refl _).append (.cons_cons _ (.cons_cons _ ((names_savedDocument ..).append (.refl _))))

theorem copy_graspModelInfo :
    copyMember (.object info.savedMembers) "graspModelInfo" = .ok info.graspModelInfo := by
  have inside : (lit "graspModelInfo", info.graspModelInfo) ∈ info.savedMembers :=
    List.mem_append_right _ (List.mem_append_right _ List.mem_cons_self)
  have found := info.found_of_mem inside
  exact congrArg (fun member => Except.ok (member.getD .null)) found

theorem copy_registrationVisionInfo :
    copyMember (.object info.savedMembers) "registrationVisionInfo" = .ok info.registrationVisionInfo := by
  have split : info.savedMembers =
      (info.savedShape ++ (savedDocument "targetTemplateSceneData" info.targetTemplateSceneData ++
      [(lit "graspModelInfo", info.graspModelInfo)])) ++
      (savedDocument "registrationVisionInfo" info.registrationVisionInfo ++ info.savedLimits) := by
    simp only [savedMembers, List.append_assoc, List.cons_append, List.nil_append]
  refine copyMember_saved (nodup_memberNames.sublist ?_) split
  simp only [Json.names_append, Json.names_cons, names_savedShape, names_savedLimits, List.append_assoc]
  exact (List.Sublist.refl _).append ((names_savedDocument ..).append (.cons_cons _ (.cons_cons _ (.refl _))))

/-- Everything that was saved comes back, whatever the target held before. -/
theorem deserializeJSON_serializeJSON (platform : Platform) (prior : RegisterMinViableRegionInfo)
    (valid : info.registrationMode.val ≤ 3) (locationName : NulFree info.locationName)
    (objectType : NulFree info.objectType) :
    deserializeJSON platform info.serializeJSON prior = (.ok (), info) := by
  have region : findMemberOf info.serializeJSON "minViableRegion" =
      .ok (some (.object info.minViableRegion.savedMembers)) :=
    congrArg Except.ok (info.found_shape 0 rfl)
  obtain ⟨mask, gotMask, isMask⟩ := getByKey_mask platform (info.found_limit 3 rfl) (Ty.integer .uint).initial
  obtain ⟨known, clean⟩ := getMode_getString valid
  have mode : getJsonValueByKey platform .string (.object info.savedMembers) "registrationMode" [] =
      .ok (getMinViableRegionRegistrationModeString info.registrationMode) :=
    getByKey_saved platform (info.found_limit 4 rfl) trivial clean []
  have modeFound : (getJsonValueByKey platform .string info.serializeJSON "registrationMode" []).bind
      (fun modeStr => getMinViableRegionRegistrationModeFromString (cString modeStr)) =
        .ok info.registrationMode := by
    rw [serializeJSON, mode]
    exact (congrArg getMinViableRegionRegistrationModeFromString (cString_of_nulFree _ clean)).trans known
  suffices made : Makes (deserializeJSON platform info.serializeJSON) fun _ => info from made prior
  apply Makes.congr (g := fun _ => info)
  · apply Makes.bind (makes_update _)
    apply makes_lift_bind region
    apply Makes.bind (makes_zoom (makes_loadRegion platform info.minViableRegion))
    -- the members before the documents
    apply Makes.bind (makes_zoom (makes_loadByKey platform (info.found_shape 1 rfl) trivial locationName))
    apply Makes.bind (makes_zoom (makes_loadByKey platform (info.found_shape 2 rfl) trivial fun _ _ => trivial))
    apply Makes.bind (makes_zoom (makes_loadByKey platform (info.found_shape 3 rfl) trivial fun _ _ => trivial))
    apply Makes.bind (makes_assign (getByKey_saved platform (info.found_shape 4 rfl) trivial trivial _))
    apply Makes.bind (makes_zoom (makes_loadByKey platform (info.found_shape 5 rfl) trivial objectType))
    apply Makes.bind (makes_assign (getByKey_saved platform (info.found_shape 6 rfl) trivial trivial _))
    apply Makes.bind (makes_assign (getByKey_saved platform (info.found_shape 7 rfl) trivial trivial _))
    apply Makes.bind (makes_zoom (makes_loadByKey platform (info.found_shape 8 rfl) trivial fun _ _ => trivial))
    apply Makes.bind (makes_zoom (makes_loadByKey platform (info.found_shape 9 rfl) trivial fun _ _ => trivial))
    apply Makes.bind (makes_zoom (makes_loadByKey platform (info.found_shape 10 rfl) trivial fun _ _ => trivial))
    apply Makes.bind (makes_assign (getByKey_saved platform (info.found_shape 11 rfl) trivial trivial _))
    apply Makes.bind (makes_assign info.copy_targetTemplateSceneData)
    apply Makes.bind (makes_assign info.copy_graspModelInfo)
    apply Makes.bind (makes_assign info.copy_registrationVisionInfo)
    -- the members after the documents
    apply Makes.bind (makes_assign (getByKey_saved platform (info.found_limit 0 rfl) trivial trivial _))
    apply Makes.bind (makes_assign (getByKey_saved platform (info.found_limit 1 rfl) trivial trivial _))
    apply Makes.bind (makes_assign (getByKey_saved platform (info.found_limit 2 rfl) trivial trivial _))
    apply Makes.bind (makes_assign gotMask)
    apply Makes.bind (makes_assign modeFound)
    apply Makes.bind (makes_assign (getByKey_saved platform (info.found_limit 5 rfl) trivial trivial _))
    apply Makes.bind (makes_assign (getByKey_saved platform (info.found_limit 6 rfl) trivial trivial _))
    apply Makes.bind (makes_zoom (makes_loadByKey platform (info.found_limit 7 rfl) trivial fun _ _ => trivial))
    exact makes_zoom (makes_loadByKey platform (info.found_limit 8 rfl) trivial fun _ _ => trivial)
  · intro s
    rw [isMask]
    rfl

end

def lifted : RegisterMinViableRegionInfo :=
  { initial (uint8Of 1) with
    locationName := lit "source", targetTemplateSceneData := .object [], fullDofValues := [Double.ofInt 90] }

def stale : RegisterMinViableRegionInfo :=
  { initial (uint8Of 0) with
    objectType := lit "box", registrationVisionInfo := .bool true, fullDofValues := [Double.zero, Double.zero] }

theorem deserializeJSON_serializeJSON_lifted :
    deserializeJSON default lifted.serializeJSON stale = (.ok (), lifted) :=
  lifted.deserializeJSON_serializeJSON default stale (by decide) (by decide) (by decide)

end RegisterMinViableRegionInfo

/-- The elements of an array are those of the target after each of them is loaded: before the one
with index `k` the earlier ones are there. -/
theorem makes_loadCoordinates (platform : Platform) {n first : Nat} {js : List Json} (xs : Vec n)
    (each : ∀ i x, xs.val[i]? = some x → js[first + i]? = some (.double x)) :
    Makes (loadCoordinates platform n first js) fun _ => xs := by
  have later (m k : Nat) (total : k + m = n) (t : Vec n) (done : ∀ i < k, t.val[i]? = xs.val[i]?) :
      ((List.range' k m).foldr (fun i rest => (do
        let j ← lift (elementAt js (first + i))
        let x ← lift (loadDouble platform j)
        update fun t => ⟨t.val.set i x, (List.length_set ..).trans t.property⟩
        rest)) (pure ()) : Loading LoadError (Vec n) Unit) t = (.ok (), xs) := by
    induction m generalizing k t with
    | zero =>
      have same : t = xs := by
        refine Subtype.ext (List.ext_getElem? fun i => ?_)
        by_cases inside : i < k
        · exact done i inside
        · have short := t.property
          have long := xs.property
          rw [List.getElem?_eq_none (by omega), List.getElem?_eq_none (by omega)]
      rw [same]
      rfl
    | succ m ih =>
      have inside : k < xs.val.length := by rw [xs.property]; omega
      have there := List.getElem?_eq_getElem inside
      have known : elementAt js (first + k) = .ok (.double xs.val[k]) := by rw [elementAt, each k _ there]
      rw [List.range'_succ, List.foldr_cons, known]
      refine ih (k + 1) (by omega) _ fun i before => ?_
      by_cases same : i = k
      · subst same
        rw [List.getElem?_set_self (by rw [t.property]; omega), there]
      · rw [List.getElem?_set_ne (Ne.symm same)]
        exact done i (by omega)
  intro t
  rw [loadCoordinates, List.range_eq_range']
  exact later n 0 (Nat.zero_add n) t fun i none => absurd none (Nat.not_lt_zero i)

theorem makes_loadAABB (platform : Platform) (localaabb : AABB) :
    Makes (loadAABBFromJsonValue platform (.object localaabb.savedMembers)) fun _ => localaabb := by
  have distinct : (["pos", "extents"].map lit).Nodup := by decide
  have found {member : Text × Json} := found_at (m := member) localaabb.savedMembers distinct
  have element {xs : Vec 3} (i : Nat) (x : Double) (here : xs.val[i]? = some x) :
      (xs.val.map (saveJsonValue .double))[0 + i]? = some (.double x) := by
    rw [Nat.zero_add, List.getElem?_map, here]
    rfl
  apply Makes.congr (g := fun _ => localaabb)
  · apply makes_lift_bind (congrArg Except.ok (found 0 rfl))
    apply makes_lift_bind (congrArg Except.ok (found 1 rfl))
    apply Makes.bind (makes_zoom (makes_loadCoordinates platform localaabb.pos element))
    exact makes_zoom (makes_loadCoordinates platform localaabb.extents element)
  · intro s
    rfl

/-- The first four elements are the quaternion, the other three the translation. -/
theorem makes_loadPose (platform : Platform) (objectpose : Transform) :
    Makes (do
      zoom (·.quaternion) (fun x s => { s with quaternion := x })
        (loadCoordinates platform 4 0 (objectpose.posearray.val.map (saveJsonValue .double)))
      zoom (·.translate) (fun x s => { s with translate := x })
        (loadCoordinates platform 3 4 (objectpose.posearray.val.map (saveJsonValue .double))) :
    Loading LoadError Transform Unit)
      fun _ => objectpose := by
  have long := objectpose.quaternion.property
  have first (i : Nat) (x : Double) (here : objectpose.quaternion.val[i]? = some x) :
      (objectpose.posearray.val.map (saveJsonValue .double))[0 + i]? = some (.double x) := by
    have inside := (List.getElem?_eq_some_iff.mp here).1
    rw [Nat.zero_add, List.getElem?_map, Transform.posearray, List.getElem?_append_left inside, here]
    rfl
  have second (i : Nat) (x : Double) (here : objectpose.translate.val[i]? = some x) :
      (objectpose.posearray.val.map (saveJsonValue .double))[4 + i]? = some (.double x) := by
    rw [List.getElem?_map, Transform.posearray, List.getElem?_append_right (by omega), long,
      Nat.add_sub_cancel_left, here]
    rfl
  apply Makes.congr (g := fun _ => objectpose)
  · apply Makes.bind (makes_zoom (makes_loadCoordinates platform objectpose.quaternion first))
    exact makes_zoom (makes_loadCoordinates platform objectpose.translate second)
  · intro s
    rfl

namespace PickPlaceHistoryItem

/-- What was saved comes back in every field, whatever the target held before. -/
theorem loadFromJson_saveToJson (platform : Platform) (item prior : PickPlaceHistoryItem)
    (pickPlaceType : NulFree item.pickPlaceType) (locationName : NulFree item.locationName)
    (containerName : NulFree item.containerName) (object_uri : NulFree item.object_uri) :
    loadFromJson platform item.saveToJson prior = (.ok (), item) := by
  have distinct : (["pickPlaceType", "locationName", "containerName", "eventTimeStampUS", "object_uri",
      "objectpose", "localaabb",
      "sensorTimeStampUS"].map lit).Nodup := by decide
  have found {member : Text × Json} := found_at (m := member) item.savedMembers distinct
  have seven : (item.objectpose.posearray.val.map (saveJsonValue .double)).length = 7 :=
    (List.length_map ..).trans item.objectpose.posearray.property
  suffices made : Makes (loadFromJson platform item.saveToJson) fun _ => item from made prior
  apply Makes.congr (g := fun _ => item)
  · apply Makes.bind (makes_zoom (makes_loadByKey platform (found 0 rfl) trivial pickPlaceType))
    apply Makes.bind (makes_zoom (makes_loadByKey platform (found 1 rfl) trivial locationName))
    apply Makes.bind (makes_zoom (makes_loadByKey platform (found 2 rfl) trivial containerName))
    apply Makes.bind (makes_zoom (makes_loadByKey platform (found 3 rfl) trivial trivial))
    apply Makes.bind (makes_zoom (makes_loadByKey platform (found 4 rfl) trivial object_uri))
    apply makes_lift_bind (congrArg Except.ok (found 5 rfl))
    rw [savedMember, saveJsonValue]
    simp only [if_pos seven]
    apply Makes.bind (makes_zoom (makes_loadPose platform item.objectpose))
    apply makes_lift_bind (congrArg Except.ok (found 6 rfl))
    apply Makes.bind (makes_zoom (makes_loadAABB platform item.localaabb))
    exact makes_zoom (makes_loadByKey platform (found 7 rfl) trivial trivial)
  · intro s
    rfl

/-- An object picked from a pose that is not the default one. -/
def picked : PickPlaceHistoryItem :=
  { initial with pickPlaceType := lit "picked", objectpose := ⟨zeros 4, zeros 3⟩, eventTimeStampUS := uint64Of 5 }

theorem loadFromJson_saveToJson_picked :
    loadFromJson default picked.saveToJson { initial with object_uri := lit "mujin:/box.mujin.dae" } =
      (.ok (), picked) :=
  loadFromJson_saveToJson default picked _ (by decide) (by decide) (by decide) (by decide)

end PickPlaceHistoryItem

end MujinClient
