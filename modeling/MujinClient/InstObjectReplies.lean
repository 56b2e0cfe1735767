import MujinClient.ReplyParsers
import Mathlib.Data.Prod.Lex

/-! The objects and sensors of a scene, as a reply lists them, and which results of a command depend on
the replies before. -/
namespace MujinClient

open Loading

structure ResultOBB where
  translation : Vec 3
  quaternion : Vec 4
  extents : Vec 3

/-- What is in memory where a `ResultOBB` is made, which does not set its translation and its extents. -/
structure BoxMemory where
  translation : Vec 3
  extents : Vec 3

namespace ResultOBB

def initial (memory : BoxMemory) : ResultOBB :=
  ⟨memory.translation, Transform.initial.quaternion, memory.extents⟩

/-- The value itself, or the output of a reply. -/
def source (pt : Json) : Json :=
  match pt with
  | .object members => (Json.findMember members (lit "output")).getD pt
  | _ => pt

def parse (platform : Platform) : Load ResultOBB := fun pt => do
  zoom (·.translation) (fun x s => { s with translation := x })
    (loadJsonValueByKey (loadJsonValue platform (.array .double 3)) (source pt) "translation")
  zoom (·.extents) (fun x s => { s with extents := x })
    (loadJsonValueByKey (loadJsonValue platform (.array .double 3)) (source pt) "extents")
  zoom (·.quaternion) (fun x s => { s with quaternion := x })
    (loadJsonValueByKey (loadJsonValue platform (.array .double 4)) (source pt) "quaternion")

end ResultOBB

structure ListedBox where
  translation : Option (Vec 3)
  quaternion : Option (Vec 4)
  extents : Option (Vec 3)

namespace ListedBox

def read (platform : Platform) (pt : Json) : Except LoadError ListedBox := do
  let translation ← optionalByKey platform (.array .double 3) (ResultOBB.source pt) "translation"
  let extents ← optionalByKey platform (.array .double 3) (ResultOBB.source pt) "extents"
  let quaternion ← optionalByKey platform (.array .double 4) (ResultOBB.source pt) "quaternion"
  return ⟨translation, quaternion, extents⟩

def onto (box : ListedBox) (s : ResultOBB) : ResultOBB :=
  ⟨box.translation.getD s.translation, box.quaternion.getD s.quaternion, box.extents.getD s.extents⟩

/-- The box that is listed, if it is listed as a whole. Only the rotation has a default. -/
def complete (box : ListedBox) : Option ResultOBB :=
  match box.translation, box.extents with
  | some translation, some extents => some (box.onto (.initial ⟨translation, extents⟩))
  | _, _ => none

theorem exposed_coordinates (n : Nat) (v : Json) : (Ty.array .double n).exposed v = false := by
  cases v <;> simp [Ty.exposed, exposedElements]

theorem performs_parse (platform : Platform) (pt : Json) :
    Performs (ResultOBB.parse platform pt) (read platform pt) onto := by
  intro s s' ran
  obtain ⟨_, first, translation, ran⟩ := bind_eq_ok ran
  obtain ⟨_, second, extents, quaternion⟩ := bind_eq_ok ran
  obtain ⟨_, loadedTranslation, rfl⟩ := zoom_eq_ok translation
  obtain ⟨_, loadedExtents, rfl⟩ := zoom_eq_ok extents
  obtain ⟨_, loadedQuaternion, rfl⟩ := zoom_eq_ok quaternion
  obtain ⟨t, readTranslation, rfl⟩ :=
    performs_loadByKey platform _ (exposed_coordinates 3) _ _ _ _ loadedTranslation
  obtain ⟨e, readExtents, rfl⟩ := performs_loadByKey platform _ (exposed_coordinates 3) _ _ _ _ loadedExtents
  obtain ⟨q, readQuaternion, rfl⟩ := performs_loadByKey platform _ (exposed_coordinates 4) _ _ _ _ loadedQuaternion
  refine ⟨⟨t, q, e⟩, ?_, rfl⟩
  rw [read, readTranslation, readExtents, readQuaternion]
  rfl

theorem complete_onto (box : ListedBox) (memory : BoxMemory) :
    box.complete = none ∨ box.complete = some (box.onto (.initial memory)) := by
  unfold complete
  cases known : box.translation <;> cases wide : box.extents <;> simp [onto, known, wide, ResultOBB.initial]

end ListedBox

structure SensorData where
  distortion_coeffs : Vec 5
  distortion_model : Text
  focal_length : Double
  image_dimensions : (Ty.array (.integer .int) 3).Val
  intrinsic : Vec 6
  measurement_time : Double
  extra_parameters : List Double

namespace SensorData

def initial : SensorData :=
  ⟨zeros 5, [], Double.zero, (Ty.array (.integer .int) 3).initial, zeros 6, Double.zero, []⟩

variable (platform : Platform)

def imageDimensions (sensor : Json) : Except LoadError (Ty.array (.integer .int) 3).Val := do
  match ← valueByKey platform (.vector (.integer .int)) sensor "image_dimensions" with
  | [width, height] => return ⟨[width, height, int32Of 1], rfl⟩
  | [width, height, depth] => return ⟨[width, height, depth], rfl⟩
  | _ => .error (.mujin ⟨lit "the length of image_dimensions is invalid", .failed⟩)

def parse : Load SensorData := fun sensor => do
  zoom (·.distortion_coeffs) (fun x s => { s with distortion_coeffs := x })
    (loadJsonValueByKey (loadCArray 5 (loadJsonValue platform .double)) sensor "distortion_coeffs")
  zoom (·.intrinsic) (fun x s => { s with intrinsic := x })
    (loadJsonValueByKey (loadCArray 6 (loadJsonValue platform .double)) sensor "intrinsic")
  assign (fun x s => { s with image_dimensions := x }) (imageDimensions platform sensor)
  zoom (·.extra_parameters) (fun x s => { s with extra_parameters := x })
    (loadJsonValueByKey (loadJsonValue platform (.vector .double)) sensor "extra_parameters")
  zoom (·.distortion_model) (fun x s => { s with distortion_model := x })
    (loadJsonValueByKey (loadJsonValue platform .string) sensor "distortion_model")
  zoom (·.focal_length) (fun x s => { s with focal_length := x })
    (loadJsonValueByKey (loadJsonValue platform .double) sensor "focal_length")
  zoom (·.measurement_time) (fun x s => { s with measurement_time := x })
    (loadJsonValueByKey (loadJsonValue platform .double) sensor "measurement_time")

end SensorData

/-- The order of `SensorSelectionInfo::operator<`. -/
def SensorSelectionInfo.key (info : SensorSelectionInfo) : Text ×ₗ Text :=
  toLex (info.sensorName, info.sensorLinkName)

structure ResultGetInstObjectAndSensorInfo where
  muri : SortedMap Text Text
  minstobjecttransform : SortedMap Text Transform
  minstobjectobb : SortedMap Text ResultOBB
  minstobjectinnerobb : SortedMap Text ResultOBB
  msensortransform : SortedMap (Text ×ₗ Text) Transform
  msensordata : SortedMap (Text ×ₗ Text) SensorData
  mrGeometryInfos : SortedMap Text Json
  mObjectType : SortedMap Text Text

namespace ResultGetInstObjectAndSensorInfo

variable (platform : Platform)

/-- `m[objname]`, which makes an entry, loaded in place. -/
def loadEntry (objname : Text) (v : Json) (key : String) : Loading LoadError (SortedMap Text Text) Unit :=
  zoom (fun m => (m.find? objname).getD []) (fun x m => m.insert objname x)
    (loadJsonValueByKey (loadJsonValue platform .string) v key)

/-- One of `instobjects`. The name is read up to its first zero byte. -/
def parseInstObject (memory : BoxMemory × BoxMemory) (it : Text × Json) :
    Loading LoadError ResultGetInstObjectAndSensorInfo Unit :=
  lift (readTransform platform "translation" it.2) >>= fun transform =>
  lift (memberOf it.2 "obb" >>= fresh (.initial memory.1) (ResultOBB.parse platform)) >>= fun resultobb =>
  lift (memberOf it.2 "innerobb" >>= fresh (.initial memory.2) (ResultOBB.parse platform)) >>=
    fun resultinnerobb => do
    update fun s => { s with minstobjecttransform := s.minstobjecttransform.insert (cString it.1) transform }
    update fun s => { s with minstobjectobb := s.minstobjectobb.insert (cString it.1) resultobb }
    update fun s => { s with minstobjectinnerobb := s.minstobjectinnerobb.insert (cString it.1) resultinnerobb }
    assign (fun infos s =>
      { s with
        mrGeometryInfos := s.mrGeometryInfos.insertAll (infos.toList.map fun v => (cString it.1, v)) })
      (findMemberOf it.2 "geometryInfos")
    zoom (·.muri) (fun m s => { s with muri := m }) (loadEntry platform (cString it.1) it.2 "uri")
    zoom (·.mObjectType) (fun m s => { s with mObjectType := m })
      (loadEntry platform (cString it.1) it.2 "objectType")

def parseLink (sensorName : Text) (itlink : Text × Json) :
    Loading LoadError ResultGetInstObjectAndSensorInfo Unit :=
  lift (readTransform platform "translation" itlink.2) >>= fun transform =>
  lift (memberOf itlink.2 "sensordata" >>= fresh .initial (SensorData.parse platform)) >>= fun sensordata => do
    update fun s => { s with
      msensortransform := s.msensortransform.insert (SensorSelectionInfo.mk sensorName itlink.1).key transform }
    update fun s =>
      { s with
        msensordata := s.msensordata.insert (SensorSelectionInfo.mk sensorName itlink.1).key sensordata }

def parseSensor (it : Text × Json) : Loading LoadError ResultGetInstObjectAndSensorInfo Unit :=
  lift (membersOf it.2) >>= fun links => forEach (parseLink platform it.1) links

/-- `memory` is what the boxes of each object are made in. -/
def parse (memory : Nat → BoxMemory × BoxMemory) (pt : Json) :
    Loading LoadError ResultGetInstObjectAndSensorInfo Unit :=
  lift (memberOf pt "output") >>= fun output =>
  update (fun s => { s with mrGeometryInfos := .empty }) >>= fun _ =>
  lift (memberOf output "instobjects" >>= membersOf) >>= fun instobjects =>
  forEach (fun it => parseInstObject platform (memory it.2) it.1) instobjects.zipIdx >>= fun _ =>
  lift (memberOf output "sensors" >>= membersOf) >>= fun sensors =>
  forEach (parseSensor platform) sensors

structure ListedObject where
  name : Text
  transform : Transform
  obb : ListedBox
  innerobb : ListedBox
  geometryInfos : Option Json
  uri : Option Text
  objectType : Option Text

structure ListedSensor where
  info : SensorSelectionInfo
  transform : Transform
  sensordata : SensorData

def readInstObject (it : Text × Json) : Except LoadError ListedObject := do
  let transform ← readTransform platform "translation" it.2
  let obb ← memberOf it.2 "obb" >>= ListedBox.read platform
  let innerobb ← memberOf it.2 "innerobb" >>= ListedBox.read platform
  let geometryInfos ← findMemberOf it.2 "geometryInfos"
  let uri ← optionalByKey platform .string it.2 "uri"
  let objectType ← optionalByKey platform .string it.2 "objectType"
  return ⟨cString it.1, transform, obb, innerobb, geometryInfos, uri, objectType⟩

def readLink (sensorName : Text) (itlink : Text × Json) : Except LoadError ListedSensor := do
  let transform ← readTransform platform "translation" itlink.2
  let sensordata ← memberOf itlink.2 "sensordata" >>= fresh .initial (SensorData.parse platform)
  return ⟨⟨sensorName, itlink.1⟩, transform, sensordata⟩

def readSensor (it : Text × Json) : Except LoadError (List ListedSensor) := do
  let links ← membersOf it.2
  links.mapM (readLink platform it.1)

def listed (pt : Json) : Except LoadError (List ListedObject × List ListedSensor) := do
  let output ← memberOf pt "output"
  let instobjects ← memberOf output "instobjects" >>= membersOf
  let objects ← instobjects.mapM (readInstObject platform)
  let sensors ← memberOf output "sensors" >>= membersOf
  let links ← sensors.mapM (readSensor platform)
  return (objects, links.flatten)

/-- The maps hold the objects and sensors, and nothing else. An object without a URI or a type has an
empty one. -/
structure Holds (objects : List ListedObject) (sensors : List ListedSensor)
    (s : ResultGetInstObjectAndSensorInfo) : Prop where
  muri : s.muri.HoldsListed (SortedMap.listedOr ListedObject.name [] ListedObject.uri objects)
  minstobjecttransform : s.minstobjecttransform.HoldsListed (objects.map fun o => (o.name, some o.transform))
  minstobjectobb : s.minstobjectobb.HoldsListed (objects.map fun o => (o.name, o.obb.complete))
  minstobjectinnerobb : s.minstobjectinnerobb.HoldsListed (objects.map fun o => (o.name, o.innerobb.complete))
  msensortransform : s.msensortransform.HoldsListed (sensors.map fun l => (l.info.key, some l.transform))
  msensordata : s.msensordata.HoldsListed (sensors.map fun l => (l.info.key, some l.sensordata))
  mrGeometryInfos : s.mrGeometryInfos.HoldsListed
    ((SortedMap.shownValues ListedObject.name ListedObject.geometryInfos objects).map fun e => (e.1, some e.2))
  mObjectType : s.mObjectType.HoldsListed (SortedMap.listedOr ListedObject.name [] ListedObject.objectType objects)

/-- The maps had no keys but those of the objects and sensors, and no URI or type of an object without
one. The box of each object is listed as a whole. -/
structure Fits (objects : List ListedObject) (sensors : List ListedSensor)
    (s : ResultGetInstObjectAndSensorInfo) : Prop where
  muri : s.muri.OnlyNamedOr ListedObject.name [] ListedObject.uri objects
  minstobjecttransform : s.minstobjecttransform.OnlyNamed ListedObject.name objects
  minstobjectobb : s.minstobjectobb.OnlyNamed ListedObject.name objects
  wholeObb : SortedMap.ShownLast ListedObject.name (fun o => o.obb.complete) objects
  minstobjectinnerobb : s.minstobjectinnerobb.OnlyNamed ListedObject.name objects
  wholeInnerobb : SortedMap.ShownLast ListedObject.name (fun o => o.innerobb.complete) objects
  msensortransform : s.msensortransform.OnlyNamed (fun l : ListedSensor => l.info.key) sensors
  msensordata : s.msensordata.OnlyNamed (fun l : ListedSensor => l.info.key) sensors
  mObjectType : s.mObjectType.OnlyNamedOr ListedObject.name [] ListedObject.objectType objects

def Exact (pt : Json) (s : ResultGetInstObjectAndSensorInfo) : Prop :=
  ∃ objects sensors, listed platform pt = .ok (objects, sensors) ∧ Holds objects sensors s

def Clean (pt : Json) (s : ResultGetInstObjectAndSensorInfo) : Prop :=
  ∃ objects sensors, listed platform pt = .ok (objects, sensors) ∧ Fits objects sensors s

abbrev MadeObject := ListedObject × BoxMemory × BoxMemory

def putObject (o : MadeObject) (s : ResultGetInstObjectAndSensorInfo) : ResultGetInstObjectAndSensorInfo :=
  { s with
    minstobjecttransform := s.minstobjecttransform.insert o.1.name o.1.transform
    minstobjectobb := s.minstobjectobb.insert o.1.name (o.1.obb.onto (.initial o.2.1))
    minstobjectinnerobb := s.minstobjectinnerobb.insert o.1.name (o.1.innerobb.onto (.initial o.2.2))
    mrGeometryInfos := s.mrGeometryInfos.insertAll (o.1.geometryInfos.toList.map fun v => (o.1.name, v))
    muri := s.muri.insertOr o.1.name [] o.1.uri
    mObjectType := s.mObjectType.insertOr o.1.name [] o.1.objectType }

def putSensor (l : ListedSensor) (s : ResultGetInstObjectAndSensorInfo) : ResultGetInstObjectAndSensorInfo :=
  { s with
    msensortransform := s.msensortransform.insert l.info.key l.transform
    msensordata := s.msensordata.insert l.info.key l.sensordata }

variable {platform}

theorem performs_loadEntry (objname : Text) (v : Json) (key : String) : Performs (loadEntry platform objname v key)
    (optionalByKey platform .string v key) fun o m => m.insertOr objname [] o := by
  intro m m' ran
  obtain ⟨x, loaded, rfl⟩ := zoom_eq_ok ran
  obtain ⟨o, read, rfl⟩ := performs_loadByKey platform .string (fun _ => rfl) v key _ _ loaded
  exact ⟨o, read, rfl⟩

theorem fresh_box {memory : BoxMemory} {v : Except LoadError Json}
    (made : (v >>= fresh (.initial memory) (ResultOBB.parse platform)) = .ok b) :
    ∃ box, v >>= ListedBox.read platform = .ok box ∧ b = box.onto (.initial memory) := by
  cases v with
  | error e => cases made
  | ok v =>
    have ran : ResultOBB.parse platform v (.initial memory) = (.ok (), b) := by
      change fresh (.initial memory) (ResultOBB.parse platform) v = .ok b at made
      unfold fresh at made
      split at made
      next t filled => rw [filled, Except.ok.inj made]
      next => cases made
    exact ListedBox.performs_parse platform v _ b ran

theorem performs_parseInstObject (memory : BoxMemory × BoxMemory) (it : Text × Json) :
    Performs (parseInstObject platform memory it)
    ((readInstObject platform it).map fun o => (o, memory)) putObject := by
  intro s s' ran
  obtain ⟨transform, readTransform, ran⟩ := lift_bind_eq_ok ran
  obtain ⟨resultobb, obbMade, ran⟩ := lift_bind_eq_ok ran
  obtain ⟨resultinnerobb, innerobbMade, ran⟩ := lift_bind_eq_ok ran
  obtain ⟨obb, readObb, rfl⟩ := fresh_box obbMade
  obtain ⟨innerobb, readInnerobb, rfl⟩ := fresh_box innerobbMade
  obtain ⟨_, _, first, ran⟩ := bind_eq_ok ran
  obtain rfl := (Prod.mk.inj first).2
  obtain ⟨_, _, second, ran⟩ := bind_eq_ok ran
  obtain rfl := (Prod.mk.inj second).2
  obtain ⟨_, _, third, ran⟩ := bind_eq_ok ran
  obtain rfl := (Prod.mk.inj third).2
  obtain ⟨_, _, infosPut, ran⟩ := bind_eq_ok ran
  obtain ⟨geometryInfos, readInfos, rfl⟩ := performs_assign _ _ _ _ infosPut
  obtain ⟨_, _, uriLoaded, typeLoaded⟩ := bind_eq_ok ran
  obtain ⟨_, uriPut, rfl⟩ := zoom_eq_ok uriLoaded
  obtain ⟨_, typePut, rfl⟩ := zoom_eq_ok typeLoaded
  obtain ⟨uri, readUri, rfl⟩ := performs_loadEntry _ _ _ _ _ uriPut
  obtain ⟨objectType, readType, rfl⟩ := performs_loadEntry _ _ _ _ _ typePut
  refine ⟨(⟨cString it.1, transform, obb, innerobb, geometryInfos, uri, objectType⟩, memory), ?_, rfl⟩
  rw [readInstObject, readTransform, readObb, readInnerobb, readInfos, readUri, readType]
  rfl

theorem performs_parseLink (sensorName : Text) (itlink : Text × Json) :
    Performs (parseLink platform sensorName itlink) (readLink platform sensorName itlink) putSensor := by
  intro s s' ran
  obtain ⟨transform, readTransform, ran⟩ := lift_bind_eq_ok ran
  obtain ⟨sensordata, readData, ran⟩ := lift_bind_eq_ok ran
  obtain ⟨_, _, first, second⟩ := bind_eq_ok ran
  obtain rfl := (Prod.mk.inj first).2
  obtain rfl := (Prod.mk.inj second).2
  refine ⟨⟨⟨sensorName, itlink.1⟩, transform, sensordata⟩, ?_, rfl⟩
  rw [readLink, readTransform, readData]
  rfl

theorem performs_parseSensor (it : Text × Json) : Performs (parseSensor platform it) (readSensor platform it)
    fun links s => links.foldl (fun s l => putSensor l s) s := by
  intro s s' ran
  obtain ⟨links, object, ran⟩ := lift_bind_eq_ok ran
  obtain ⟨read, mapped, rfl⟩ := performs_forEach (performs_parseLink it.1) links s s' ran
  exact ⟨read, by rw [readSensor, object]; exact mapped, rfl⟩

theorem foldl_putObject (made : List MadeObject) (s : ResultGetInstObjectAndSensorInfo) :
    made.foldl (fun s o => putObject o s) s =
      { s with
        minstobjecttransform :=
  s.minstobjecttransform.insertAll ((made.map Prod.fst).map fun o => (o.name, o.transform))
        minstobjectobb := s.minstobjectobb.insertAll (made.map fun o => (o.1.name, o.1.obb.onto (.initial o.2.1)))
        minstobjectinnerobb :=
          s.minstobjectinnerobb.insertAll (made.map fun o => (o.1.name, o.1.innerobb.onto (.initial o.2.2)))
        mrGeometryInfos :=
          s.mrGeometryInfos.insertAll
            (SortedMap.shownValues ListedObject.name ListedObject.geometryInfos (made.map Prod.fst))
        muri := (made.map Prod.fst).foldl (fun m o => m.insertOr o.name [] o.uri) s.muri
        mObjectType :=
          (made.map Prod.fst).foldl (fun m o => m.insertOr o.name [] o.objectType) s.mObjectType } := by
  induction made generalizing s with
  | nil => rfl
  | cons o made ih =>
    rw [List.foldl_cons, ih]
    cases given : o.1.geometryInfos <;> simp [putObject, given, SortedMap.shownValues]

theorem foldl_putSensor (links : List ListedSensor) (s : ResultGetInstObjectAndSensorInfo) :
    links.foldl (fun s l => putSensor l s) s =
      { s with
        msensortransform := s.msensortransform.insertAll (links.map fun l => (l.info.key, l.transform))
        msensordata := s.msensordata.insertAll (links.map fun l => (l.info.key, l.sensordata)) } := by
  induction links generalizing s with
  | nil => rfl
  | cons l links ih =>
    rw [List.foldl_cons, ih]
    rfl

/-- A parse reads what is listed and puts it over what was there. The geometries alone are put into an
empty map. -/
theorem performs_parse {memory : Nat → BoxMemory × BoxMemory} (ran : parse platform memory pt s = (.ok (), s')) :
    ∃ made links, listed platform pt = .ok (List.map Prod.fst made, links) ∧
      s' = links.foldl (fun s l => putSensor l s)
    (made.foldl (fun s o => putObject o s) { s with mrGeometryInfos := .empty }) := by
  obtain ⟨output, found, ran⟩ := lift_bind_eq_ok ran
  obtain ⟨_, _, cleared, ran⟩ := bind_eq_ok ran
  obtain rfl := (Prod.mk.inj cleared).2
  obtain ⟨instobjects, members, ran⟩ := lift_bind_eq_ok ran
  obtain ⟨_, _, objectsPut, ran⟩ := bind_eq_ok ran
  obtain ⟨sensors, sensorMembers, sensorsPut⟩ := lift_bind_eq_ok ran
  obtain ⟨made, readObjects, rfl⟩ :=
    performs_forEach (fun it : (Text × Json) × Nat => performs_parseInstObject (memory it.2) it.1) _ _ _ objectsPut
  obtain ⟨links, readSensors, rfl⟩ := performs_forEach performs_parseSensor _ _ _ sensorsPut
  refine ⟨made, links.flatten, ?_, List.foldl_flatten.symm⟩
  have objects := mapM_of_zipIdx _ (readInstObject platform) memory 0 readObjects
  rw [listed, found]
  simp only [bind, Except.bind] at members sensorMembers ⊢
  rw [members]
  dsimp only
  rw [objects]
  dsimp only
  rw [sensorMembers]
  dsimp only
  rw [readSensors]
  rfl

theorem Holds.unique (first : Holds objects sensors s) (second : Holds objects sensors t) : s = t := by
  cases s
  cases t
  congr
  · exact first.muri.unique second.muri
  · exact first.minstobjecttransform.unique second.minstobjecttransform
  · exact first.minstobjectobb.unique second.minstobjectobb
  · exact first.minstobjectinnerobb.unique second.minstobjectinnerobb
  · exact first.msensortransform.unique second.msensortransform
  · exact first.msensordata.unique second.msensordata
  · exact first.mrGeometryInfos.unique second.mrGeometryInfos
  · exact first.mObjectType.unique second.mObjectType

/-- What is put over a result is all it holds if the result fitted. -/
theorem holds_iff (made : List MadeObject) (links : List ListedSensor) (s : ResultGetInstObjectAndSensorInfo) :
    Holds (made.map Prod.fst) links
      (links.foldl (fun s l => putSensor l s)
        (made.foldl (fun s o => putObject o s) { s with mrGeometryInfos := .empty })) ↔
      Fits (made.map Prod.fst) links s := by
  rw [foldl_putSensor, foldl_putObject]
  have obb := SortedMap.holdsListed_insertAll_map_iff ListedObject.name s.minstobjectobb Prod.fst
    (fun o : MadeObject => o.1.obb.onto (.initial o.2.1)) (fun o => o.obb.complete)
    fun o (_ : o ∈ made) => o.1.obb.complete_onto o.2.1
  have innerobb := SortedMap.holdsListed_insertAll_map_iff ListedObject.name s.minstobjectinnerobb Prod.fst
    (fun o : MadeObject => o.1.innerobb.onto (.initial o.2.2)) (fun o => o.innerobb.complete)
    fun o (_ : o ∈ made) => o.1.innerobb.complete_onto o.2.2
  constructor
  · intro h
    exact {
      muri := (SortedMap.holdsListed_insertOr_iff _ _ _ _).mp h.muri
      minstobjecttransform := (SortedMap.holdsListed_insertAll_shown_iff _ _ _).mp h.minstobjecttransform
      minstobjectobb := (obb.mp h.minstobjectobb).1
      wholeObb := (obb.mp h.minstobjectobb).2
      minstobjectinnerobb := (innerobb.mp h.minstobjectinnerobb).1
      wholeInnerobb := (innerobb.mp h.minstobjectinnerobb).2
      msensortransform := (SortedMap.holdsListed_insertAll_shown_iff _ _ _).mp h.msensortransform
      msensordata := (SortedMap.holdsListed_insertAll_shown_iff _ _ _).mp h.msensordata
      mObjectType := (SortedMap.holdsListed_insertOr_iff _ _ _ _).mp h.mObjectType }
  · intro h
    exact {
      muri := (SortedMap.holdsListed_insertOr_iff _ _ _ _).mpr h.muri
      minstobjecttransform := (SortedMap.holdsListed_insertAll_shown_iff _ _ _).mpr h.minstobjecttransform
      minstobjectobb := obb.mpr ⟨h.minstobjectobb, h.wholeObb⟩
      minstobjectinnerobb := innerobb.mpr ⟨h.minstobjectinnerobb, h.wholeInnerobb⟩
      msensortransform := (SortedMap.holdsListed_insertAll_shown_iff _ _ _).mpr h.msensortransform
      msensordata := (SortedMap.holdsListed_insertAll_shown_iff _ _ _).mpr h.msensordata
      mrGeometryInfos := SortedMap.holdsListed_insertAll_empty _
      mObjectType := (SortedMap.holdsListed_insertOr_iff _ _ _ _).mpr h.mObjectType }

theorem exact_iff {memory : Nat → BoxMemory × BoxMemory} (ran : parse platform memory pt s = (.ok (), s')) :
    Exact platform pt s' ↔ Clean platform pt s := by
  obtain ⟨made, links, read, rfl⟩ := performs_parse ran
  constructor
  · rintro ⟨objects, sensors, again, holds⟩
    obtain ⟨rfl, rfl⟩ := Prod.mk.inj (Except.ok.inj (read.symm.trans again))
    exact ⟨_, _, read, (holds_iff made links s).mp holds⟩
  · rintro ⟨objects, sensors, again, fits⟩
    obtain ⟨rfl, rfl⟩ := Prod.mk.inj (Except.ok.inj (read.symm.trans again))
    exact ⟨_, _, read, (holds_iff made links s).mpr fits⟩

theorem Exact.unique (first : Exact platform pt s) (second : Exact platform pt t) : s = t := by
  obtain ⟨objects, sensors, listed, holds⟩ := first
  obtain ⟨others, links, again, same⟩ := second
  obtain ⟨rfl, rfl⟩ := Prod.mk.inj (Except.ok.inj (listed.symm.trans again))
  exact holds.unique same

end ResultGetInstObjectAndSensorInfo

inductive ReplyType
  | getPickedPositions
  | computeIKFromParameters
  | getInstObjectAndSensorInfo
  | getJointValues

namespace ReplyType

def Result : ReplyType → Type
  | .getPickedPositions => ResultGetPickedPositions
  | .computeIKFromParameters => ResultComputeIKFromParameters
  | .getInstObjectAndSensorInfo => ResultGetInstObjectAndSensorInfo
  | .getJointValues => ResultGetJointValues

def parse (platform : Platform) (memory : Nat → BoxMemory × BoxMemory) :
    (r : ReplyType) → Json → Loading LoadError r.Result Unit
  | .getPickedPositions => ResultGetPickedPositions.parse
  | .computeIKFromParameters => ResultComputeIKFromParameters.parse platform
  | .getInstObjectAndSensorInfo => ResultGetInstObjectAndSensorInfo.parse platform memory
  | .getJointValues => ResultGetJointValues.parse platform

def SameFields : (r : ReplyType) → r.Result → r.Result → Prop
  | .getPickedPositions, s, t => ResultGetPickedPositions.transforms s = ResultGetPickedPositions.transforms t ∧
    ResultGetPickedPositions.timestamps s = ResultGetPickedPositions.timestamps t
  | .computeIKFromParameters, s, t =>
    ResultComputeIKFromParameters.dofvalues s = ResultComputeIKFromParameters.dofvalues t ∧
    ResultComputeIKFromParameters.extra s = ResultComputeIKFromParameters.extra t
  | .getInstObjectAndSensorInfo, s, t => @Eq ResultGetInstObjectAndSensorInfo s t
  | .getJointValues, s, t => ResultGetJointValues.jointnames s = ResultGetJointValues.jointnames t ∧
    ResultGetJointValues.currentjointvalues s = ResultGetJointValues.currentjointvalues t ∧
    ResultGetJointValues.tools s = ResultGetJointValues.tools t

/-- The vectors and maps hold exactly what the reply lists. -/
def Exact (platform : Platform) : (r : ReplyType) → Json → r.Result → Prop
  | .getPickedPositions => ResultGetPickedPositions.Exact
  | .computeIKFromParameters => ResultComputeIKFromParameters.Exact platform
  | .getInstObjectAndSensorInfo => ResultGetInstObjectAndSensorInfo.Exact platform
  | .getJointValues => ResultGetJointValues.Exact platform

/-- Nothing was there before that a parse of the reply leaves. -/
def Clean (platform : Platform) : (r : ReplyType) → Json → r.Result → Prop
  | .getPickedPositions, _, s =>
    ResultGetPickedPositions.transforms s = [] ∧ ResultGetPickedPositions.timestamps s = []
  | .computeIKFromParameters, _, s =>
    ResultComputeIKFromParameters.dofvalues s = [] ∧ ResultComputeIKFromParameters.extra s = []
  | .getInstObjectAndSensorInfo, pt, s => ResultGetInstObjectAndSensorInfo.Clean platform pt s
  | .getJointValues, pt, s => ResultGetJointValues.Clean platform pt s

variable {platform : Platform} {memory : Nat → BoxMemory × BoxMemory} {pt : Json}

theorem exact_iff (r : ReplyType) {s s' : r.Result} (ran : r.parse platform memory pt s = (.ok (), s')) :
    r.Exact platform pt s' ↔ r.Clean platform pt s := by
  cases r with
  | getPickedPositions => exact ResultGetPickedPositions.exact_iff ran
  | computeIKFromParameters => exact ResultComputeIKFromParameters.exact_iff ran
  | getInstObjectAndSensorInfo => exact ResultGetInstObjectAndSensorInfo.exact_iff ran
  | getJointValues => exact ResultGetJointValues.exact_iff ran

theorem Exact.sameFields (r : ReplyType) {s t : r.Result} (first : r.Exact platform pt s)
    (second : r.Exact platform pt t) : r.SameFields s t := by
  cases r with
  | getPickedPositions =>
    obtain rfl := ResultGetPickedPositions.Exact.unique first second
    exact ⟨rfl, rfl⟩
  | computeIKFromParameters =>
    obtain rfl := ResultComputeIKFromParameters.Exact.unique first second
    exact ⟨rfl, rfl⟩
  | getInstObjectAndSensorInfo => exact ResultGetInstObjectAndSensorInfo.Exact.unique first second
  | getJointValues => exact ResultGetJointValues.Exact.unique first second

/-- Two parses of one reply end alike, with what it lists, exactly for results that held nothing that a
parse leaves. -/
theorem historyIndependent_iff (r : ReplyType) (memory other : Nat → BoxMemory × BoxMemory) {s t s' t' : r.Result}
    (left : r.parse platform memory pt s = (.ok (), s')) (right : r.parse platform other pt t = (.ok (), t')) :
    (r.SameFields s' t' ∧ r.Exact platform pt s' ∧ r.Exact platform pt t') ↔ r.Clean platform pt s ∧
      r.Clean platform pt t := by
  have leftExact := exact_iff r left
  have rightExact := exact_iff r right
  constructor
  · rintro ⟨_, first, second⟩
    exact ⟨leftExact.mp first, rightExact.mp second⟩
  · rintro ⟨first, second⟩
    have exactFirst := leftExact.mpr first
    have exactSecond := rightExact.mpr second
    exact ⟨Exact.sameFields r exactFirst exactSecond, exactFirst, exactSecond⟩

theorem one_range : -2 ^ 63 ≤ (1 : Int) ∧ (1 : Int) < 2 ^ 64 := by decide

def one : Json := .int ⟨1, one_range⟩

/-- `{"output": {"positions": [[1, 1, 1, 1, 1, 1, 1, 1]]}}` -/
def onePosition : Json :=
  .object [(lit "output", .object [(lit "positions", .array [.array (List.replicate 8 one)])])]

def position : Transform := ⟨⟨List.replicate 4 (Double.ofInt 1), rfl⟩, ⟨List.replicate 3 (Double.ofInt 1), rfl⟩⟩

def parsed (n : Nat) : Result .getPickedPositions :=
  ResultGetPickedPositions.mk (List.replicate n position) (List.replicate n (uint64Of 1))

theorem parse_onePosition (platform : Platform) (memory : Nat → BoxMemory × BoxMemory) :
    (parse platform memory .getPickedPositions onePosition (parsed n)) = (.ok (), parsed (n + 1)) := by
  have returned : parse platform memory .getPickedPositions onePosition (parsed n) =
      (.ok (), ResultGetPickedPositions.mk (List.replicate n position ++ [position])
        (List.replicate n (uint64Of 1) ++ [uint64Of 1])) :=
    rfl
  rw [returned, parsed, List.replicate_succ', List.replicate_succ']
  rfl

def cleared : Nat → BoxMemory × BoxMemory := fun _ => (⟨zeros 3, zeros 3⟩, ⟨zeros 3, zeros 3⟩)

theorem historyIndependent_iff_parsed :
    (SameFields .getPickedPositions (parsed 1) (parsed 1) ∧
      Exact default .getPickedPositions onePosition (parsed 1) ∧
      Exact default .getPickedPositions onePosition (parsed 1)) ↔
      Clean default .getPickedPositions onePosition (parsed 0) ∧
        Clean default .getPickedPositions onePosition (parsed 0) :=
  historyIndependent_iff .getPickedPositions cleared cleared (parse_onePosition default cleared)
    (parse_onePosition default cleared)

/-- A second parse of one reply leaves two positions. -/
theorem positions_repeated :
    ¬∀ (platform : Platform) (r : ReplyType) (memory other : Nat → BoxMemory × BoxMemory) (pt : Json)
    (s t s' t' : r.Result), r.parse platform memory pt s = (.ok (), s') →
      r.parse platform other pt t = (.ok (), t') →
    r.SameFields s' t' ∧ r.Exact platform pt s' ∧ r.Exact platform pt t' := by
  intro each
  have same :=
    each default .getPickedPositions cleared cleared onePosition (parsed 0) (parsed 1) (parsed 1) (parsed 2)
    (parse_onePosition default cleared) (parse_onePosition default cleared)
  have lengths := congrArg List.length same.1.1
  exact absurd lengths (by decide)

end ReplyType

end MujinClient
