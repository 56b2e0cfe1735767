import MujinClient.Grabs
import MujinClient.Interpreters
import MujinClient.ReplyParsers
import MujinClient.ResourceRequests

/-! The instance objects of a scene, and finding and deleting one of them by its name. -/
namespace MujinClient

open Request

namespace InstObject

structure Frame where
  name : Text
  quaternion : Vec 4
  translate : Vec 3

abbrev Link := Frame
abbrev AttachedSensor := Frame

structure Tool extends Frame where
  direction : Vec 3

def Frame.initial : Frame := ⟨[], Transform.initial.quaternion, Transform.initial.translate⟩
def Tool.initial : Tool := ⟨Frame.initial, zeros 3⟩

variable (platform : Platform) (it : Json)

def Frame.load : Loading LoadError Frame Unit := do
  Loading.zoom (·.name) (fun x s => { s with name := x })
    (loadJsonValueByKey (loadJsonValue platform .string) it "name")
  Loading.zoom (·.quaternion) (fun x s => { s with quaternion := x })
    (loadJsonValueByKey (loadCArray 4 (loadJsonValue platform .double)) it "quaternion")
  Loading.zoom (·.translate) (fun x s => { s with translate := x })
    (loadJsonValueByKey (loadCArray 3 (loadJsonValue platform .double)) it "translate")

def Tool.load : Loading LoadError Tool Unit := do
  Loading.zoom (·.toFrame) (fun x s => { s with toFrame := x }) (Frame.load platform it)
  Loading.zoom (·.direction) (fun x s => { s with direction := x })
    (loadJsonValueByKey (loadCArray 3 (loadJsonValue platform .double)) it "direction")

def loadGrab : Loading LoadError Grab Unit := do
  Loading.zoom (·.instobjectpk) (fun x s => { s with instobjectpk := x })
    (loadJsonValueByKey (loadJsonValue platform .string) it "instobjectpk")
  Loading.zoom (·.grabbed_linkpk) (fun x s => { s with grabbed_linkpk := x })
    (loadJsonValueByKey (loadJsonValue platform .string) it "grabbed_linkpk")
  Loading.zoom (·.grabbing_linkpk) (fun x s => { s with grabbing_linkpk := x })
    (loadJsonValueByKey (loadJsonValue platform .string) it "grabbing_linkpk")

/-- A list inside an instance object, which may be missing. -/
def readParts {β : Type} (key : String) (start : β) (load : Json → Loading LoadError β Unit) :
    Except LoadError (List β) := do
  match ← findMemberOf it key with
  | none => return []
  | some parts => (← elementsOf parts).mapM (fresh start load)

end InstObject

/-- An instance object as `GetInstObjects` makes it. -/
structure ListedInstObject extends InstObject where
  scenepk : Text
  name : Text
  grabs : List Grab
  links : List InstObject.Link
  tools : List InstObject.Tool
  attachedsensors : List InstObject.AttachedSensor

namespace SceneResource

/-- One turn of the loop of `GetInstObjects`. The constructor asserts that there is a key. -/
def readInstObject (platform : Platform) (scenepk : Text) (it : Json) : Except LoadError ListedInstObject := do
  let pk ← valueByKey platform .string it "pk"
  if pk.isEmpty then throw .assertion
  let name ← valueByKey platform .string it "name"
  let instobject ← fresh (InstObject.initial pk) (InstObject.load platform) it
  let links ← InstObject.readParts it "links" InstObject.Frame.initial (InstObject.Frame.load platform)
  let tools ← InstObject.readParts it "tools" InstObject.Tool.initial (InstObject.Tool.load platform)
  let grabs ← InstObject.readParts it "grabs" ⟨[], [], []⟩ (InstObject.loadGrab platform)
  let attachedsensors ← InstObject.readParts it "attachedsensors" InstObject.Frame.initial
      (InstObject.Frame.load platform)
  return { instobject with scenepk, name, grabs, links, tools, attachedsensors }

def readInstObjects (platform : Platform) (scenepk : Text) (pt : Json) :
    Except LoadError (List ListedInstObject) := do
  (← elementsOf (← memberOf pt "objects")).mapM (readInstObject platform scenepk)

/-- The loop of `FindInstObject`. -/
def findNamed (name : Text) : List ListedInstObject → Option ListedInstObject
  | [] => none
  | instobject :: rest => if instobject.name = name then some instobject else findNamed name rest

/-- The loop of `utils::DeleteObject`: `name.find` looks for a part of the name. -/
def deleteNamed (delete : ListedInstObject → Request Unit) (name : Text) : List ListedInstObject → Request Unit
  | [] => return ()
  | instobject :: rest => if name <:+: instobject.name then delete instobject else deleteNamed delete name rest

variable (client : ControllerClient) (primaryKey : Text)

def getInstObjects : Request (List ListedInstObject) := do
  let (_, pt) ← client.callGet (lit "scene/" ++ primaryKey ++ lit "/instobject/?format=json&limit=0")
      (.object []) 200
    ControllerClient.defaultTimeout
  Program.lift ((readInstObjects client.platform primaryKey pt).mapError .load)

def findInstObject (name : Text) : Request (Option ListedInstObject) := do
  let instobjects ← getInstObjects client primaryKey
  return findNamed name instobjects

/-- `WebResource::Delete` -/
def deleteInstObject (instobject : ListedInstObject) : Request Unit :=
  client.callDelete (lit "scene/" ++ instobject.scenepk ++ lit "/instobject/" ++ instobject.pk ++ lit "/") 204
    ControllerClient.defaultTimeout

/-- `utils::DeleteObject` -/
def deleteObject (name : Text) : Request Unit := do
  let instobjects ← getInstObjects client primaryKey
  deleteNamed (deleteInstObject client) name instobjects

/-- A weaker test finds the same exactly if what it finds passes the stronger one. -/
theorem find?_weaker_iff (xs : List α) {weaker stronger : α → Bool}
    (implies : ∀ x, stronger x = true → weaker x = true) :
    xs.find? weaker = xs.find? stronger ↔ ∀ x, xs.find? weaker = some x → stronger x = true := by
  constructor
  · intro same x found
    exact List.find?_some (same ▸ found)
  · intro exact
    cases found : xs.find? weaker with
    | none =>
      refine (List.find?_eq_none.mpr fun x inside passes => ?_).symm
      exact List.find?_eq_none.mp found x inside (implies x passes)
    | some x =>
      obtain ⟨-, before, after, shape, earlier⟩ := List.find?_eq_some_iff_append.mp found
      refine (List.find?_eq_some_iff_append.mpr ⟨exact x found, before, after, shape, fun y inside => ?_⟩).symm
      have fails := earlier y inside
      by_contra passes
      rw [implies y (by simpa using passes)] at fails
      cases fails

theorem findNamed_eq (name : Text) (instobjects : List ListedInstObject) :
    findNamed name instobjects = instobjects.find? fun instobject => instobject.name = name := by
  induction instobjects with
  | nil => rfl
  | cons instobject rest ih =>
    rw [findNamed, List.find?_cons, ih]
    by_cases same : instobject.name = name <;> simp [same]

def deleteFound (delete : ListedInstObject → Request Unit) : Option ListedInstObject → Request Unit
  | some instobject => delete instobject
  | none => return ()

theorem deleteNamed_eq (delete : ListedInstObject → Request Unit) (name : Text)
    (instobjects : List ListedInstObject) :
    deleteNamed delete name instobjects = deleteFound delete
      (instobjects.find? fun instobject => name <:+: instobject.name) := by
  induction instobjects with
  | nil => rfl
  | cons instobject rest ih =>
    rw [deleteNamed, List.find?_cons, ih]
    by_cases part : name <:+: instobject.name <;> simp [part, deleteFound]

/-- A name that is the first to contain the requested one is also the first to be it. -/
theorem finds_of_exact (name : Text) (instobjects : List ListedInstObject)
    (exact : ∀ first, (instobjects.find? fun instobject => name <:+: instobject.name) = some first →
      first.name = name)
    (delete : ListedInstObject → Request Unit) :
    deleteNamed delete name instobjects = deleteFound delete (findNamed name instobjects) := by
  have implies : ∀ instobject : ListedInstObject, decide (instobject.name = name) = true →
      decide (name <:+: instobject.name) = true := by
    intro instobject same
    rw [decide_eq_true_eq] at same
    rw [same]
    exact decide_eq_true (List.infix_refl name)
  rw [deleteNamed_eq, findNamed_eq]
  have same := (find?_weaker_iff instobjects implies).mpr fun x found => decide_eq_true (exact x found)
  rw [same]

/-- Whatever deleting an object does, the loop does it to what `FindInstObject` finds, and to nothing
else, exactly if the first object whose name contains the requested one has just that name. -/
theorem deleteNamed_finds_iff (name : Text) (instobjects : List ListedInstObject) :
    (∀ delete, deleteNamed delete name instobjects = deleteFound delete (findNamed name instobjects)) ↔
      ∀ first, (instobjects.find? fun instobject => name <:+: instobject.name) = some first →
        first.name = name := by
  constructor
  · intro agree first found
    simp only [deleteNamed_eq, findNamed_eq] at agree
    -- what is deleted shows in the error of this deletion
    have shown := agree fun instobject => .throws (.graphQuery instobject.name [])
    rw [found] at shown
    cases exact : instobjects.find? fun instobject => decide (instobject.name = name) with
    | none =>
      rw [exact] at shown
      cases shown
    | some other =>
      rw [exact] at shown
      have same : first.name = other.name := by
        injection shown with thrown
        injection thrown
      have named := List.find?_some exact
      rw [same]
      simpa using named
  · exact finds_of_exact name instobjects

theorem findInstObject_bind (f : Option ListedInstObject → Request Unit) :
    (findInstObject client primaryKey name >>= f) =
      getInstObjects client primaryKey >>= fun instobjects => f (findNamed name instobjects) := by
  unfold findInstObject
  rw [Program.bind_assoc]
  rfl

/-- The whole of `utils::DeleteObject`, whatever it is answered: it deletes what `FindInstObject` finds
unless the first listed object whose name contains the requested one has another name. -/
theorem deleteObject_finds {W : Type} (E : Environment ClientAction.Answer W) (w : W) (name : Text)
    (exact : ∀ instobjects, ((getInstObjects client primaryKey).play E w).1 = .ok instobjects → ∀ first,
      (instobjects.find? fun instobject => name <:+: instobject.name) = some first → first.name = name) :
    (deleteObject client primaryKey name).play E w =
      (findInstObject client primaryKey name >>= deleteFound (deleteInstObject client)).play E w := by
  rw [findInstObject_bind, deleteObject, Program.play_bind, Program.play_bind]
  rcases ran : (getInstObjects client primaryKey).play E w with ⟨e | instobjects, after⟩
  · rw [Loading.bind_error ran, Loading.bind_error ran]
  · rw [Loading.bind_ok ran, Loading.bind_ok ran]
    have agree := finds_of_exact name instobjects (exact instobjects (by rw [ran]))
    rw [agree]

/-- An object whose name only contains the requested one. -/
def tenthBox : ListedInstObject :=
  { InstObject.initial [1] with
    scenepk := [2], name := lit "box10", grabs := [], links := [], tools := [], attachedsensors := [] }

theorem other_object_deleted :
    ¬∀ (name : Text) (instobjects : List ListedInstObject) (delete : ListedInstObject → Request Unit),
    deleteNamed delete name instobjects = deleteFound delete (findNamed name instobjects) := by
  intro agree
  have shown := agree (lit "box1") [tenthBox] fun _ => .throws .standard
  have contained : lit "box1" <:+: tenthBox.name := by decide
  have absent : findNamed (lit "box1") [tenthBox] = none := by decide
  rw [deleteNamed, if_pos contained, absent] at shown
  cases shown

end SceneResource

end MujinClient
