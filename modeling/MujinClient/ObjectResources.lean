import MujinClient.InstObjectReplies
import MujinClient.ResourceRequests

/-! Objects with their links and geometries, as read from the server, and the codes that say of a
whole object or link whether its parts are visible or collide. -/
namespace MujinClient.ObjectResource

open Request

structure GeometryResource where
  name : Text
  pk : Text
  objectpk : Text
  linkpk : Text
  geomtype : Text
  quaternion : Vec 4
  translate : Vec 3
  visible : Bool
  diffusecolor : Vec 4
  transparency : Double
  half_extents : Vec 3
  height : Double
  radius : Double
  topRadius : Double
  bottomRadius : Double

structure LinkResource where
  attachmentpks : List Text
  name : Text
  pk : Text
  objectpk : Text
  parentlinkpk : Text
  quaternion : Vec 4
  translate : Vec 3
  collision : Bool

/-- The constructor. The base class asserts that there is a key. -/
def GeometryResource.create (objectpk pk : Text) : Except LoadError GeometryResource :=
  if pk.isEmpty then .error .assertion
  else .ok {
    name := [], pk, objectpk, linkpk := [], geomtype := []
    quaternion := Transform.initial.quaternion, translate := Transform.initial.translate
    visible := true, diffusecolor := zeros 4, transparency := Double.zero, half_extents := zeros 3
    height := Double.zero, radius := Double.zero, topRadius := Double.zero, bottomRadius := Double.zero }

def LinkResource.create (objectpk pk : Text) : Except LoadError LinkResource :=
  if pk.isEmpty then .error .assertion
  else .ok {
    attachmentpks := [], name := [], pk, objectpk, parentlinkpk := []
    quaternion := Transform.initial.quaternion, translate := Transform.initial.translate, collision := true }

section

variable (platform : Platform) (it : Json)

/-- What both readers of geometries load last. -/
def GeometryResource.load : Loading LoadError GeometryResource Unit := do
  Loading.zoom (·.visible) (fun x s => { s with visible := x })
    (loadJsonValueByKey (loadJsonValue platform .bool) it "visible")
  Loading.zoom (·.geomtype) (fun x s => { s with geomtype := x })
    (loadJsonValueByKey (loadJsonValue platform .string) it "geomtype")
  Loading.zoom (·.transparency) (fun x s => { s with transparency := x })
    (loadJsonValueByKey (loadJsonValue platform .double) it "transparency")
  Loading.zoom (·.quaternion) (fun x s => { s with quaternion := x })
    (loadJsonValueByKey (loadCArray 4 (loadJsonValue platform .double)) it "quaternion")
  Loading.zoom (·.translate) (fun x s => { s with translate := x })
    (loadJsonValueByKey (loadCArray 3 (loadJsonValue platform .double)) it "translate")
  Loading.zoom (·.diffusecolor) (fun x s => { s with diffusecolor := x })
    (loadJsonValueByKey (loadCArray 4 (loadJsonValue platform .double)) it "diffusecolor")
  Loading.zoom (·.half_extents) (fun x s => { s with half_extents := x })
    (loadJsonValueByKey (loadCArray 3 (loadJsonValue platform .double)) it "half_extents")
  Loading.zoom (·.height) (fun x s => { s with height := x })
    (loadJsonValueByKey (loadJsonValue platform .double) it "height")
  Loading.zoom (·.radius) (fun x s => { s with radius := x })
    (loadJsonValueByKey (loadJsonValue platform .double) it "radius")
  Loading.zoom (·.topRadius) (fun x s => { s with topRadius := x })
    (loadJsonValueByKey (loadJsonValue platform .double) it "topRadius")
  Loading.zoom (·.bottomRadius) (fun x s => { s with bottomRadius := x })
    (loadJsonValueByKey (loadJsonValue platform .double) it "bottomRadius")

/-- `GetGeometries` loads the name before, with the key for a name that is missing. -/
def GeometryResource.loadNamed (pk : Text) : Loading LoadError GeometryResource Unit := do
  Loading.zoom (·.name) (fun x s => { s with name := x })
    (loadJsonValueByKeyOr (loadJsonValue platform .string) it "name" pk)
  GeometryResource.load platform it

/-- `GetGeometryFromName` has the name and loads the link before. -/
def GeometryResource.loadLinked : Loading LoadError GeometryResource Unit := do
  Loading.zoom (·.linkpk) (fun x s => { s with linkpk := x })
    (loadJsonValueByKey (loadJsonValue platform .string) it "linkpk")
  GeometryResource.load platform it

def LinkResource.load : Loading LoadError LinkResource Unit := do
  Loading.zoom (·.parentlinkpk) (fun x s => { s with parentlinkpk := x })
    (loadJsonValueByKey (loadJsonValue platform .string) it "parentlinkpk")
  Loading.zoom (·.name) (fun x s => { s with name := x })
    (loadJsonValueByKey (loadJsonValue platform .string) it "name")
  Loading.zoom (·.collision) (fun x s => { s with collision := x })
    (loadJsonValueByKey (loadJsonValue platform .bool) it "collision")
  Loading.zoom (·.attachmentpks) (fun x s => { s with attachmentpks := x })
    (loadJsonValueByKey (loadJsonValue platform (.vector .string)) it "attachmentpks")
  Loading.zoom (·.quaternion) (fun x s => { s with quaternion := x })
    (loadJsonValueByKey (loadCArray 4 (loadJsonValue platform .double)) it "quaternion")
  Loading.zoom (·.translate) (fun x s => { s with translate := x })
    (loadJsonValueByKey (loadCArray 3 (loadJsonValue platform .double)) it "translate")

/-- One turn of the loop of `GetLinks`. -/
def readLink (objectpk : Text) : Except LoadError LinkResource := do
  let link ← LinkResource.create objectpk (← valueByKey platform .string it "pk")
  fresh link (LinkResource.load platform) it

/-- The loop of `GetLinks`. -/
def readLinks (objectpk : Text) (pt : Json) : Except LoadError (List LinkResource) := do
  let objects ← elementsOf (← memberOf pt "links")
  objects.mapM (readLink platform · objectpk)

end

/-- The geometries of a reply; other replies are passed by. -/
def geometriesOf? : Json → Option (List Json)
  | .object members =>
    match Json.findMember members (lit "geometries") with
    | some (.array objects) => some objects
    | _ => none
  | _ => none

namespace LinkResource

variable (link : LinkResource) (platform : Platform)

/-- One turn of the loop of `GetGeometries`: a geometry of another link is left out. -/
def readGeometry (it : Json) : Except LoadError (Option GeometryResource) := do
  let linkpk ← valueByKey platform .string it "linkpk"
  if linkpk = link.pk then
    let geometry ← GeometryResource.create link.objectpk (← valueByKey platform .string it "pk")
    let geometry ← fresh { geometry with linkpk := linkpk } (GeometryResource.loadNamed platform · geometry.pk) it
    return some geometry
  else return none

/-- The loop of `GetGeometries`. -/
def readGeometries : List Json → Except LoadError (List GeometryResource)
  | [] => return []
  | it :: rest => do
    let geometry ← link.readGeometry platform it
    return geometry.toList ++ (← readGeometries rest)

/-- The name that `GetGeometryFromName` compares. -/
def geomname (it : Json) : Except LoadError Text := do
  match ← findMemberOf it "name" with
  | some _ => valueByKey platform .string it "name"
  | none => valueByKey platform .string it "pk"

/-- `(*it)["linkpk"].GetString()` -/
def linkString (it : Json) : Except LoadError Text := do
  match ← memberOf it "linkpk" with
  | .string s => return cString s
  | _ => throw .assertion

/-- The loop of `GetGeometryFromName`. -/
def findGeometry (geometryName : Text) : List Json → Except LoadError GeometryResource
  | [] =>
    .error (.mujin ⟨lit "link " ++ link.name ++ lit " does not have geometry named " ++ geometryName,
      .invalidArguments⟩)
  | it :: rest => do
    let geomname ← geomname platform it
    if geomname = geometryName then
      if (← linkString it) = link.pk then
        let geometry ← GeometryResource.create link.objectpk (← valueByKey platform .string it "pk")
        fresh { geometry with name := geomname } (GeometryResource.loadLinked platform) it
      else findGeometry geometryName rest
    else findGeometry geometryName rest

variable (client : ControllerClient)

def geometriesUri : Text :=
  lit "object/" ++ link.objectpk ++ lit "/geometry/?format=json&limit=0&fields=geometries"

def getGeometries : Request (List GeometryResource) := do
  let (_, pt) ← client.callGet link.geometriesUri (.object []) 200 ControllerClient.defaultTimeout
  Program.lift ((link.readGeometries client.platform ((geometriesOf? pt).getD [])).mapError .load)

def getGeometryFromName (geometryName : Text) : Request GeometryResource := do
  let (_, pt) ← client.callGet link.geometriesUri (.object []) 200 ControllerClient.defaultTimeout
  Program.lift ((link.findGeometry client.platform geometryName ((geometriesOf? pt).getD [])).mapError .load)

end LinkResource

def getLinks (client : ControllerClient) (primaryKey : Text) : Request (List LinkResource) := do
  let (_, pt) ← client.callGet
      (lit "object/" ++ primaryKey ++ lit "/link/?format=json&limit=0&fields=links") (.object []) 200
    ControllerClient.defaultTimeout
  Program.lift ((readLinks client.platform primaryKey pt).mapError .load)

/-- A `bool` returned as an `int`. -/
def flagCode (flag : Bool) : BitVec 32 := if flag then 1 else 0

def GeometryResource.getVisible (geometry : GeometryResource) : BitVec 32 := flagCode geometry.visible

def LinkResource.getCollision (link : LinkResource) : BitVec 32 := flagCode link.collision

/-- `ret |= code+1` -/
def merge (ret code : BitVec 32) : BitVec 32 := ret ||| (code + 1)

variable (client : ControllerClient)

def LinkResource.getVisible (link : LinkResource) : Request (BitVec 32) := do
  let geometries ← link.getGeometries client
  return geometries.foldl (fun ret geometry => merge ret geometry.getVisible) 0 - 1

/-- The loop over the links. -/
def mergeVisible : List LinkResource → BitVec 32 → Request (BitVec 32)
  | [], ret => return ret
  | link :: links, ret => do
    let code ← link.getVisible client
    mergeVisible links (merge ret code)

def getVisible (primaryKey : Text) : Request (BitVec 32) := do
  let links ← getLinks client primaryKey
  let ret ← mergeVisible client links 0
  return ret - 1

def getCollision (primaryKey : Text) : Request (BitVec 32) := do
  let links ← getLinks client primaryKey
  return links.foldl (fun ret link => merge ret link.getCollision) 0 - 1

/-- The code of any collection of flags. -/
structure Summarises (flags : List Bool) (code : BitVec 32) : Prop where
  mixed : code = 2 ↔ true ∈ flags ∧ false ∈ flags
  on : code = 1 ↔ flags ≠ [] ∧ ∀ flag ∈ flags, flag = true
  off : code = 0 ↔ flags ≠ [] ∧ ∀ flag ∈ flags, flag = false
  empty : code = -1 ↔ flags = []

/-- One bit for each flag that occurs. -/
def occurring (flags : List Bool) : BitVec 32 :=
  (if flags.contains false then 1 else 0) ||| (if flags.contains true then 2 else 0)

def summary (flags : List Bool) : BitVec 32 := occurring flags - 1

theorem merge_summary (first second : List Bool) :
    merge (occurring first) (summary second) = occurring (first ++ second) := by
  have back : summary second + 1 = occurring second := BitVec.sub_add_cancel _ _
  rw [merge, back]
  unfold occurring
  simp only [List.contains_append]
  cases first.contains false <;> cases first.contains true <;> cases second.contains false <;>
    cases second.contains true <;> decide

theorem flagCode_summary (flag : Bool) : flagCode flag = summary [flag] := by
  cases flag <;> decide

theorem foldl_merge (flag : α → Bool) (xs : List α) (flags : List Bool) :
    xs.foldl (fun ret x => merge ret (flagCode (flag x)))
    (occurring flags) = occurring (flags ++ xs.map flag) := by
  induction xs generalizing flags with
  | nil => simp
  | cons x xs ih =>
    rw [List.foldl_cons, flagCode_summary, merge_summary, ih, List.map_cons, List.append_assoc]
    rfl

theorem summary_cases (flags : List Bool) :
    summary flags = if flags.contains true then (if flags.contains false then 2 else 1)
      else if flags.contains false then 0 else -1 := by
  unfold summary occurring
  cases flags.contains false <;> cases flags.contains true <;> decide

theorem all_iff_of_two {flags : List Bool} {flag : Bool} :
    (flags ≠ [] ∧ ∀ other ∈ flags, other = flag) ↔ flag ∈ flags ∧ (!flag) ∉ flags := by
  constructor
  · rintro ⟨some, all⟩
    obtain ⟨other, inside⟩ := List.exists_mem_of_ne_nil flags some
    exact ⟨all other inside ▸ inside, fun opposite => by simpa using all _ opposite⟩
  · rintro ⟨inside, absent⟩
    refine ⟨List.ne_nil_of_mem inside, fun other present => ?_⟩
    by_contra apart
    rw [Bool.eq_not.mpr apart] at present
    exact absent present

theorem summarises_summary (flags : List Bool) : Summarises flags (summary flags) := by
  have neither : flags = [] ↔ true ∉ flags ∧ false ∉ flags := by
    rw [List.eq_nil_iff_forall_not_mem]
    exact ⟨fun none => ⟨none _, none _⟩, fun none flag => by cases flag <;> simp [none]⟩
  constructor
  all_goals
    simp only [all_iff_of_two, neither, summary_cases, List.contains_iff_mem, Bool.not_true, Bool.not_false]
    by_cases on : true ∈ flags <;> by_cases off : false ∈ flags <;> simp [on, off]

theorem foldl_codes (flag : α → Bool) (xs : List α) :
    xs.foldl (fun ret x => merge ret (flagCode (flag x))) 0 - 1 = summary (xs.map flag) := by
  have nothing : occurring [] = 0 := by decide
  have folded := foldl_merge flag xs []
  rw [nothing, List.nil_append] at folded
  rw [folded, summary]

theorem getVisible_link (link : LinkResource) :
    link.getVisible client = (do
      let geometries ← link.getGeometries client
      return summary (geometries.map (·.visible))) := by
  unfold LinkResource.getVisible
  congr 1
  funext geometries
  have code := foldl_codes (·.visible) geometries
  simp only [GeometryResource.getVisible, code]

/-- The geometries of all links, link by link. -/
def allGeometries : List LinkResource → Request (List GeometryResource)
  | [] => return []
  | link :: links => do
    let geometries ← link.getGeometries client
    let rest ← allGeometries links
    return geometries ++ rest

/-- What a link returns is merged as if its geometries were merged one by one. -/
theorem mergeVisible_occurring (links : List LinkResource) (flags : List Bool) :
    mergeVisible client links (occurring flags) = (do
      let geometries ← allGeometries client links
      return occurring (flags ++ geometries.map (·.visible))) := by
  induction links generalizing flags with
  | nil =>
    change Program.returns (occurring flags) = Program.returns (occurring (flags ++ []))
    rw [List.append_nil]
  | cons link links ih =>
    rw [mergeVisible, getVisible_link, allGeometries, Program.bind_assoc, Program.bind_assoc]
    congr 1
    funext geometries
    change mergeVisible client links (merge (occurring flags) (summary (geometries.map (·.visible)))) = _
    rw [merge_summary, ih, Program.bind_assoc]
    congr 1
    funext rest
    change _ = Program.returns (occurring (flags ++ (geometries ++ rest).map (·.visible)))
    rw [List.map_append, List.append_assoc]
    rfl

theorem getVisible_object (primaryKey : Text) :
    getVisible client primaryKey = (do
      let links ← getLinks client primaryKey
      let geometries ← allGeometries client links
      return summary (geometries.map (·.visible))) := by
  have nothing : occurring [] = 0 := by decide
  unfold getVisible
  congr 1
  funext links
  have merged := mergeVisible_occurring client links []
  rw [nothing] at merged
  rw [merged, Program.bind_assoc]
  rfl

theorem getCollision_object (primaryKey : Text) :
    getCollision client primaryKey = (do
      let links ← getLinks client primaryKey
      return summary (links.map (·.collision))) := by
  unfold getCollision
  congr 1
  funext links
  have code := foldl_codes (·.collision) links
  simp only [LinkResource.getCollision, code]

/-- The codes of links and objects summarise the flags of all that is below them, whatever the
server answers and however it is spread over the links. -/
theorem codes_summarise (link : LinkResource) (primaryKey : Text) :
    (∀ flags, Summarises flags (summary flags)) ∧
    link.getVisible client = (do
      let geometries ← link.getGeometries client
      return summary (geometries.map (·.visible))) ∧
    getVisible client primaryKey = (do
      let links ← getLinks client primaryKey
      let geometries ← allGeometries client links
      return summary (geometries.map (·.visible))) ∧
    getCollision client primaryKey = (do
      let links ← getLinks client primaryKey
      return summary (links.map (·.collision))) :=
  ⟨summarises_summary, getVisible_link client link, getVisible_object client primaryKey,
    getCollision_object client primaryKey⟩

end MujinClient.ObjectResource
