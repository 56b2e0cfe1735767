import MujinClient.KeyedMembers
import MujinClient.ObjectResources
import MujinClient.ServedRequests
import MujinClient.StagedWrites

/-! Setting the flags of an object on a server, part by part, and reading them back. -/
namespace MujinClient

open Request

def getJsonStringByKey (platform : Platform) (key : String) (value : Json) : Text :=
  dumpJson platform (.object [(lit key, value)])

def WebResource.setJSON (client : ControllerClient) (resourcename primaryKey json : Text) : Request Unit := do
  let _ ← client.callPut (resourcename ++ lit "/" ++ primaryKey ++ lit "/?format=json") json .json 202
      ControllerClient.defaultTimeout

namespace ObjectResource

variable (client : ControllerClient)

/-- The flag of the local geometry follows the one on the server. -/
def GeometryResource.setVisible (geometry : GeometryResource) (isVisible : Bool) : Request GeometryResource := do
  WebResource.setJSON client (lit "object/" ++ geometry.objectpk ++ lit "/geometry") geometry.pk
    (getJsonStringByKey client.platform "visible" (.bool isVisible))
  return { geometry with visible := isVisible }

def LinkResource.setCollision (link : LinkResource) (hasCollision : Bool) : Request LinkResource := do
  WebResource.setJSON client (lit "object/" ++ link.objectpk ++ lit "/link") link.pk
    (getJsonStringByKey client.platform "collision" (.bool hasCollision))
  return { link with collision := hasCollision }

def LinkResource.setVisible (link : LinkResource) (visible : Bool) : Request Unit := do
  let geometries ← link.getGeometries client
  geometries.forM fun geometry => do let _ ← geometry.setVisible client visible

def setVisible (primaryKey : Text) (visible : Bool) : Request Unit := do
  let links ← getLinks client primaryKey
  links.forM fun link => link.setVisible client visible

def setCollision (primaryKey : Text) (collision : Bool) : Request Unit := do
  let links ← getLinks client primaryKey
  links.forM fun link => do let _ ← link.setCollision client collision

/-- A part as a reply describes it: its key and its flag, and whatever else. -/
def IsPart (field : String) (pk : Text) (flag : Bool) (it : Json) : Prop :=
  ∃ members, it = .object members ∧ Json.findMember members (lit "pk") = some (.string pk) ∧
    Json.findMember members (lit field) = some (.bool flag)

section

variable {platform : Platform} {it : Json} {pk objectpk : Text} {flag : Bool}

theorem loadByKey_bool {members : Json.Members} {field : String}
    (found : Json.findMember members (lit field) = some (.bool flag))
    (b : Bool) : loadJsonValueByKey (loadJsonValue platform .bool) (.object members) field b = (.ok (), flag) := by
  rw [loadJsonValueByKey_found _ found rfl]
  rfl

/-- A load keeps what none of its parts touches, and leaves in a field what was loaded last. -/
theorem linkLoad_part {members : Json.Members}
    (hasFlag : Json.findMember members (lit "collision") = some (.bool flag)) :
    Loading.Ensures (fun link => link.collision = flag) (LinkResource.load platform (.object members)) := by
  unfold LinkResource.load
  refine Loading.Ensures.last
    (fun _ => Loading.Ensures.last (fun _ => Loading.Ensures.then_keeps ?_ fun _ => ?_) _) _
  · intro s a final ran
    rw [Loading.zoom_apply, loadByKey_bool hasFlag] at ran
    rw [← (Prod.mk.inj ran).2]
  · refine Loading.Keeps.bind (Loading.keeps_zoom_part fun _ _ kept => kept) fun _ => ?_
    exact Loading.Keeps.bind (Loading.keeps_zoom_part fun _ _ kept => kept) fun _ =>
      Loading.keeps_zoom_part fun _ _ kept => kept

theorem linkLoad_keeps (platform : Platform) (it : Json) (pk objectpk : Text) :
    Loading.Keeps (fun link => link.pk = pk ∧ link.objectpk = objectpk) (LinkResource.load platform it) := by
  unfold LinkResource.load
  repeat' refine Loading.Keeps.bind ?_ fun _ => ?_
  all_goals exact Loading.keeps_zoom_part fun _ _ kept => kept

theorem load_of_fresh {α : Type} {load : Load α} {start x : α} {v : Json} (read : fresh start load v = .ok x) :
    load v start = (.ok (), x) := by
  unfold fresh at read
  rcases ran : load v start with ⟨e | a, y⟩ <;> rw [ran] at read
  · cases read
  · rw [Except.ok.inj read]

theorem readLink_part {link : LinkResource} (part : IsPart "collision" pk flag it)
    (read : readLink platform it objectpk = .ok link) :
    link.pk = pk ∧ link.objectpk = objectpk ∧ link.collision = flag := by
  obtain ⟨members, rfl, hasPk, hasFlag⟩ := part
  unfold readLink at read
  rw [valueByKey_string hasPk] at read
  cases created : LinkResource.create objectpk pk with
  | error e =>
    simp only [bind, Except.bind, created] at read
    cases read
  | ok start =>
    simp only [bind, Except.bind, created] at read
    have loaded := load_of_fresh read
    have keys : start.pk = pk ∧ start.objectpk = objectpk := by
      unfold LinkResource.create at created
      split at created
      · cases created
      · rw [← Except.ok.inj created]
        exact ⟨rfl, rfl⟩
    have kept := linkLoad_keeps platform (.object members) pk objectpk start keys
    rw [loaded] at kept
    exact ⟨kept.1, kept.2, linkLoad_part hasFlag start () link loaded⟩

theorem geometryLoad_part {members : Json.Members}
    (hasFlag : Json.findMember members (lit "visible") = some (.bool flag)) :
    Loading.Ensures (fun geometry => geometry.visible = flag)
    (GeometryResource.load platform (.object members)) := by
  unfold GeometryResource.load
  refine Loading.Ensures.then_keeps ?_ fun _ => ?_
  · intro s a final ran
    rw [Loading.zoom_apply, loadByKey_bool hasFlag] at ran
    rw [← (Prod.mk.inj ran).2]
  · repeat' refine Loading.Keeps.bind ?_ fun _ => ?_
    all_goals exact Loading.keeps_zoom_part fun _ _ kept => kept

theorem geometryLoad_keeps (platform : Platform) (it : Json) (name pk objectpk : Text) :
    Loading.Keeps (fun geometry => geometry.pk = pk ∧ geometry.objectpk = objectpk)
    (GeometryResource.loadNamed platform it name) := by
  unfold GeometryResource.loadNamed GeometryResource.load
  repeat' refine Loading.Keeps.bind ?_ fun _ => ?_
  all_goals exact Loading.keeps_zoom_part fun _ _ kept => kept

theorem readGeometry_part {link : LinkResource} {linkpk : Text} {read : Option GeometryResource}
    (part : IsPart "visible" pk flag it)
    (hasLink : ∀ members, it = .object members → Json.findMember members (lit "linkpk") = some (.string linkpk))
    (ran : link.readGeometry platform it = .ok read) :
    if linkpk = link.pk then ∃ geometry, read = some geometry ∧ geometry.pk = pk ∧
      geometry.objectpk = link.objectpk ∧ geometry.visible = flag
    else read = none := by
  obtain ⟨members, rfl, hasPk, hasFlag⟩ := part
  unfold LinkResource.readGeometry at ran
  rw [valueByKey_string (hasLink members rfl), valueByKey_string hasPk] at ran
  simp only [bind, Except.bind] at ran
  by_cases same : linkpk = link.pk
  · rw [if_pos same] at ran ⊢
    cases created : GeometryResource.create link.objectpk pk with
    | error e =>
      simp only [created] at ran
      cases ran
    | ok start =>
      simp only [created] at ran
      split at ran
      · cases ran
      · rename_i geometry loaded
        obtain rfl := Except.ok.inj ran
        have loaded := load_of_fresh loaded
        have keys : start.pk = pk ∧ start.objectpk = link.objectpk := by
          unfold GeometryResource.create at created
          split at created
          · cases created
          · rw [← Except.ok.inj created]
            exact ⟨rfl, rfl⟩
        have kept :=
          geometryLoad_keeps platform (.object members) start.pk pk link.objectpk
            { start with linkpk := linkpk } keys
        rw [loaded] at kept
        exact ⟨geometry, rfl, kept.1, kept.2, Loading.Ensures.last (fun _ => geometryLoad_part hasFlag) _ _
          () geometry loaded⟩
  · rw [if_neg same] at ran ⊢
    exact (Except.ok.inj ran).symm

/-- A loop over the objects of a reply whose turns are as `made` says. -/
theorem forall₂_mapM {α β γ : Type} {f : α → Except LoadError β} {listed : α → γ → Prop}
    {made : β → γ → Prop} {xs : List α} {cs : List γ}
    {ys : List β} (each : ∀ x c y, listed x c → f x = .ok y → made y c) (all : List.Forall₂ listed xs cs)
    (ran : xs.mapM f = .ok ys) : List.Forall₂ made ys cs := by
  induction all generalizing ys with
  | nil =>
    obtain rfl := Except.ok.inj ran
    exact .nil
  | @cons x c xs cs first _ ih =>
    rw [List.mapM_cons] at ran
    cases head : f x with
    | error e =>
      rw [head] at ran
      cases ran
    | ok y =>
      rw [head] at ran
      cases tail : xs.mapM f with
      | error e =>
        rw [tail] at ran
        cases ran
      | ok rest =>
        rw [tail] at ran
        obtain rfl := Except.ok.inj ran
        exact .cons (each x c y first head) (ih tail)

end

inductive Part where
  | geometry (pk : Text)
  | link (pk : Text)
  deriving DecidableEq

/-- What is fixed of an object, and where the flags are in the state of a server. -/
structure ObjectView (σ : Type) where
  links : List Text
  /-- Each with the key of its link. -/
  geometries : List (Text × Text)
  flag : σ → Part → Bool

def Part.field : Part → String
  | geometry _ => "visible"
  | link _ => "collision"

def Part.uri (primaryKey : Text) : Part → Text
  | geometry pk => lit "object/" ++ primaryKey ++ lit "/geometry" ++ lit "/" ++ pk ++ lit "/?format=json"
  | link pk => lit "object/" ++ primaryKey ++ lit "/link" ++ lit "/" ++ pk ++ lit "/?format=json"

/-- What a PUT of the flag says. -/
def SetsFlag (field : String) (v : Bool) (data : Text) : Prop :=
  ∃ members, readJson clientToken data = some (.object members) ∧
    Json.findMember members (lit field) = some (.bool v)

def Lists (name : String) (objects : List Json) (doc : Json) : Prop :=
  ∃ members, doc = .object members ∧ Json.findMember members (lit name) = some (.array objects)

namespace ObjectView

variable {σ : Type} (view : ObjectView σ)

def Has : Part → Prop
  | .geometry pk => ∃ linkpk, (pk, linkpk) ∈ view.geometries
  | .link pk => pk ∈ view.links

def geometriesOf (link : Text) : List Text := (view.geometries.filter (·.2 = link)).map (·.1)

/-- What a list of the links says. -/
def ListsLinks (flag : Part → Bool) (doc : Json) : Prop :=
  ∃ objects, Lists "links" objects doc ∧
    List.Forall₂ (fun it pk => IsPart "collision" pk (flag (.link pk)) it) objects view.links

def ListsGeometries (flag : Part → Bool) (doc : Json) : Prop :=
  ∃ objects, Lists "geometries" objects doc ∧
    List.Forall₂ (fun it (g : Text × Text) => IsPart "visible" g.1 (flag (.geometry g.1)) it ∧
    ∀ members, it = .object members → Json.findMember members (lit "linkpk") = some (.string g.2)) objects
      view.geometries

/-- The server holds the object and its flags. Any call may fail; a PUT may fail after it was
carried out. -/
structure Held (primaryKey : Text) (server : WebServer σ) : Prop where
  links : ∀ s,
    let done := server s
      (client.webCall "GET"
        (lit "object/" ++ primaryKey ++ lit "/link/?format=json&limit=0&fields=links") [])
    view.flag done.2 = view.flag s ∧ ∀ reply, done.1 = some reply → reply.status = 200 →
      ∃ doc, parseJsonStream reply.body = .ok doc ∧ view.ListsLinks (view.flag s) doc
  geometries : ∀ s,
    let done := server s
      (client.webCall "GET"
        (lit "object/" ++ primaryKey ++ lit "/geometry/?format=json&limit=0&fields=geometries") [])
    view.flag done.2 = view.flag s ∧ ∀ reply, done.1 = some reply → reply.status = 200 →
      ∃ doc, parseJsonStream reply.body = .ok doc ∧ view.ListsGeometries (view.flag s) doc
  sets : ∀ s part data v, view.Has part → SetsFlag part.field v data →
    let done := server s (client.webCall "PUT" (part.uri primaryKey) data)
    view.flag done.2 = Function.update (view.flag s) part v ∨
      view.flag done.2 = view.flag s ∧ ∀ reply, done.1 = some reply → reply.status ≠ 202

theorem readGeometries_parts {platform : Platform} {link : LinkResource} {flag : Part → Bool} {objects : List Json}
    {geometries : List (Text × Text)} {read : List GeometryResource}
    (listed : List.Forall₂ (fun it (g : Text × Text) => IsPart "visible" g.1 (flag (.geometry g.1)) it ∧
      ∀ members, it = .object members → Json.findMember members (lit "linkpk") = some (.string g.2)) objects
        geometries)
    (ran : link.readGeometries platform objects = .ok read) :
    List.Forall₂ (fun geometry pk => geometry.pk = pk ∧ geometry.objectpk = link.objectpk ∧
      geometry.visible = flag (.geometry pk)) read
      ((geometries.filter (·.2 = link.pk)).map (·.1)) := by
  induction listed generalizing read with
  | nil =>
    obtain rfl := Except.ok.inj ran
    exact .nil
  | @cons it g objects geometries part _ ih =>
    rw [LinkResource.readGeometries] at ran
    cases first : link.readGeometry platform it with
    | error e =>
      rw [first] at ran
      cases ran
    | ok geometry =>
      rw [first] at ran
      cases later : link.readGeometries platform objects with
      | error e =>
        simp only [bind, Except.bind, later] at ran
        cases ran
      | ok rest =>
        simp only [bind, Except.bind, later] at ran
        obtain rfl := Except.ok.inj ran
        have one := readGeometry_part part.1 part.2 first
        by_cases same : g.2 = link.pk
        · rw [if_pos same] at one
          obtain ⟨geometry, rfl, holds⟩ := one
          rw [List.filter_cons_of_pos (by simpa using same), List.map_cons]
          exact .cons holds (ih later)
        · rw [if_neg same] at one
          subst one
          rw [List.filter_cons_of_neg (by simpa using same)]
          exact ih later

variable {view client} {server : WebServer σ} {primaryKey : Text} (held : view.Held client primaryKey server)
include held

theorem observes_getLinks : Loading.Observes Session.Ready (fun w => view.flag w.server)
    (fun flag links => List.Forall₂ (fun link pk => link.pk = pk ∧ link.objectpk = primaryKey ∧
      link.collision = flag (.link pk)) links view.links)
    (Session.run server (getLinks client primaryKey)) := by
  unfold getLinks
  rw [Session.run_bind]
  have read := Session.observes_callGet client _ ControllerClient.defaultTimeout (.object []) held.links
  refine read.bind fun flag x known => ?_
  rw [Session.run_lift]
  refine Loading.observes_lift fun _ links returned same => ?_
  subst same
  obtain ⟨objects, ⟨members, document, found⟩, listed⟩ := known
  rw [document] at returned
  have member : memberOf (.object members) "links" = .ok (.array objects) := by
    simp only [memberOf, findMemberOf, findMemberNamed, found]
    rfl
  have elements : readLinks client.platform primaryKey (.object members) = objects.mapM
      (readLink client.platform · primaryKey) := by
    simp [readLinks, member, elementsOf, bind, Except.bind]
  cases outcome : readLinks client.platform primaryKey (.object members) <;> rw [outcome] at returned <;>
    cases returned
  rw [elements] at outcome
  refine forall₂_mapM ?_ listed outcome
  intro it pk link part made
  exact readLink_part part made

theorem observes_getGeometries {link : LinkResource} (object : link.objectpk = primaryKey) :
    Loading.Observes Session.Ready (fun w => view.flag w.server)
      (fun flag geometries => List.Forall₂ (fun geometry pk => geometry.pk = pk ∧ geometry.objectpk = primaryKey ∧
        geometry.visible = flag (.geometry pk)) geometries (view.geometriesOf link.pk))
      (Session.run server (link.getGeometries client)) := by
  unfold LinkResource.getGeometries LinkResource.geometriesUri
  rw [Session.run_bind, object]
  have read := Session.observes_callGet client _ ControllerClient.defaultTimeout (.object []) held.geometries
  refine read.bind fun flag x known => ?_
  rw [Session.run_lift]
  refine Loading.observes_lift fun _ geometries returned same => ?_
  subst same
  obtain ⟨objects, ⟨members, document, found⟩, listed⟩ := known
  have given : geometriesOf? x.2 = some objects := by rw [document, geometriesOf?, found]
  rw [given, Option.getD_some] at returned
  cases outcome : link.readGeometries client.platform objects <;> rw [outcome] at returned <;> cases returned
  rw [← object]
  exact readGeometries_parts listed outcome

theorem stages_setJSON {part : Part} (has : view.Has part) {resourcename pk : Text}
    (uri : resourcename ++ lit "/" ++ pk ++ lit "/?format=json" = part.uri primaryKey) (v : Bool) :
    Loading.Stages Session.Ready (fun w => view.flag w.server) v [part] (fun _ => True)
      (Session.run server (WebResource.setJSON client resourcename pk
        (getJsonStringByKey client.platform part.field (.bool v)))) := by
  unfold WebResource.setJSON
  rw [Session.run_bind]
  have data : SetsFlag part.field v (getJsonStringByKey client.platform part.field (.bool v)) :=
    ⟨_, readJson_dumpJson clientToken_reader client.platform _ ⟨trivial, trivial⟩, by simp [Json.findMember]⟩
  apply Loading.Stages.followed
  refine Session.stages_exchange
    (Session.serves_callPut client _ 202 ControllerClient.defaultTimeout _ .json) fun s => ?_
  rw [uri]
  rcases held.sets s part _ v has data with set | ⟨kept, refused⟩
  · exact .inl set
  · refine .inr ⟨kept, fun reply answered => ?_⟩
    cases outcome : replyToPut client.platform (part.uri primaryKey) 202 reply.status reply.body with
    | error e => exact ⟨e, rfl⟩
    | ok x => exact absurd ((replyToPut_eq_ok (by decide)).mp outcome).1 (refused reply answered)

omit held in
theorem has_geometriesOf {pk link : Text} (listed : pk ∈ view.geometriesOf link) : view.Has (.geometry pk) := by
  obtain ⟨g, inside, rfl⟩ := List.mem_map.mp listed
  exact ⟨g.2, (List.mem_filter.mp inside).1⟩

omit held in
/-- A loop whose turns each set the flag of the part they are listed for. -/
theorem stages_turns {α : Type} {xs : List α} {pks : List Text} {related : α → Text → Prop}
    (listed : List.Forall₂ related xs pks)
    (part : Text → List Part) {turn : α → Request Unit} {v : Bool} (each : ∀ x pk, pk ∈ pks → related x pk →
      Loading.Stages Session.Ready (fun w => view.flag w.server) v (part pk) (fun _ => True)
    (Session.run server (turn x))) :
    Loading.Stages Session.Ready (fun w => view.flag w.server) v (pks.flatMap part) (fun _ => True)
    (Session.run server (xs.forM turn)) := by
  rw [Session.run_forM, List.flatMap_def]
  refine Loading.stages_loop ?_
  rw [List.forall₂_map_right_iff]
  exact List.forall₂_iff_get.mpr ⟨listed.length_eq, fun i hx hp => each _ _ (List.get_mem _ _) (listed.get hx hp)⟩

/-- All geometries of the object, link by link. -/
def shown : List Part := view.links.flatMap fun link => (view.geometriesOf link).map .geometry

theorem stages_geometry_setVisible {geometry : GeometryResource} (object : geometry.objectpk = primaryKey)
    (has : view.Has (.geometry geometry.pk)) (v : Bool) :
    Loading.Stages Session.Ready (fun w => view.flag w.server) v [.geometry geometry.pk] (fun _ => True)
      (Session.run server (do let _ ← geometry.setVisible client v)) := by
  subst object
  have uri : lit "object/" ++ geometry.objectpk ++ lit "/geometry" ++ lit "/" ++ geometry.pk ++
      lit "/?format=json" = (Part.geometry geometry.pk).uri geometry.objectpk := rfl
  have set := stages_setJSON held has uri v
  unfold GeometryResource.setVisible
  simp only [Session.run_bind, Session.run_pure]
  rw [Part.field] at set
  apply Loading.Stages.followed
  apply Loading.Stages.followed
  exact set

theorem stages_link_setCollision {link : LinkResource} (object : link.objectpk = primaryKey)
    (has : view.Has (.link link.pk)) (v : Bool) :
    Loading.Stages Session.Ready (fun w => view.flag w.server) v [.link link.pk] (fun _ => True)
      (Session.run server (do let _ ← link.setCollision client v)) := by
  subst object
  have uri : lit "object/" ++ link.objectpk ++ lit "/link" ++ lit "/" ++ link.pk ++ lit "/?format=json" =
    (Part.link link.pk).uri link.objectpk := rfl
  have set := stages_setJSON held has uri v
  unfold LinkResource.setCollision
  simp only [Session.run_bind, Session.run_pure]
  rw [Part.field] at set
  apply Loading.Stages.followed
  apply Loading.Stages.followed
  exact set

theorem stages_link_setVisible {link : LinkResource} (object : link.objectpk = primaryKey) (v : Bool) :
    Loading.Stages Session.Ready (fun w => view.flag w.server) v ((view.geometriesOf link.pk).map .geometry)
    (fun _ => True)
      (Session.run server (link.setVisible client v)) := by
  unfold LinkResource.setVisible
  rw [Session.run_bind, List.map_eq_flatMap]
  have read : Loading.Stages Session.Ready (fun w => view.flag w.server) v [] (fun geometries => List.Forall₂
      (fun (geometry : GeometryResource) pk => geometry.pk = pk ∧ geometry.objectpk = primaryKey) geometries
        (view.geometriesOf link.pk))
      (Session.run server (link.getGeometries client)) := by
    refine Loading.Observes.stages ((observes_getGeometries held object).mono fun _ _ listed => ?_)
    exact listed.imp fun _ _ known => ⟨known.1, known.2.1⟩
  refine read.bind fun geometries listed => stages_turns listed _ fun geometry pk inside known => ?_
  obtain ⟨rfl, object⟩ := known
  exact stages_geometry_setVisible held object (has_geometriesOf inside) v

theorem stages_getLinks (v : Bool) :
    Loading.Stages Session.Ready (fun w => view.flag w.server) v [] (fun links => List.Forall₂
      (fun (link : LinkResource) pk => link.pk = pk ∧ link.objectpk = primaryKey) links view.links)
    (Session.run server (getLinks client primaryKey)) := by
  refine Loading.Observes.stages ((observes_getLinks held).mono fun _ _ listed => ?_)
  exact listed.imp fun _ _ known => ⟨known.1, known.2.1⟩

theorem stages_setVisible (v : Bool) :
    Loading.Stages Session.Ready (fun w => view.flag w.server) v view.shown (fun _ => True)
    (Session.run server (setVisible client primaryKey v)) := by
  unfold setVisible
  rw [Session.run_bind]
  refine (stages_getLinks held v).bind fun links listed => stages_turns listed _ fun link pk inside known => ?_
  obtain ⟨rfl, object⟩ := known
  exact stages_link_setVisible held object v

theorem stages_setCollision (v : Bool) :
    Loading.Stages Session.Ready (fun w => view.flag w.server) v (view.links.map .link) (fun _ => True)
    (Session.run server (setCollision client primaryKey v)) := by
  unfold setCollision
  rw [Session.run_bind, List.map_eq_flatMap]
  refine (stages_getLinks held v).bind fun links listed => stages_turns listed _ fun link pk inside known => ?_
  obtain ⟨rfl, object⟩ := known
  exact stages_link_setCollision held object inside v

omit held in
theorem flags_of_listed {α : Type} {xs : List α} {pks : List Text} {flag : Part → Bool} {part : Text → Part}
    {of : α → Bool} {related : α → Text → Prop} (listed : List.Forall₂ related xs pks)
    (known : ∀ x pk, related x pk → of x = flag (part pk)) :
    xs.map of = (pks.map part).map flag := by
  induction listed with
  | nil => rfl
  | cons first _ ih => rw [List.map_cons, List.map_cons, List.map_cons, known _ _ first, ih]

theorem observes_allGeometries {links : List LinkResource} {pks : List Text}
    (listed : List.Forall₂ (fun (link : LinkResource) pk => link.pk = pk ∧ link.objectpk = primaryKey) links pks) :
    Loading.Observes Session.Ready (fun w => view.flag w.server)
      (fun flag geometries => geometries.map (·.visible) =
        (pks.flatMap fun link => (view.geometriesOf link).map .geometry).map flag)
      (Session.run server (allGeometries client links)) := by
  induction listed with
  | nil => exact Loading.observes_lift fun _ _ same => by rw [← Except.ok.inj same]; rfl
  | @cons link pk links pks first _ ih =>
    obtain ⟨rfl, object⟩ := first
    unfold allGeometries
    simp only [Session.run_bind, Session.run_pure]
    refine (observes_getGeometries held object).bind fun flag geometries known => ?_
    refine ih.bind fun _ rest later => ?_
    refine Loading.observes_lift fun _ result same second first => ?_
    subst second first
    rw [← Except.ok.inj same, List.map_append, List.flatMap_cons, List.map_append, later,
      flags_of_listed known fun _ _ made => made.2.2]

theorem observes_getCollision : Loading.Observes Session.Ready (fun w => view.flag w.server)
    (fun flag code => code = summary ((view.links.map .link).map flag))
    (Session.run server (getCollision client primaryKey)) := by
  rw [getCollision_object]
  simp only [Session.run_bind, Session.run_pure]
  refine (observes_getLinks held).bind fun flag links listed => ?_
  refine Loading.observes_lift fun _ code returned same => ?_
  subst same
  rw [← Except.ok.inj returned, flags_of_listed listed fun _ _ made => made.2.2]

theorem observes_getVisible : Loading.Observes Session.Ready (fun w => view.flag w.server)
    (fun flag code => code = summary (view.shown.map flag))
    (Session.run server (getVisible client primaryKey)) := by
  rw [getVisible_object]
  simp only [Session.run_bind, Session.run_pure]
  refine (observes_getLinks held).bind fun flag links listed => ?_
  refine (observes_allGeometries held (listed.imp fun _ _ known => ⟨known.1, known.2.1⟩)).bind
    fun _ geometries read => ?_
  refine Loading.observes_lift fun _ code returned same first => ?_
  subst same
  rw [← Except.ok.inj returned, read]
  rfl

end ObjectView

inductive Switch where
  | visible
  | collision

namespace Switch

def set (client : ControllerClient) (primaryKey : Text) (v : Bool) : Switch → Request Unit
  | visible => setVisible client primaryKey v
  | collision => setCollision client primaryKey v

def get (client : ControllerClient) (primaryKey : Text) : Switch → Request (BitVec 32)
  | visible => getVisible client primaryKey
  | collision => getCollision client primaryKey

/-- The parts that have the flag, in their order. -/
def parts {σ : Type} (view : ObjectView σ) : Switch → List Part
  | visible => view.shown
  | collision => view.links.map .link

end Switch

section

variable {σ : Type} {view : ObjectView σ} {client : ControllerClient} {primaryKey : Text} {server : WebServer σ}

theorem Switch.observes_get (held : view.Held client primaryKey server) (switch : Switch) :
    Loading.Observes Session.Ready (fun w => view.flag w.server)
      (fun flag code => code = summary ((switch.parts view).map flag))
    (Session.run server (switch.get client primaryKey)) := by
  cases switch with
  | visible => exact ObjectView.observes_getVisible held
  | collision => exact ObjectView.observes_getCollision held

/-- The code that is read of an object summarises the flags that the server holds. -/
theorem switch_summarises (held : view.Held client primaryKey server) {w : Session σ} (ready : w.Ready)
    (switch : Switch)
    {code : BitVec 32} (read : (Session.run server (switch.get client primaryKey) w).1 = .ok code) :
    Summarises ((switch.parts view).map (view.flag w.server)) code := by
  have result := (switch.observes_get held w ready).2.2 code read
  dsimp only at result
  rw [result]
  exact summarises_summary _

/-- So does the code of one of its links for the geometries of the link. -/
theorem link_summarises (held : view.Held client primaryKey server) {w : Session σ} (ready : w.Ready)
    {link : LinkResource} (object : link.objectpk = primaryKey) {code : BitVec 32}
    (read : (Session.run server (link.getVisible client) w).1 = .ok code) :
    Summarises (((view.geometriesOf link.pk).map .geometry).map (view.flag w.server)) code := by
  rw [getVisible_link, Session.run_bind] at read
  have observes := ObjectView.observes_getGeometries held object w ready
  rcases ran : Session.run server (link.getGeometries client) w with ⟨e | geometries, after⟩
  · rw [Loading.bind_error ran] at read
    cases read
  · rw [Loading.bind_ok ran, Session.run_pure] at read
    have listed := observes.2.2 geometries (by rw [ran])
    have flags := ObjectView.flags_of_listed listed fun _ _ made => made.2.2
    obtain rfl := Except.ok.inj read
    rw [← flags]
    exact summarises_summary _

end

theorem summary_replicate (v : Bool) (n : Nat) :
    summary (List.replicate n v) = if n = 0 then -1 else flagCode v := by
  cases n with
  | zero => cases v <;> rfl
  | succ n => cases v <;> simp [summary, occurring, flagCode]

/-- Whatever calls fail: the flags of the first parts are set and no other flag has changed. An
operation that returns has set all of them, and the code that is read afterwards, if it can be read,
is that of the flag. -/
theorem switch_settles {σ : Type} {view : ObjectView σ} {client : ControllerClient} {primaryKey : Text}
    {server : WebServer σ}
    (held : view.Held client primaryKey server) {w : Session σ} (ready : w.Ready) (switch : Switch) (v : Bool) :
    let done := Session.run server (switch.set client primaryKey v) w
    (∃ written, written <+: switch.parts view ∧ view.flag done.2.server = overwritten (view.flag w.server)
      written v) ∧
    (done.1 = .ok () → view.flag done.2.server = overwritten (view.flag w.server) (switch.parts view) v ∧
      ∀ code, (Session.run server (switch.get client primaryKey) done.2).1 = .ok code →
        code = if switch.parts view = [] then -1 else flagCode v) := by
  have stages : Loading.Stages Session.Ready (fun w => view.flag w.server) v (switch.parts view) (fun _ => True)
      (Session.run server (switch.set client primaryKey v)) := by
    cases switch with
    | visible => exact ObjectView.stages_setVisible held v
    | collision => exact ObjectView.stages_setCollision held v
  obtain ⟨left, written, early, changed, returns⟩ := stages w ready
  refine ⟨⟨written, early, changed⟩, fun returned => ?_⟩
  obtain ⟨rfl, -⟩ := returns () returned
  refine ⟨changed, fun code read => ?_⟩
  have result := (switch.observes_get held _ left).2.2 code read
  dsimp only at changed result
  have flags : (switch.parts view).map
      (view.flag (Session.run server (switch.set client primaryKey v) w).2.server) =
      List.replicate (switch.parts view).length v := by
    rw [changed]
    refine List.eq_replicate_iff.mpr ⟨List.length_map _, fun flag inside => ?_⟩
    obtain ⟨part, listed, rfl⟩ := List.mem_map.mp inside
    exact if_pos listed
  rw [flags, summary_replicate] at result
  simpa using result

def lampView : ObjectView (Part → Bool) := ⟨[lit "l"], [(lit "g", lit "l")], id⟩

def lampLink (collision : Bool) : Json :=
  .object [(lit "pk", .string (lit "l")), (lit "collision", .bool collision)]

def lampGeometry (visible : Bool) : Json :=
  .object [(lit "pk", .string (lit "g")), (lit "linkpk", .string (lit "l")), (lit "visible", .bool visible)]

def listOf (name : String) (it : Json) : Json := .object [(lit name, .array [it])]

def flagIn (field : String) (data : Text) : Option Bool :=
  match readJson clientToken data with
  | some (.object members) =>
    match Json.findMember members (lit field) with
    | some (.bool v) => some v
    | _ => none
  | _ => none

def lampServer : WebServer (Part → Bool) := fun flag call =>
  if call.method = lit "GET" then
    if call.url = lit "object/o/link/?format=json&limit=0&fields=links" then
      (some ⟨200, dumpJson default (listOf "links" (lampLink (flag (.link (lit "l")))))⟩, flag)
    else (some ⟨200, dumpJson default (listOf "geometries" (lampGeometry (flag (.geometry (lit "g")))))⟩, flag)
  else
    let part := if call.url = (Part.geometry (lit "g")).uri (lit "o") then .geometry (lit "g") else .link (lit "l")
    match flagIn part.field call.data with
    | some v => (some ⟨202, []⟩, Function.update flag part v)
    | none => (some ⟨400, []⟩, flag)

theorem lampLinks_read (b : Bool) :
    parseJsonStream (dumpJson default (listOf "links" (lampLink b))) = .ok (listOf "links" (lampLink b)) :=
  parseJsonStream_dumpJson default ⟨⟨⟨trivial, trivial, trivial⟩, trivial⟩, trivial⟩

theorem lampGeometries_read (b : Bool) :
    parseJsonStream (dumpJson default (listOf "geometries" (lampGeometry b))) =
      .ok (listOf "geometries" (lampGeometry b)) :=
  parseJsonStream_dumpJson default ⟨⟨⟨trivial, trivial, trivial, trivial⟩, trivial⟩, trivial⟩

theorem flagIn_of_sets {field : String} {v : Bool} {data : Text} (sets : SetsFlag field v data) :
    flagIn field data = some v := by
  obtain ⟨members, read, found⟩ := sets
  simp only [flagIn, read, found]

theorem lampServer_put {uri data : Text} {part : Part} {v : Bool}
    (addressed : (if uri = (Part.geometry (lit "g")).uri (lit "o") then .geometry (lit "g") else
      .link (lit "l")) = part)
    (known : flagIn part.field data = some v) (flag : Part → Bool) :
    lampServer flag ⟨lit "PUT", uri, data⟩ = (some ⟨202, []⟩, Function.update flag part v) := by
  have put : lit "PUT" ≠ lit "GET" := by decide
  unfold lampServer
  dsimp only
  rw [if_neg put, addressed, known]

theorem lamp_sets {part : Part} (has : lampView.Has part) {v : Bool} {data : Text}
    (sets : SetsFlag part.field v data) (flag : Part → Bool) :
    lampServer flag (ControllerClient.webCall default "PUT" (part.uri (lit "o")) data) =
      (some ⟨202, []⟩, Function.update flag part v) := by
  have known := flagIn_of_sets sets
  cases part with
  | geometry pk =>
    obtain ⟨linkpk, inside⟩ := has
    obtain ⟨rfl, -⟩ := Prod.mk.inj (List.mem_singleton.mp inside)
    exact lampServer_put (if_pos rfl) known flag
  | link pk =>
    obtain rfl := List.mem_singleton.mp has
    exact lampServer_put (if_neg (by decide)) known flag

theorem lamp_held : lampView.Held default (lit "o") lampServer := by
  refine ⟨fun s => ?_, fun s => ?_, fun s part data v has sets => ?_⟩
  · refine ⟨rfl, fun reply answered _ => ?_⟩
    obtain rfl := Option.some.inj answered
    refine ⟨_, lampLinks_read _, _, ⟨_, rfl, rfl⟩, .cons ⟨_, rfl, rfl, rfl⟩ .nil⟩
  · refine ⟨rfl, fun reply answered _ => ?_⟩
    obtain rfl := Option.some.inj answered
    refine ⟨_, lampGeometries_read _, _, ⟨_, rfl, rfl⟩, .cons ⟨⟨_, rfl, rfl, rfl⟩, fun members same => ?_⟩ .nil⟩
    rw [← Json.object.inj same]
    rfl
  · rw [lamp_sets has sets]
    exact .inl rfl

def beforeLamp : Session (Part → Bool) := ⟨CurlHandle.constructed fun _ => .null, fun _ => true, ⟨0, []⟩⟩

theorem lamp_settles :
    let done := Session.run lampServer (Switch.visible.set default (lit "o") false) beforeLamp
    (∃ written, written <+: Switch.visible.parts lampView ∧
      lampView.flag done.2.server = overwritten (lampView.flag beforeLamp.server) written false) ∧
    (done.1 = .ok () →
      lampView.flag done.2.server = overwritten (lampView.flag beforeLamp.server)
        (Switch.visible.parts lampView) false ∧
      ∀ code, (Session.run lampServer (Switch.visible.get default (lit "o")) done.2).1 = .ok code →
        code = if Switch.visible.parts lampView = [] then -1 else flagCode false) := by
  have ready : beforeLamp.Ready := CurlHandle.constructed_unset _
  exact switch_settles lamp_held ready .visible false

end ObjectResource

end MujinClient
