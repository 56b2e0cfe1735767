import MujinClient.Interpreters
import MujinClient.KeyedMembers
import MujinClient.ObjectResources

/-! One geometry looked up by its name, against the list of all geometries of the link. -/
namespace MujinClient

/-- The change is neither seen nor undone. -/
def Loading.Ignores (f : σ → σ) (p : Loading ε σ α) : Prop := ∀ s, p (f s) = ((p s).1, f (p s).2)

theorem Loading.Ignores.bind {p : Loading ε σ α} {q : α → Loading ε σ β} (first : Ignores f p)
    (second : ∀ a, Ignores f (q a)) : Ignores f (p >>= q) := by
  intro s
  rcases ran : p s with ⟨e | a, middle⟩
  · rw [bind_error ran, bind_error (by rw [first, ran])]
  · rw [bind_ok ran, bind_ok (by rw [first, ran])]
    exact second a middle

theorem Loading.ignores_zoom {p : Loading ε τ α} {view : σ → τ} {put : τ → σ → σ}
    (unseen : ∀ s, view (f s) = view s)
    (kept : ∀ x s, put x (f s) = f (put x s)) : Ignores f (zoom view put p) := by
  intro s
  simp only [zoom_apply, unseen, kept]

theorem fresh_ignores {load : Load α} (ignores : Loading.Ignores f (load v)) (start : α) :
    fresh (f start) load v = (fresh start load v).map f := by
  unfold fresh
  rw [ignores]
  rcases load v start with ⟨e | a, x⟩ <;> rfl

theorem fresh_eq {p q : Load α} (same : p v start = q w middle) : fresh start p v = fresh middle q w := by
  unfold fresh
  rw [same]

inductive StringMember where
  | absent
  | null
  | string (s : Text)
  deriving DecidableEq

def StringMember.found : StringMember → Option Json
  | absent => none
  | null => some .null
  | string s => some (.string s)

/-- What a load that skips null makes of it. -/
def StringMember.valueOr : StringMember → Text → Text
  | string s, _ => s
  | _, d => d

section

variable {members : Json.Members} {key : String} {field : StringMember}

theorem loadByKey_member (platform : Platform) (found : Json.findMember members (lit key) = field.found)
    (t : Text) :
    loadJsonValueByKey (loadJsonValue platform .string) (.object members) key t = (.ok (), field.valueOr t) := by
  cases field with
  | absent => exact loadByKey_absent found t
  | null => exact loadJsonValueByKey_null found
  | string s => exact loadByKey_string found t

theorem valueByKey_member (platform : Platform) (found : Json.findMember members (lit key) = field.found) :
    valueByKey platform .string (.object members) key = .ok (field.valueOr []) := by
  rw [valueByKey, fresh, loadByKey_member platform found]
  rfl

theorem loadByKeyOr_member (platform : Platform) (found : Json.findMember members (lit key) = field.found)
    (d t : Text) :
    loadJsonValueByKeyOr (loadJsonValue platform .string)
    (.object members) key d t = (.ok (), field.valueOr d) := by
  cases field with
  | absent | null => simp only [loadJsonValueByKeyOr, found]; rfl
  | string s => simp only [loadJsonValueByKeyOr, found]; rfl

end

namespace ObjectResource

/-- A geometry as a server describes it: its key is a string, and its name and its link are strings,
null or left out. -/
structure GeometryObject where
  members : Json.Members
  pk : Text
  name : StringMember
  linkpk : StringMember
  hasPk : Json.findMember members (lit "pk") = some (.string pk)
  hasName : Json.findMember members (lit "name") = name.found
  hasLinkpk : Json.findMember members (lit "linkpk") = linkpk.found

namespace GeometryObject

variable (link : LinkResource) (platform : Platform) (it : GeometryObject)

def json : Json := .object it.members

/-- The name that the lookup compares: a null name is an empty one. -/
def lookupName : Text :=
  match it.name with
  | .absent => it.pk
  | name => name.valueOr []

/-- The name in the list: a null name is replaced by the key. -/
def listedName : Text := it.name.valueOr it.pk

def attributes : Except LoadError GeometryResource := do
  let geometry ← GeometryResource.create link.objectpk it.pk
  fresh geometry (GeometryResource.load platform) it.json

def readable : Bool := (it.attributes link platform).toBool

def linked : Bool := it.linkpk.valueOr [] = link.pk

end GeometryObject

def GeometryResource.label (name linkpk : Text) (geometry : GeometryResource) : GeometryResource :=
  { geometry with name := name, linkpk := linkpk }

theorem load_ignores (platform : Platform) (it : Json) (name linkpk : Text) :
    Loading.Ignores (GeometryResource.label name linkpk) (GeometryResource.load platform it) := by
  unfold GeometryResource.load
  repeat' refine Loading.Ignores.bind ?_ fun _ => ?_
  all_goals exact Loading.ignores_zoom (fun _ => rfl) fun _ _ => rfl

variable {link : LinkResource} {platform : Platform}

theorem create_bare (created : GeometryResource.create objectpk pk = .ok geometry) :
    geometry.pk = pk ∧ geometry.label [] [] = geometry := by
  unfold GeometryResource.create at created
  split at created
  · contradiction
  · rw [← Except.ok.inj created]
    exact ⟨rfl, rfl⟩

/-- What is loaded last has neither name nor link. -/
theorem attributes_bare {it : GeometryObject} (loaded : it.attributes link platform = .ok geometry) :
    geometry.label [] [] = geometry := by
  unfold GeometryObject.attributes at loaded
  cases created : GeometryResource.create link.objectpk it.pk with
  | error e =>
    rw [created] at loaded
    cases loaded
  | ok start =>
    rw [created] at loaded
    have same := fresh_ignores (load_ignores platform it.json [] []) start
    rw [(create_bare created).2] at same
    change fresh start (GeometryResource.load platform) it.json = .ok geometry at loaded
    rw [loaded] at same
    exact (Except.ok.inj same).symm

theorem fresh_loadNamed (platform : Platform) (it : GeometryObject) (geometry : GeometryResource) (linkpk : Text) :
    fresh { geometry with linkpk := linkpk } (GeometryResource.loadNamed platform · it.pk) it.json =
      (fresh geometry (GeometryResource.load platform) it.json).map
        (GeometryResource.label it.listedName linkpk) := by
  have loaded := loadByKeyOr_member platform it.hasName it.pk geometry.name
  have named : (Loading.zoom (·.name) (fun x s => { s with name := x })
      (loadJsonValueByKeyOr (loadJsonValue platform .string) it.json "name" it.pk) : Loading LoadError
        GeometryResource Unit)
      { geometry with linkpk := linkpk } = (.ok (), geometry.label it.listedName linkpk) := by
    rw [Loading.zoom_apply]
    exact congrArg (fun r : Except LoadError Unit × Text => (r.1, geometry.label r.2 linkpk)) loaded
  rw [← fresh_ignores (load_ignores platform it.json it.listedName linkpk) geometry]
  exact fresh_eq (Loading.bind_ok named)

theorem fresh_loadLinked (platform : Platform) (it : GeometryObject) (geometry : GeometryResource)
    (bare : geometry.linkpk = []) (name : Text) :
    fresh { geometry with name := name } (GeometryResource.loadLinked platform) it.json =
      (fresh geometry (GeometryResource.load platform) it.json).map
        (GeometryResource.label name (it.linkpk.valueOr [])) := by
  have loaded := loadByKey_member platform it.hasLinkpk geometry.linkpk
  have linked : (Loading.zoom (·.linkpk) (fun x s => { s with linkpk := x })
      (loadJsonValueByKey (loadJsonValue platform .string) it.json "linkpk") : Loading LoadError
        GeometryResource Unit)
      { geometry with name := name } = (.ok (), geometry.label name (it.linkpk.valueOr [])) := by
    rw [Loading.zoom_apply]
    rw [← bare]
    exact congrArg (fun r : Except LoadError Unit × Text => (r.1, geometry.label name r.2)) loaded
  rw [← fresh_ignores (load_ignores platform it.json name (it.linkpk.valueOr [])) geometry]
  exact fresh_eq (Loading.bind_ok linked)

theorem readGeometry_json (it : GeometryObject) :
    link.readGeometry platform it.json =
      if it.linked link then (it.attributes link platform).map fun geometry =>
        some (geometry.label it.listedName link.pk)
      else .ok none := by
  have linkpk : valueByKey platform .string it.json "linkpk" = .ok (it.linkpk.valueOr []) :=
    valueByKey_member platform it.hasLinkpk
  have pk : valueByKey platform .string it.json "pk" = .ok it.pk := valueByKey_string it.hasPk
  unfold LinkResource.readGeometry GeometryObject.attributes
  rw [linkpk, pk]
  by_cases linked : it.linkpk.valueOr [] = link.pk
  · cases created : GeometryResource.create link.objectpk it.pk with
    | error e => simp [GeometryObject.linked, linked, created, Except.map, bind, Except.bind]
    | ok geometry =>
      have loaded := fresh_loadNamed platform it geometry link.pk
      rw [← (create_bare created).1] at loaded
      simp only [bind, Except.bind, pure, Except.pure, GeometryObject.linked, linked, created, decide_true,
        if_true, loaded]
      cases fresh geometry (GeometryResource.load platform) it.json <;> rfl
  · simp [GeometryObject.linked, linked, bind, Except.bind, pure, Except.pure]

theorem findGeometry_json (n : Text) (it : GeometryObject) (rest : List Json) :
    link.findGeometry platform n (it.json :: rest) =
      if it.lookupName = n then
        match it.linkpk with
        | .string s =>
          if cString s = link.pk then (it.attributes link platform).map (GeometryResource.label n s)
          else link.findGeometry platform n rest
        | _ => .error .assertion
      else link.findGeometry platform n rest := by
  have pk : valueByKey platform .string it.json "pk" = .ok it.pk := valueByKey_string it.hasPk
  have geomname : LinkResource.geomname platform it.json = .ok it.lookupName := by
    have name : valueByKey platform .string it.json "name" = .ok (it.name.valueOr []) :=
      valueByKey_member platform it.hasName
    have found : findMemberOf it.json "name" = .ok it.name.found := congrArg Except.ok it.hasName
    unfold LinkResource.geomname GeometryObject.lookupName
    rw [found, name, pk]
    cases it.name <;> rfl
  have linkString : LinkResource.linkString it.json = match it.linkpk with
      | .string s => .ok (cString s)
      | _ => .error .assertion := by
    have found : findMemberOf it.json "linkpk" = .ok it.linkpk.found := congrArg Except.ok it.hasLinkpk
    unfold LinkResource.linkString memberOf
    rw [found]
    cases it.linkpk <;> rfl
  rw [LinkResource.findGeometry, geomname, linkString, pk]
  by_cases named : it.lookupName = n
  · cases shape : it.linkpk with
    | absent | null => simp [named, bind, Except.bind]
    | string s =>
      by_cases cut : cString s = link.pk
      · unfold GeometryObject.attributes
        cases created : GeometryResource.create link.objectpk it.pk with
        | error e => simp [named, cut, created, Except.map, bind, Except.bind]
        | ok geometry =>
          have bare := (create_bare created).2
          have loaded := fresh_loadLinked platform it geometry (congrArg GeometryResource.linkpk bare).symm n
          simp only [shape, StringMember.valueOr] at loaded
          simp [named, cut, created, loaded, bind, Except.bind]
      · simp [named, cut, bind, Except.bind]
  · simp [named, bind, Except.bind]

namespace GeometryObject

/-- Where the lookup stops: the name fits, and no other link is named. -/
def stops (link : LinkResource) (n : Text) (it : GeometryObject) : Bool :=
  it.lookupName = n && match it.linkpk with
    | .string s => cString s = link.pk
    | _ => true

/-- What the list shows of a geometry. -/
def shown (link : LinkResource) (platform : Platform) (it : GeometryObject) : Option GeometryResource :=
  if it.linked link then (it.attributes link platform).toOption.map
    (GeometryResource.label it.listedName link.pk) else none

/-- The entry that the list shows first under this name, if it can be made. -/
def firstListed (link : LinkResource) (platform : Platform) (n : Text) (entries : List GeometryObject) :
    Option GeometryObject :=
  if entries.all fun it => !it.linked link || it.readable link platform then
    entries.find? fun it => it.linked link && it.listedName = n
  else none

end GeometryObject

theorem findGeometry_objects (n : Text) (entries : List GeometryObject) :
    (link.findGeometry platform n (entries.map GeometryObject.json)).toOption =
      (entries.find? (GeometryObject.stops link n)).bind fun it =>
        match it.linkpk with
        | .string s => (it.attributes link platform).toOption.map (GeometryResource.label n s)
        | _ => none := by
  induction entries with
  | nil => rfl
  | cons it rest ih =>
    rw [List.map_cons, findGeometry_json, List.find?_cons]
    by_cases named : it.lookupName = n
    · cases shape : it.linkpk with
      | absent | null => simp [named, shape, GeometryObject.stops, Except.toOption]
      | string s =>
        by_cases cut : cString s = link.pk
        · simp only [named, shape, cut, GeometryObject.stops, if_true, decide_true, Bool.true_and,
            Option.bind_some]
          cases it.attributes link platform <;> rfl
        · simp [named, shape, cut, GeometryObject.stops, ih]
    · simp [named, GeometryObject.stops, ih]

theorem readGeometries_objects (entries : List GeometryObject) :
    (link.readGeometries platform (entries.map GeometryObject.json)).toOption =
      if entries.all fun it => !it.linked link || it.readable link platform then
        some (entries.filterMap (GeometryObject.shown link platform))
      else none := by
  induction entries with
  | nil => rfl
  | cons it rest ih =>
    rw [List.map_cons, LinkResource.readGeometries, readGeometry_json, List.all_cons, List.filterMap_cons]
    by_cases linked : it.linked link = true
    · cases loaded : it.attributes link platform with
      | error e =>
        simp [linked, loaded, GeometryObject.readable, Except.toBool, Except.map, bind, Except.bind,
          Except.toOption]
      | ok geometry =>
        have readable : it.readable link platform = true := by
          simp [GeometryObject.readable, loaded, Except.toBool]
        have shown : it.shown link platform = some (geometry.label it.listedName link.pk) := by
          simp [GeometryObject.shown, linked, loaded, Except.toOption]
        simp only [linked, readable, shown, if_true, Bool.or_true, Bool.true_and]
        generalize (rest.all fun it => !it.linked link || it.readable link platform) = all at ih ⊢
        cases read : link.readGeometries platform (rest.map GeometryObject.json) with
        | error e =>
          rw [read] at ih
          cases all with
          | false => rfl
          | true => cases ih
        | ok geometries =>
          rw [read] at ih
          cases all with
          | false => cases ih
          | true => exact congrArg some (congrArg (List.cons _) (Option.some.inj ih))
    · have other : it.shown link platform = none := if_neg linked
      simp only [linked, other, Bool.not_false, Bool.true_or, Bool.true_and, Bool.false_eq_true, if_false,
        bind, Except.bind]
      rw [← ih]
      cases link.readGeometries platform (rest.map GeometryObject.json) <;> rfl

theorem find_readGeometries (n : Text) (entries : List GeometryObject) :
    ((link.readGeometries platform (entries.map GeometryObject.json)).toOption.bind fun geometries =>
      geometries.find? fun geometry => geometry.name = n) =
      (GeometryObject.firstListed link platform n entries).bind (GeometryObject.shown link platform) := by
  rw [readGeometries_objects, GeometryObject.firstListed]
  split
  · rename_i readable
    rw [Option.bind_some, List.find?_filterMap]
    congr 1
    refine List.find?_congr fun it inside => ?_
    have here := List.all_eq_true.mp readable it inside
    by_cases linked : it.linked link = true
    · simp only [linked, Bool.not_true, Bool.false_or, GeometryObject.readable] at here
      cases loaded : it.attributes link platform with
      | error e => simp [loaded, Except.toBool] at here
      | ok geometry => simp [GeometryObject.shown, linked, loaded, Except.toOption, GeometryResource.label]
    · simp [GeometryObject.shown, linked]
  · rfl

/-- The lookup stops at nothing that can be returned while the list shows nothing, or else at a
geometry that is the same as the first one the list shows. -/
def Coincide (link : LinkResource) (platform : Platform) (n : Text) (entries : List GeometryObject) : Prop :=
  match entries.find? (GeometryObject.stops link n), GeometryObject.firstListed link platform n entries with
  | none, none => True
  | none, some _ => False
  | some stop, none => (∀ s, stop.linkpk ≠ .string s) ∨ stop.readable link platform = false
  | some stop, some first =>
    stop.linkpk = .string link.pk ∧ stop.attributes link platform = first.attributes link platform

theorem label_inj {first second : GeometryResource} (bare : first.label [] [] = first)
    (alsoBare : second.label [] [] = second) :
    first.label name linkpk = second.label other owner ↔ name = other ∧ linkpk = owner ∧ first = second := by
  constructor
  · intro same
    have names := congrArg GeometryResource.name same
    have links := congrArg GeometryResource.linkpk same
    have stripped := congrArg (GeometryResource.label [] []) same
    change first.label [] [] = second.label [] [] at stripped
    rw [bare, alsoBare] at stripped
    exact ⟨names, links, stripped⟩
  · rintro ⟨rfl, rfl, rfl⟩
    rfl

theorem firstListed_eq_some (found : GeometryObject.firstListed link platform n entries = some it) :
    it.linked link = true ∧ it.listedName = n ∧ ∃ geometry, it.attributes link platform = .ok geometry := by
  unfold GeometryObject.firstListed at found
  split at found
  · rename_i readable
    have here := List.find?_some found
    simp only [Bool.and_eq_true, decide_eq_true_eq] at here
    have loads := List.all_eq_true.mp readable it (List.mem_of_find?_eq_some found)
    simp only [here.1, Bool.not_true, Bool.false_or, GeometryObject.readable] at loads
    refine ⟨here.1, here.2, ?_⟩
    cases loaded : it.attributes link platform with
    | error e => simp [loaded, Except.toBool] at loads
    | ok geometry => exact ⟨geometry, rfl⟩
  · cases found

/-- The lookup and the list come to the same exactly if the two searches coincide. -/
theorem coincide_iff (link : LinkResource) (platform : Platform) (n : Text) (entries : List GeometryObject) :
    ((entries.find? (GeometryObject.stops link n)).bind fun it =>
        match it.linkpk with
        | .string s => (it.attributes link platform).toOption.map (GeometryResource.label n s)
        | _ => none) =
        (GeometryObject.firstListed link platform n entries).bind (GeometryObject.shown link platform) ↔
      Coincide link platform n entries := by
  rw [Coincide]
  cases stopped : entries.find? (GeometryObject.stops link n) with
  | none =>
    cases found : GeometryObject.firstListed link platform n entries with
    | none => simp
    | some first =>
      obtain ⟨linked, -, geometry, loaded⟩ := firstListed_eq_some found
      simp [GeometryObject.shown, linked, loaded, Except.toOption]
  | some stop =>
    cases found : GeometryObject.firstListed link platform n entries with
    | none =>
      cases shape : stop.linkpk with
      | absent | null => simp [shape]
      | string s =>
        cases loaded : stop.attributes link platform <;>
          simp [shape, loaded, GeometryObject.readable, Except.toOption, Except.toBool]
    | some first =>
      obtain ⟨linked, named, geometry, loaded⟩ := firstListed_eq_some found
      cases shape : stop.linkpk with
      | absent | null => simp [shape, GeometryObject.shown, linked, loaded, Except.toOption]
      | string s =>
        cases also : stop.attributes link platform with
        | error e => simp [shape, also, GeometryObject.shown, linked, loaded, Except.toOption]
        | ok stopped =>
          have same : stopped.label n s = geometry.label n link.pk ↔ _ :=
            label_inj (attributes_bare also) (attributes_bare loaded)
          simp [shape, also, GeometryObject.shown, linked, loaded, Except.toOption, same, named]

/-- The lookup agrees with the list exactly if the two searches coincide. -/
theorem findGeometry_listed_iff (link : LinkResource) (platform : Platform) (n : Text)
    (entries : List GeometryObject) :
    (link.findGeometry platform n (entries.map GeometryObject.json)).toOption =
        ((link.readGeometries platform (entries.map GeometryObject.json)).toOption.bind fun geometries =>
          geometries.find? fun geometry => geometry.name = n) ↔
      Coincide link platform n entries := by
  rw [findGeometry_objects, find_readGeometries]
  exact coincide_iff link platform n entries

/-- They do so in an ordinary reply: no name is null, every geometry names its link, and those of
this link can be made. -/
theorem coincide_ordinary (link : LinkResource) (platform : Platform) (n : Text) (entries : List GeometryObject)
    (named : ∀ it ∈ entries, it.name ≠ .null) (linked : ∀ it ∈ entries, ∃ s, it.linkpk = .string s ∧ NulFree s)
    (readable : ∀ it ∈ entries, it.linked link = true → it.readable link platform = true) :
    Coincide link platform n entries := by
  have alike : entries.find? (fun it => it.linked link && it.listedName = n) = entries.find?
      (GeometryObject.stops link n) := by
    refine List.find?_congr fun it inside => ?_
    obtain ⟨s, owner, nulFree⟩ := linked it inside
    have name : it.lookupName = it.listedName := by
      unfold GeometryObject.lookupName GeometryObject.listedName
      cases shape : it.name with
      | absent | string t => rfl
      | null => exact absurd shape (named it inside)
    simp [GeometryObject.stops, GeometryObject.linked, owner, StringMember.valueOr,
      cString_of_nulFree s nulFree, name,
      Bool.and_comm]
  have all : (entries.all fun it => !it.linked link || it.readable link platform) = true := by
    refine List.all_eq_true.mpr fun it inside => ?_
    by_cases here : it.linked link = true
    · rw [readable it inside here, Bool.or_true]
    · simp [here]
  rw [Coincide, GeometryObject.firstListed, if_pos all, alike]
  cases found : entries.find? (GeometryObject.stops link n) with
  | none => trivial
  | some stop =>
    obtain ⟨s, owner, nulFree⟩ := linked stop (List.mem_of_find?_eq_some found)
    have stops := List.find?_some found
    simp only [GeometryObject.stops, owner, cString_of_nulFree s nulFree, Bool.and_eq_true,
      decide_eq_true_eq] at stops
    exact ⟨owner.trans (congrArg StringMember.string stops.2), rfl⟩

theorem toOption_mapError (r : Except ε α) (f : ε → ε') : (r.mapError f).toOption = r.toOption := by
  cases r <;> rfl

/-- The whole of `GetGeometryFromName` against the whole of `GetGeometries`, where both are answered alike
and the reply lists these geometries. -/
theorem getGeometryFromName_listed_iff {W : Type} {E : Environment ClientAction.Answer W} {w after : W}
    {code : Int} {pt : Json} {client : ControllerClient} {entries : List GeometryObject}
    (replied : (client.callGet link.geometriesUri (.object []) 200 ControllerClient.defaultTimeout).play E
      w = (.ok (code, pt), after))
    (listed : geometriesOf? pt = some (entries.map GeometryObject.json)) (n : Text) :
    ((link.getGeometryFromName client n).play E w).1.toOption =
        (((link.getGeometries client).play E w).1.toOption.bind fun geometries =>
          geometries.find? fun geometry => geometry.name = n) ↔
      Coincide link client.platform n entries := by
  unfold LinkResource.getGeometryFromName LinkResource.getGeometries
  rw [Program.play_bind, Program.play_bind, Loading.bind_ok replied, Loading.bind_ok replied]
  simp only [listed, Option.getD_some, Program.play_lift, Loading.lift_apply, toOption_mapError]
  rw [findGeometry_objects, find_readGeometries]
  exact coincide_iff link client.platform n entries

/-- A link, and a geometry of it whose name is null. -/
def unnamedLink : LinkResource :=
  ⟨[], [], [108], [111], [], Transform.initial.quaternion, Transform.initial.translate, true⟩

def unnamedGeometry : GeometryObject where
  members := [(lit "pk", .string [103]), (lit "name", .null), (lit "linkpk", .string [108])]
  pk := [103]
  name := .null
  linkpk := .string [108]
  hasPk := by decide
  hasName := by decide
  hasLinkpk := by decide

/-- It is listed under its key but not found under it. -/
theorem null_name_missed :
    ¬∀ (link : LinkResource) (platform : Platform) (n : Text) (entries : List GeometryObject),
    (link.findGeometry platform n (entries.map GeometryObject.json)).toOption =
      (link.readGeometries platform (entries.map GeometryObject.json)).toOption.bind fun geometries =>
        geometries.find? fun geometry => geometry.name = n := by
  intro all
  have agrees := all unnamedLink default [103] [unnamedGeometry]
  have missed : [unnamedGeometry].find? (GeometryObject.stops unnamedLink [103]) = none := by decide
  have readable : unnamedGeometry.readable unnamedLink default = true := rfl
  have listed : GeometryObject.firstListed unnamedLink default [103] [unnamedGeometry] = some unnamedGeometry := by
    simp only [GeometryObject.firstListed, List.all_cons, List.all_nil, readable, Bool.or_true,
      Bool.and_true, if_true]
    rfl
  have shown : (unnamedGeometry.shown unnamedLink default).isSome = true := rfl
  rw [findGeometry_objects, find_readGeometries, missed, listed, Option.bind_none, Option.bind_some] at agrees
  rw [← agrees] at shown
  cases shown

end ObjectResource

end MujinClient
