import MujinClient.Noninterference
import MujinClient.RoundTrip

/-! Members written and read by key. A key is handed on as a C string, and by key a null member is
read like an absent one. -/
namespace MujinClient

@[simp] theorem findMember_setMember_same : Json.findMember (setMember members name value) name = some value := by
  unfold setMember
  split
  · rename_i present
    exact Json.findMember_assignMember_same present
  · rename_i absent
    rw [Json.findMember_append, Json.findMember_eq_none_iff.mpr absent, Option.none_or, Json.findMember_cons_same]

theorem findMember_setMember_other (apart : other ≠ name) :
    Json.findMember (setMember members name value) other = Json.findMember members other := by
  unfold setMember
  split
  · exact Json.findMember_assignMember_other apart
  · rw [Json.findMember_append, Json.findMember_cons_other (Ne.symm apart), Json.findMember_nil, Option.or_none]

theorem names_setMember (members : Json.Members) (name : Text) (value : Json) :
    Json.names (setMember members name value) =
      if name ∈ Json.names members then Json.names members else Json.names members ++ [name] := by
  unfold setMember
  split
  · exact Json.names_assignMember
  · rw [Json.names_append, Json.names_cons, Json.names_nil]

def lastMember (members : Json.Members) (name : Text) : Option Json := Json.findMember members.reverse name

theorem lastMember_cons (head : Text × Json) (rest : Json.Members) (name : Text) :
    lastMember (head :: rest) name = (lastMember rest name).or (Json.findMember [head] name) := by
  rw [lastMember, List.reverse_cons, Json.findMember_append]
  rfl

theorem lastMember_eq_none_iff : lastMember members name = none ↔ name ∉ Json.names members := by
  rw [lastMember, Json.findMember_eq_none_iff, Json.names, List.map_reverse, List.mem_reverse]
  rfl

/-- Of several writes to one name the last one counts. -/
theorem findMember_setMembers (members added : Json.Members) (name : Text) :
    Json.findMember (setMembers members added) name = (lastMember added name).or
      (Json.findMember members name) := by
  induction added generalizing members with
  | nil => rfl
  | cons head rest ih =>
    have first : Json.findMember (setMember members head.1 head.2) name =
        (Json.findMember [head] name).or (Json.findMember members name) := by
      by_cases same : head.1 = name
      · subst same
        rw [findMember_setMember_same, Json.findMember_cons_same, Option.some_or]
      · rw [findMember_setMember_other (Ne.symm same), Json.findMember_cons_other same, Json.findMember_nil,
          Option.none_or]
    rw [lastMember_cons, Option.or_assoc, ← first]
    exact ih _

theorem names_setMembers (members added : Json.Members) :
    ∃ more, Json.names (setMembers members added) = Json.names members ++ more ∧ more.Nodup ∧
      ∀ name ∈ more, name ∉ Json.names members ∧ name ∈ Json.names added := by
  induction added generalizing members with
  | nil => exact ⟨[], by simp [setMembers], List.nodup_nil, by simp⟩
  | cons head rest ih =>
    obtain ⟨more, shape, distinct, new⟩ := ih (setMember members head.1 head.2)
    have step : setMembers members (head :: rest) = setMembers (setMember members head.1 head.2) rest := rfl
    rw [← step, names_setMember] at shape
    simp only [names_setMember] at new
    by_cases present : head.1 ∈ Json.names members
    · rw [if_pos present] at shape
      simp only [if_pos present] at new
      exact ⟨more, shape, distinct, fun name inside =>
        ⟨(new name inside).1, List.mem_cons_of_mem _ (new name inside).2⟩⟩
    · rw [if_neg present] at shape
      simp only [if_neg present, List.mem_append, List.mem_singleton, not_or] at new
      refine ⟨head.1 :: more, by simpa using shape, ?_, ?_⟩
      · exact List.nodup_cons.mpr ⟨fun inside => (new _ inside).1.2 rfl, distinct⟩
      · intro name inside
        rcases List.mem_cons.mp inside with rfl | later
        · exact ⟨present, List.mem_cons_self⟩
        · exact ⟨(new name later).1.1, List.mem_cons_of_mem _ (new name later).2⟩

/-- `SetJsonValueByKey(v, key, t)`, given what `SaveJsonValue` makes of `t`. -/
def setJsonValueByKey (key : Text) (t : Json) : Loading LoadError Json Unit := fun v =>
  match v with
  | .object members => (.ok (), .object (setMember members (cString key) t))
  | _ => (.error (.message (lit "Cannot set value for non-object.")), v)

def updateMembers : Json.Members → Loading LoadError Json Unit
  | [] => pure ()
  | (name, value) :: rest => do
    setJsonValueByKey name value
    updateMembers rest

def updateJson : Loading LoadError (Json × Json) Unit := fun documents =>
  match documents with
  | (.object _, .object others) =>
    Loading.zoom Prod.fst (fun a documents => (a, documents.2)) (updateMembers others) documents
  | (.object _, b) =>
    (.error (.rejected (lit "json object should be a dict to update another dict: ") b []), documents)
  | (a, _) => (.error (.rejected (lit "json object should be a dict to be updated: ") a []), documents)

/-- The members as the loop hands them on. -/
def cutNames (members : Json.Members) : Json.Members := members.map fun member => (cString member.1, member.2)

theorem updateMembers_object (members others : Json.Members) :
    updateMembers others (.object members) = (.ok (), .object (setMembers members (cutNames others))) := by
  induction others generalizing members with
  | nil => rfl
  | cons head rest ih =>
    have step : setJsonValueByKey head.1 head.2 (.object members) =
        (.ok (), .object (setMember members (cString head.1) head.2)) := rfl
    exact (Loading.bind_ok step).trans (ih _)

theorem updateJson_objects (members others : Json.Members) :
    updateJson (.object members, .object others) =
      (.ok (), .object (setMembers members (cutNames others)), .object others) := by
  simp [updateJson, updateMembers_object]

theorem mem_names_cutNames :
    name ∈ Json.names (cutNames members) ↔ ∃ full ∈ Json.names members, cString full = name := by
  simp [Json.names, cutNames]

theorem lastMember_cutNames (alone : ∀ full ∈ Json.names members, cString full = name → full = name)
    (nulFree : NulFree name) : lastMember (cutNames members) name = lastMember members name := by
  induction members with
  | nil => rfl
  | cons head rest ih =>
    have later := ih fun full inside => alone full (List.mem_cons_of_mem _ inside)
    have first : Json.findMember [(cString head.1, head.2)] name = Json.findMember [head] name := by
      by_cases same : head.1 = name
      · subst same
        rw [cString_of_nulFree _ nulFree]
      · have apart : cString head.1 ≠ name := fun cut => same (alone head.1 List.mem_cons_self cut)
        rw [Json.findMember_cons_other same, Json.findMember_cons_other apart]
    have cut : cutNames (head :: rest) = (cString head.1, head.2) :: cutNames rest := rfl
    rw [cut, lastMember_cons, lastMember_cons, later, first]

/-- One object written over another: every name has the value of the last member of this name in
the other object, or else its old one. Nothing else is named, and the old members keep their order. -/
structure Overrides (a b updated : Json.Members) : Prop where
  value : ∀ name, Json.findMember updated name = (lastMember b name).or (Json.findMember a name)
  named : ∀ name ∈ Json.names updated, name ∈ Json.names a ∨ name ∈ Json.names b
  order : (Json.names updated).filter (· ∈ Json.names a) = Json.names a
  distinct : (Json.names a).Nodup → (Json.names updated).Nodup

theorem setMembers_order (members added : Json.Members) :
    (Json.names (setMembers members added)).filter (· ∈ Json.names members) = Json.names members := by
  obtain ⟨more, shape, -, new⟩ := names_setMembers members added
  have kept : (Json.names members).filter (· ∈ Json.names members) = Json.names members :=
    List.filter_eq_self.mpr fun name inside => by simpa using inside
  have dropped : more.filter (· ∈ Json.names members) = [] :=
    List.filter_eq_nil_iff.mpr fun name inside => by simpa using (new name inside).1
  rw [shape, List.filter_append, kept, dropped, List.append_nil]

theorem setMembers_distinct (added : Json.Members) (distinct : (Json.names members).Nodup) :
    (Json.names (setMembers members added)).Nodup := by
  obtain ⟨more, shape, fresh, new⟩ := names_setMembers members added
  rw [shape]
  exact List.Nodup.append distinct fresh fun name old inside => (new name inside).1 old

/-- The lookups decide it: what is named is what is found. -/
theorem overrides_of_value (a : Json.Members) (added : Json.Members)
    (value : ∀ name, Json.findMember (setMembers a added) name = (lastMember b name).or (Json.findMember a name)) :
    Overrides a b (setMembers a added) where
  value := value
  named := by
    intro name inside
    by_contra neither
    rw [not_or, ← Json.findMember_eq_none_iff, ← lastMember_eq_none_iff] at neither
    have missing : Json.findMember (setMembers a added) name = none := by
      rw [value, neither.1, neither.2, Option.none_or]
    exact Json.findMember_eq_none_iff.mp missing inside
  order := setMembers_order a added
  distinct := setMembers_distinct added

/-- Every name that the cut changes has its value already, and the last value under the name it is
cut to is the right one there. -/
def CutsFit (a b : Json.Members) : Prop :=
  ∀ name ∈ Json.names b, ¬NulFree name →
    Json.findMember a name = lastMember b name ∧
    lastMember (cutNames b) (cString name) = (lastMember b (cString name)).or (Json.findMember a (cString name))

theorem uncut_none (notFree : ¬NulFree name) : lastMember (cutNames members) name = none := by
  rw [lastMember_eq_none_iff, mem_names_cutNames]
  rintro ⟨full, -, rfl⟩
  exact notFree (cString_nulFree full)

theorem value_iff (a b : Json.Members) :
    (∀ name, Json.findMember (setMembers a (cutNames b)) name = (lastMember b name).or (Json.findMember a name)) ↔
      CutsFit a b := by
  simp only [findMember_setMembers]
  constructor
  · intro value name inside notFree
    obtain ⟨last, found⟩ := Option.ne_none_iff_exists'.mp fun none => lastMember_eq_none_iff.mp none inside
    have written : cString name ∈ Json.names (cutNames b) := mem_names_cutNames.mpr ⟨name, inside, rfl⟩
    obtain ⟨other, cut⟩ := Option.ne_none_iff_exists'.mp fun none => lastMember_eq_none_iff.mp none written
    have whole := value name
    have short := value (cString name)
    rw [uncut_none notFree, found, Option.none_or, Option.some_or] at whole
    rw [cut, Option.some_or] at short
    exact ⟨whole.trans found.symm, cut.trans short⟩
  · intro fits name
    by_cases longer : ∃ full ∈ Json.names b, cString full = name ∧ full ≠ name
    · obtain ⟨full, inside, rfl, cut⟩ := longer
      have notFree : ¬NulFree full := fun free => cut (cString_of_nulFree full free).symm
      have written : cString full ∈ Json.names (cutNames b) := mem_names_cutNames.mpr ⟨full, inside, rfl⟩
      obtain ⟨other, last⟩ := Option.ne_none_iff_exists'.mp fun none => lastMember_eq_none_iff.mp none written
      rw [last, Option.some_or, ← last]
      exact (fits full inside notFree).2
    · have alone : ∀ full ∈ Json.names b, cString full = name → full = name := by
        intro full inside cut
        by_contra apart
        exact longer ⟨full, inside, cut, apart⟩
      by_cases free : NulFree name
      · rw [lastMember_cutNames alone free]
      · rw [uncut_none free, Option.none_or]
        by_cases inside : name ∈ Json.names b
        · rw [(fits name inside free).1]
          cases lastMember b name <;> rfl
        · rw [lastMember_eq_none_iff.mpr inside, Option.none_or]

/-- The update writes one object over the other exactly if its cuts of names do no harm. -/
theorem updateJson_overrides_iff (a b : Json.Members) :
    (∃ updated, updateJson (.object a, .object b) = (.ok (), .object updated, .object b) ∧ Overrides a b updated) ↔
      CutsFit a b := by
  rw [← value_iff]
  constructor
  · rintro ⟨updated, ran, overrides⟩
    rw [updateJson_objects] at ran
    obtain rfl : setMembers a (cutNames b) = updated := by simpa using ran
    exact overrides.value
  · intro value
    exact ⟨_, updateJson_objects a b, overrides_of_value a _ value⟩

/-- A long name overwrites the member that its front names. -/
theorem front_overwritten : ¬∀ a b : Json.Members, (Json.names a).Nodup →
    ∃ updated, updateJson (.object a, .object b) = (.ok (), .object updated, .object b) ∧
      Overrides a b updated := by
  intro all
  obtain ⟨updated, ran, overrides⟩ := all [([97], .bool true)] [([97, 0], .null)] (by decide)
  rw [updateJson_objects] at ran
  obtain rfl : setMembers [([97], .bool true)] (cutNames [([97, 0], .null)]) = updated := by simpa using ran
  have value := overrides.value [97]
  revert value
  decide

/-- An optional written under a key and read back from there, over whatever the target held. The
other members are as they were. -/
def Remembers (platform : Platform) (ty : Ty) (v : Json.Members) (key : String) (x y : Option ty.Val) : Prop :=
  ∃ written, setJsonValueByKey (lit key) (saveJsonValue (.optional ty) x) (.object v) = (.ok (), .object written) ∧
    loadJsonValueByKey (loadJsonValue platform (.optional ty)) (.object written) key y = (.ok (), x) ∧
    ∀ other ≠ lit key, Json.findMember written other = Json.findMember v other

theorem loadJsonValueByKey_null {load : Load α} (found : Json.findMember members (lit key) = some .null) :
    loadJsonValueByKey load (.object members) key t = (.ok (), t) := by
  simp [loadJsonValueByKey, found]

theorem loadJsonValueByKey_found (load : Load α) (found : Json.findMember members (lit key) = some value)
    (solid : value.isNull = false) : loadJsonValueByKey load (.object members) key =
      Loading.mapError (LoadError.atKey (lit key)) (load value) := by
  cases value with
  | null => exact absurd solid (by decide)
  | _ => simp [loadJsonValueByKey, found]

theorem loadOptional_solid {load : Load α} (solid : value.isNull = false) :
    loadOptional start load value y = ((fresh start load value).map fun _ => (), match fresh start load value with
      | .ok x => some x
      | .error _ => y) := by
  unfold loadOptional
  rw [if_neg (by simp [solid])]
  cases fresh start load value <;> rfl

/-- An empty optional is written as null, which a load by key skips. -/
theorem remembers_none_iff (platform : Platform) (ty : Ty) (v : Json.Members) (keyFree : NulFree (lit key))
    (y : Option ty.Val) : Remembers platform ty v key none y ↔ y = none := by
  have cut := cString_of_nulFree _ keyFree
  have found : Json.findMember (setMember v (lit key) .null) (lit key) = some .null := findMember_setMember_same
  constructor
  · rintro ⟨written, set, loaded, -⟩
    obtain rfl : setMember v (lit key) .null = written := by
      simpa [setJsonValueByKey, cut, saveJsonValue] using set
    rw [loadJsonValueByKey_null found] at loaded
    exact (Prod.mk.inj loaded).2
  · rintro rfl
    refine ⟨setMember v (lit key) .null, ?_, loadJsonValueByKey_null found, fun other apart => ?_⟩
    · simp [setJsonValueByKey, cut, saveJsonValue]
    · exact findMember_setMember_other apart

/-- A full one comes back if nothing in it is cut. -/
theorem remembers_some_iff (platform : Platform) (ty : Ty) (savable : (Ty.optional ty).Savable) (v : Json.Members)
    (keyFree : NulFree (lit key)) (e : ty.Val) (y : Option ty.Val) (wellFormed : ty.WellFormed e) :
    Remembers platform ty v key (some e) y ↔ ty.NulFree e := by
  have cut := cString_of_nulFree _ keyFree
  have solid := save_not_null ty savable.2 e
  have found : Json.findMember (setMember v (lit key) (saveJsonValue ty e)) (lit key) =
      some (saveJsonValue ty e) :=
    findMember_setMember_same
  have load := loadJsonValueByKey_found (loadJsonValue platform (.optional ty)) found solid
  have boxed : loadJsonValue platform (.optional ty) (saveJsonValue ty e) y = _ := loadOptional_solid solid
  constructor
  · rintro ⟨written, set, loaded, -⟩
    obtain rfl : setMember v (lit key) (saveJsonValue ty e) = written := by
      simpa [setJsonValueByKey, cut, saveJsonValue] using set
    rw [load, Loading.mapError, boxed] at loaded
    cases read : fresh ty.initial (loadJsonValue platform ty) (saveJsonValue ty e) with
    | error thrown => simp [read, Except.map, Except.mapError] at loaded
    | ok x =>
      obtain rfl : x = e := by simpa [read] using (Prod.mk.inj loaded).2
      exact fresh_keeps (keeps_loadJsonValue platform ty _ (save_nulFree ty x)) ty.initial_nulFree read
  · intro free
    have read := fresh_restores (wellFormed_restores platform ty savable.1 e wellFormed free)
    refine ⟨setMember v (lit key) (saveJsonValue ty e), ?_, ?_, fun other apart => ?_⟩
    · simp [setJsonValueByKey, cut, saveJsonValue]
    · rw [load, Loading.mapError, boxed, read]
      rfl
    · exact findMember_setMember_other apart

/-- An optional survives its member exactly if no NUL byte cuts it and, where it is empty, nothing
older was in the target. -/
theorem optional_remembered_iff (platform : Platform) (ty : Ty) (savable : (Ty.optional ty).Savable)
    (v : Json.Members) (key : String) (keyFree : NulFree (lit key)) (x y : Option ty.Val)
    (wellFormed : (Ty.optional ty).WellFormed x) :
    Remembers platform ty v key x y ↔ (Ty.optional ty).NulFree x ∧ (x = none → y = none) := by
  cases x with
  | none => simp [remembers_none_iff platform ty v keyFree y, Ty.NulFree]
  | some e => simp [remembers_some_iff platform ty savable v keyFree e y (wellFormed e rfl), Ty.NulFree]

theorem optional_remembered_iff_bool :
    Remembers default .bool [] "a" (some true) none ↔
      (Ty.optional .bool).NulFree (some true) ∧ (some true = none → (none : Option Bool) = none) :=
  optional_remembered_iff default .bool ⟨trivial, by simp⟩ [] "a" (by decide) (some true) none fun _ _ => trivial

/-- What was set before stays after it has been cleared. -/
theorem cleared_optional_kept :
    ¬∀ (platform : Platform) (ty : Ty), (Ty.optional ty).Savable → ∀ (v : Json.Members) (key : String),
    NulFree (lit key) → ∀ x y :
    Option ty.Val, (Ty.optional ty).WellFormed x → Remembers platform ty v key x y := by
  intro all
  have remembers :=
    all default .bool ⟨trivial, by simp⟩ [] "a" (by decide) none (some true) (by simp [Ty.WellFormed])
  exact absurd ((remembers_none_iff default .bool [] (by decide) (some true)).mp remembers) (by decide)

end MujinClient
