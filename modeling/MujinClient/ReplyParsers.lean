import MujinClient.Accumulation
import MujinClient.JobStatus
import MujinClient.JsonWriter
import MujinClient.TargetIndependence
import MujinClient.TaskState

/-! Results that are filled from the reply to a command, by callers that may use one object for many
replies. -/
namespace MujinClient

open Loading

/-- `v[key]` -/
def memberOf (v : Json) (key : String) : Except LoadError Json := do
  match ← findMemberOf v key with
  | some member => pure member
  | none => .error .assertion

/-- From `MemberBegin` to `MemberEnd`. -/
def membersOf : Json → Except LoadError Json.Members
  | .object members => .ok members
  | _ => .error .assertion

/-- From `Begin` to `End`. -/
def elementsOf : Json → Except LoadError (List Json)
  | .array js => .ok js
  | _ => .error .assertion

def getDouble (v : Json) : Except LoadError Double :=
  match v.getDouble? with
  | some d => .ok d
  | none => .error .assertion

def getInt64 (v : Json) : Except LoadError Int := if v.isInt64 then .ok (getInteger v) else .error .assertion

/-- What a member that may be absent or null is loaded as. -/
def optionalByKey (platform : Platform) (ty : Ty) (v : Json) (key : String) : Except LoadError (Option ty.Val) :=
  match v with
  | .object members =>
    match Json.findMember members (lit key) with
    | none | some .null => .ok none
    | some member =>
      ((fresh ty.initial (loadJsonValue platform ty) member).mapError (LoadError.atKey (lit key))).map some
  | _ => .error (.message (lit "Cannot load value of non-object."))

/-- A type that is loaded without regard to what was there puts the member in place of the target. -/
theorem performs_loadByKey (platform : Platform) (ty : Ty) (sheltered : ∀ v, ty.exposed v = false)
    (v : Json) (key : String) :
    Performs (loadJsonValueByKey (loadJsonValue platform ty) v key)
    (optionalByKey platform ty v key) fun o s => o.getD s := by
  intro s s' ran
  unfold loadJsonValueByKey at ran
  unfold optionalByKey
  cases v with
  | object members =>
    dsimp only at ran ⊢
    cases found : Json.findMember members (lit key) with
    | none =>
      rw [found] at ran
      exact ⟨none, rfl, (Prod.mk.inj ran).2.symm⟩
    | some member =>
      have loaded : Performs (loadJsonValue platform ty member)
          (fresh ty.initial (loadJsonValue platform ty) member) fun x _ => x := by
        intro t t' returned
        rcases agree_loadJsonValue platform ty member (sheltered member) t ty.initial trivial with
          ⟨_, x, y, left, right, rfl⟩ | ⟨e, _, x, y, left, -⟩
        · refine ⟨x, ?_, (Prod.mk.inj (returned.symm.trans left)).2⟩
          rw [fresh, right]
        · cases returned.symm.trans left
      have inner : mapError (LoadError.atKey (lit key)) (loadJsonValue platform ty member) s = (.ok (), s') →
          loadJsonValue platform ty member s = (.ok (), s') := by
        unfold mapError
        rcases loadJsonValue platform ty member s with ⟨e | a, t⟩ <;> simp [Except.mapError]
      rw [found] at ran
      cases member with
      | null => exact ⟨none, rfl, (Prod.mk.inj ran).2.symm⟩
      | _ =>
        obtain ⟨x, read, same⟩ := loaded s s' (inner ran)
        exact ⟨some x, by simp only [read]; rfl, same⟩
  | _ => cases ran

structure ResultGetPickedPositions where
  transforms : List Transform
  timestamps : List UInt64

namespace ResultGetPickedPositions

def positionTransform (q0 q1 q2 q3 t0 t1 t2 : Json) : Except LoadError Transform := do
  let q0 ← getDouble q0
  let q1 ← getDouble q1
  let q2 ← getDouble q2
  let q3 ← getDouble q3
  let t0 ← getDouble t0
  let t1 ← getDouble t1
  let t2 ← getDouble t2
  return ⟨⟨[q0, q1, q2, q3], rfl⟩, ⟨[t0, t1, t2], rfl⟩⟩

/-- Arrays of fewer than eight elements are skipped. -/
def parsePosition : Json → Loading LoadError ResultGetPickedPositions Unit
  | .array (q0 :: q1 :: q2 :: q3 :: t0 :: t1 :: t2 :: stamp :: _) => do
    assign (fun transform s => { s with transforms := s.transforms ++ [transform] })
      (positionTransform q0 q1 q2 q3 t0 t1 t2)
    assign (fun timestamp s => { s with timestamps := s.timestamps ++ [uint64Of timestamp] }) (getInt64 stamp)
  | _ => pure ()

def parseMember (member : Text × Json) : Loading LoadError ResultGetPickedPositions Unit :=
  match member.2 with
  | .array js => if cString member.1 = lit "positions" then forEach parsePosition js else pure ()
  | _ => pure ()

def parse (pt : Json) : Loading LoadError ResultGetPickedPositions Unit :=
  lift (memberOf pt "output" >>= membersOf) >>= fun members => forEach parseMember members

def readPosition : Json → Except LoadError (List (Transform × UInt64))
  | .array (q0 :: q1 :: q2 :: q3 :: t0 :: t1 :: t2 :: stamp :: _) => do
    let transform ← positionTransform q0 q1 q2 q3 t0 t1 t2
    let timestamp ← getInt64 stamp
    return [(transform, uint64Of timestamp)]
  | _ => .ok []

def readMember (member : Text × Json) : Except LoadError (List (Transform × UInt64)) :=
  match member.2 with
  | .array js => if cString member.1 = lit "positions" then (js.mapM readPosition).map List.flatten else .ok []
  | _ => .ok []

def listed (pt : Json) : Except LoadError (List (Transform × UInt64)) := do
  let members ← memberOf pt "output" >>= membersOf
  let positions ← members.mapM readMember
  return positions.flatten

def append (positions : List (Transform × UInt64)) (s : ResultGetPickedPositions) : ResultGetPickedPositions :=
  ⟨s.transforms ++ positions.map Prod.fst, s.timestamps ++ positions.map Prod.snd⟩

theorem foldl_append (positions : List (List (Transform × UInt64))) (s : ResultGetPickedPositions) :
    positions.foldl (fun s p => append p s) s = append positions.flatten s := by
  induction positions generalizing s with
  | nil => simp [append]
  | cons p positions ih =>
    rw [List.foldl_cons, ih]
    simp [append]

theorem performs_parsePosition (j : Json) : Performs (parsePosition j) (readPosition j) append := by
  intro s s' ran
  unfold parsePosition at ran
  unfold readPosition
  split at ran
  · obtain ⟨_, middle, first, second⟩ := bind_eq_ok ran
    obtain ⟨transform, read, rfl⟩ := performs_assign _ _ _ _ first
    obtain ⟨timestamp, stamped, rfl⟩ := performs_assign _ _ _ _ second
    exact ⟨[(transform, uint64Of timestamp)], by rw [read, stamped]; rfl, rfl⟩
  · obtain rfl := (Prod.mk.inj ran).2
    exact ⟨[], rfl, by simp [append]⟩

theorem performs_parseMember (member : Text × Json) :
    Performs (parseMember member) (readMember member) append := by
  intro s s' ran
  obtain ⟨name, v⟩ := member
  cases v with
  | array js =>
    by_cases named : cString name = lit "positions"
    · have body : parseMember (name, .array js) = forEach parsePosition js := if_pos named
      have shown : readMember (name, .array js) = (js.mapM readPosition).map List.flatten := if_pos named
      rw [body] at ran
      obtain ⟨positions, read, rfl⟩ := performs_forEach performs_parsePosition js s s' ran
      exact ⟨positions.flatten, by rw [shown, read]; rfl, foldl_append positions s⟩
    · have body : parseMember (name, .array js) = pure () := if_neg named
      have shown : readMember (name, .array js) = .ok [] := if_neg named
      rw [body] at ran
      obtain rfl := (Prod.mk.inj ran).2
      exact ⟨[], shown, by simp [append]⟩
  | _ =>
    obtain rfl := (Prod.mk.inj ran).2
    exact ⟨[], rfl, by simp [append]⟩

/-- The positions that are listed are put behind those that were there. -/
theorem performs_parse (pt : Json) : Performs (parse pt) (listed pt) append := by
  intro s s' ran
  obtain ⟨members, found, ran⟩ := lift_bind_eq_ok ran
  obtain ⟨positions, read, rfl⟩ := performs_forEach performs_parseMember members s s' ran
  exact ⟨positions.flatten, by rw [listed, found]; simp only [read, bind, Except.bind]; rfl,
    foldl_append positions s⟩

/-- The result holds exactly what the reply lists. -/
def Exact (pt : Json) (s : ResultGetPickedPositions) : Prop :=
  ∃ positions, listed pt = .ok positions ∧ s.transforms = positions.map Prod.fst ∧
    s.timestamps = positions.map Prod.snd

theorem exact_iff (ran : parse pt s = (.ok (), s')) : Exact pt s' ↔ s.transforms = [] ∧ s.timestamps = [] := by
  obtain ⟨positions, read, rfl⟩ := performs_parse pt s s' ran
  simp [Exact, read, append]

theorem Exact.unique (first : Exact pt s) (second : Exact pt t) : s = t := by
  obtain ⟨positions, listed, transforms, timestamps⟩ := first
  obtain ⟨others, again, same, alike⟩ := second
  obtain rfl := Except.ok.inj (listed.symm.trans again)
  cases s
  cases t
  simp_all

end ResultGetPickedPositions

structure ResultComputeIKFromParameters where
  dofvalues : List (List Double)
  extra : List Text

namespace ResultComputeIKFromParameters

variable (platform : Platform)

def parseSolution (it : Json) : Loading LoadError ResultComputeIKFromParameters Unit :=
  lift (valueByKey platform (.vector .double) it "dofvalues") >>= fun dofvalues_ =>
  lift ((memberOf it "extra").map (dumpJson platform)) >>= fun extra_ =>
  update fun s => ⟨s.dofvalues ++ [dofvalues_], s.extra ++ [extra_]⟩

def parse (pt : Json) : Loading LoadError ResultComputeIKFromParameters Unit :=
  lift (memberOf pt "output" >>= fun v_ => memberOf v_ "solutions" >>= elementsOf) >>= fun v =>
    forEach (parseSolution platform) v

def readSolution (it : Json) : Except LoadError (List Double × Text) := do
  let dofvalues_ ← valueByKey platform (.vector .double) it "dofvalues"
  let extra_ ← (memberOf it "extra").map (dumpJson platform)
  return (dofvalues_, extra_)

def listed (pt : Json) : Except LoadError (List (List Double × Text)) := do
  let v ← memberOf pt "output" >>= fun v_ => memberOf v_ "solutions" >>= elementsOf
  v.mapM (readSolution platform)

def Exact (pt : Json) (s : ResultComputeIKFromParameters) : Prop :=
  ∃ solutions, listed platform pt = .ok solutions ∧ s.dofvalues = solutions.map Prod.fst ∧
    s.extra = solutions.map Prod.snd

variable {platform}

def append (solution : List Double × Text) (s : ResultComputeIKFromParameters) : ResultComputeIKFromParameters :=
  ⟨s.dofvalues ++ [solution.1], s.extra ++ [solution.2]⟩

theorem foldl_append (solutions : List (List Double × Text)) (s : ResultComputeIKFromParameters) :
    solutions.foldl (fun s p => append p s) s =
      ⟨s.dofvalues ++ solutions.map Prod.fst, s.extra ++ solutions.map Prod.snd⟩ := by
  induction solutions generalizing s with
  | nil => simp
  | cons p solutions ih =>
    rw [List.foldl_cons, ih]
    simp [append]

theorem performs_parseSolution (it : Json) :
    Performs (parseSolution platform it) (readSolution platform it) append := by
  intro s s' ran
  obtain ⟨dofvalues_, loaded, ran⟩ := lift_bind_eq_ok ran
  obtain ⟨extra_, dumped, ran⟩ := lift_bind_eq_ok ran
  exact ⟨(dofvalues_, extra_), by rw [readSolution, loaded, dumped]; rfl, (Prod.mk.inj ran).2.symm⟩

theorem exact_iff (ran : parse platform pt s = (.ok (), s')) :
    Exact platform pt s' ↔ s.dofvalues = [] ∧ s.extra = [] := by
  obtain ⟨v, found, ran⟩ := lift_bind_eq_ok ran
  obtain ⟨solutions, read, rfl⟩ := performs_forEach performs_parseSolution v s s' ran
  have shown : listed platform pt = .ok solutions := by
    rw [listed, found]
    exact read
  simp [Exact, shown, foldl_append]

theorem Exact.unique (first : Exact platform pt s) (second : Exact platform pt t) : s = t := by
  obtain ⟨solutions, listed, dofvalues, extra⟩ := first
  obtain ⟨others, again, same, alike⟩ := second
  obtain rfl := Except.ok.inj (listed.symm.trans again)
  cases s
  cases t
  simp_all

end ResultComputeIKFromParameters

def loadTransform (platform : Platform) (key : String) : Load Transform := fun v => do
  zoom (·.translate) (fun x s => { s with translate := x })
    (loadJsonValueByKey (loadJsonValue platform (.array .double 3)) v key)
  zoom (·.quaternion) (fun x s => { s with quaternion := x })
    (loadJsonValueByKey (loadJsonValue platform (.array .double 4)) v "quaternion")

def readTransform (platform : Platform) (key : String) (v : Json) : Except LoadError Transform :=
  fresh .initial (loadTransform platform key) v

structure ResultGetJointValues where
  robottype : Text
  jointnames : List Text
  currentjointvalues : List Double
  tools : SortedMap Text Transform

namespace ResultGetJointValues

variable (platform : Platform)

/-- `tools[it->name.GetString()] = transform`, the name up to a zero byte. -/
def parseTool (it : Text × Json) : Loading LoadError ResultGetJointValues Unit :=
  assign (fun transform s => { s with tools := s.tools.insert (cString it.1) transform })
    (readTransform platform "translate" it.2)

def parseTools (v : Json) : Loading LoadError ResultGetJointValues Unit :=
  lift (findMemberOf v "tools") >>= fun toolsjson =>
  match toolsjson with
  | some toolsjson => lift (membersOf toolsjson) >>= fun members => forEach (parseTool platform) members
  | none => pure ()

def parse (pt : Json) : Loading LoadError ResultGetJointValues Unit :=
  lift (memberOf pt "output") >>= fun v => do
    zoom (·.robottype) (fun x s => { s with robottype := x })
      (loadJsonValueByKey (loadJsonValue platform .string) v "robottype")
    zoom (·.jointnames) (fun x s => { s with jointnames := x })
      (loadJsonValueByKey (loadJsonValue platform (.vector .string)) v "jointnames")
    zoom (·.currentjointvalues) (fun x s => { s with currentjointvalues := x })
      (loadJsonValueByKey (loadJsonValue platform (.vector .double)) v "currentjointvalues")
    update fun s => { s with tools := .empty }
    parseTools platform v

/-- What a reply lists. A list that is absent or null is none. -/
structure Listed where
  jointnames : Option (List Text)
  currentjointvalues : Option (List Double)
  tools : List (Text × Transform)

def readTools (v : Json) : Except LoadError (List (Text × Transform)) := do
  match ← findMemberOf v "tools" with
  | some toolsjson => do
    let members ← membersOf toolsjson
    members.mapM fun it => (readTransform platform "translate" it.2).map fun transform => (cString it.1, transform)
  | none => return []

def listed (pt : Json) : Except LoadError Listed := do
  let v ← memberOf pt "output"
  let jointnames ← optionalByKey platform (.vector .string) v "jointnames"
  let currentjointvalues ← optionalByKey platform (.vector .double) v "currentjointvalues"
  let tools ← readTools platform v
  return ⟨jointnames, currentjointvalues, tools⟩

def Exact (pt : Json) (s : ResultGetJointValues) : Prop :=
  ∃ l, listed platform pt = .ok l ∧ s.jointnames = l.jointnames.getD [] ∧
    s.currentjointvalues = l.currentjointvalues.getD [] ∧
    s.tools.HoldsListed (l.tools.map fun tool => (tool.1, some tool.2))

/-- A list that the reply leaves out was empty before. -/
def Clean (pt : Json) (s : ResultGetJointValues) : Prop :=
  ∃ l, listed platform pt = .ok l ∧ (l.jointnames = none → s.jointnames = []) ∧
    (l.currentjointvalues = none → s.currentjointvalues = [])

variable {platform}

theorem foldl_tools (tools : List (Text × Transform)) (s : ResultGetJointValues) :
    tools.foldl (fun s tool => { s with tools := s.tools.insert tool.1 tool.2 }) s =
      { s with tools := s.tools.insertAll tools } := by
  induction tools generalizing s with
  | nil => rfl
  | cons tool tools ih => rw [List.foldl_cons, ih, SortedMap.insertAll_cons]

theorem performs_parseTool (it : Text × Json) : Performs (parseTool platform it)
    ((readTransform platform "translate" it.2).map fun transform => (cString it.1, transform))
    fun tool s => { s with tools := s.tools.insert tool.1 tool.2 } := by
  intro s s' ran
  obtain ⟨transform, read, rfl⟩ := performs_assign _ _ s s' ran
  exact ⟨(cString it.1, transform), by rw [read]; rfl, rfl⟩

theorem performs_parseTools (v : Json) : Performs (parseTools platform v) (readTools platform v)
    fun tools s => { s with tools := s.tools.insertAll tools } := by
  intro s s' ran
  obtain ⟨toolsjson, found, ran⟩ := lift_bind_eq_ok ran
  rw [readTools, found]
  cases toolsjson with
  | none => exact ⟨[], rfl, (Prod.mk.inj ran).2.symm⟩
  | some toolsjson =>
    obtain ⟨members, object, ran⟩ := lift_bind_eq_ok ran
    obtain ⟨tools, read, rfl⟩ := performs_forEach performs_parseTool members s s' ran
    refine ⟨tools, ?_, foldl_tools tools s⟩
    rw [← read]
    simp only [object, bind, Except.bind]

/-- A parse puts what is listed over what was there, and the tools into an empty map. -/
theorem performs_parse (ran : parse platform pt s = (.ok (), s')) : ∃ l, listed platform pt = .ok l ∧
    s'.jointnames = l.jointnames.getD s.jointnames ∧
      s'.currentjointvalues = l.currentjointvalues.getD s.currentjointvalues ∧
    s'.tools = SortedMap.empty.insertAll l.tools := by
  obtain ⟨v, output, ran⟩ := lift_bind_eq_ok ran
  obtain ⟨_, first, robottype, ran⟩ := bind_eq_ok ran
  obtain ⟨_, second, jointnames, ran⟩ := bind_eq_ok ran
  obtain ⟨_, third, currentjointvalues, ran⟩ := bind_eq_ok ran
  obtain ⟨_, -, rfl⟩ := zoom_eq_ok robottype
  obtain ⟨_, loadedNames, rfl⟩ := zoom_eq_ok jointnames
  obtain ⟨_, loadedValues, rfl⟩ := zoom_eq_ok currentjointvalues
  obtain ⟨names, readNames, rfl⟩ :=
    performs_loadByKey platform (.vector .string) (fun _ => rfl) v "jointnames" _ _ loadedNames
  obtain ⟨values, readValues, rfl⟩ :=
    performs_loadByKey platform (.vector .double) (fun _ => rfl) v "currentjointvalues" _ _ loadedValues
  obtain ⟨tools, readTools, rfl⟩ := performs_parseTools v _ s' ran
  refine ⟨⟨names, values, tools⟩, ?_, rfl, rfl, rfl⟩
  rw [listed, output]
  simp only [bind, Except.bind, readNames, readValues, readTools]
  rfl

theorem exact_iff (ran : parse platform pt s = (.ok (), s')) : Exact platform pt s' ↔ Clean platform pt s := by
  obtain ⟨l, read, names, values, tools⟩ := performs_parse ran
  have shown : s'.tools.HoldsListed (l.tools.map fun tool => (tool.1, some tool.2)) :=
    tools ▸ SortedMap.holdsListed_insertAll_empty l.tools
  have kept : ∀ {α : Type} (o : Option (List α)) (old : List α), o.getD old = o.getD [] ↔
      (o = none → old = []) := by
    intro α o old
    cases o <;> simp
  constructor
  · rintro ⟨m, again, sameNames, sameValues, -⟩
    obtain rfl := Except.ok.inj (read.symm.trans again)
    exact ⟨l, read, (kept _ _).mp (names.symm.trans sameNames), (kept _ _).mp (values.symm.trans sameValues)⟩
  · rintro ⟨m, again, emptyNames, emptyValues⟩
    obtain rfl := Except.ok.inj (read.symm.trans again)
    exact ⟨l, read, names.trans ((kept _ _).mpr emptyNames), values.trans ((kept _ _).mpr emptyValues), shown⟩

/-- The fields are the same, up to the robot type, which is no list. -/
theorem Exact.unique (first : Exact platform pt s) (second : Exact platform pt t) :
    s.jointnames = t.jointnames ∧ s.currentjointvalues = t.currentjointvalues ∧ s.tools = t.tools := by
  obtain ⟨l, read, names, values, tools⟩ := first
  obtain ⟨m, again, sameNames, sameValues, sameTools⟩ := second
  obtain rfl := Except.ok.inj (read.symm.trans again)
  exact ⟨names.trans sameNames.symm, values.trans sameValues.symm, tools.unique sameTools⟩

end ResultGetJointValues

end MujinClient
