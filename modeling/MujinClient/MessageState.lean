import MujinClient.TaskState

/-! A task state after a message. The constructor of `RegisterMinViableRegionInfo` leaves
`registrationMode` as it finds it in memory, so the states are compared for any content of it. -/
namespace MujinClient.ResultGetBinpickingState

open Loading

variable {platform : Platform} {fresh other : UInt8}

/-- Equal but for the registration mode. -/
def AlikeButMode (s t : RegisterMinViableRegionInfo) : Prop := ∃ mode, t = { s with registrationMode := mode }

section

variable {put : α → RegisterMinViableRegionInfo → RegisterMinViableRegionInfo}
    {view : RegisterMinViableRegionInfo → α}
  {rest : β → Loading LoadError RegisterMinViableRegionInfo Unit}

/-- Loading a field in front of what sets the mode. -/
theorem agree_zoom_then (p : Loading LoadError α β) (enter : ∀ s t, AlikeButMode s t → view s = view t)
    (leave : ∀ x s t, AlikeButMode s t → AlikeButMode (put x s) (put x t))
    (later : ∀ b, Agree AlikeButMode (rest b) (· = ·)) :
    Agree AlikeButMode (zoom view put p >>= rest) (· = ·) :=
  (agree_zoom (agree_eq p) enter fun s t x _ alike same => same ▸ leave x s t alike).bind later

theorem agree_assign_then {rest : Unit → Loading LoadError RegisterMinViableRegionInfo Unit}
    (outcome : Except LoadError α)
    (leave : ∀ x s t, AlikeButMode s t → AlikeButMode (put x s) (put x t))
    (later : ∀ b, Agree AlikeButMode (rest b) (· = ·)) :
    Agree AlikeButMode (assign put outcome >>= rest) (· = ·) :=
  (agree_assign leave outcome).bind later

end

theorem agree_mode (outcome : Except LoadError UInt8) : Agree AlikeButMode
    (assign (fun x (s : RegisterMinViableRegionInfo) => { s with registrationMode := x }) outcome) (· = ·) :=
  agree_assign (by rintro x s _ ⟨mode, rfl⟩; rfl) outcome

/-- An object sets the registration mode, whatever it was. -/
theorem agree_deserializeObject (rInfo : Json) :
    Agree AlikeButMode (RegisterMinViableRegionInfo.deserializeObject platform rInfo) (· = ·) := by
  unfold RegisterMinViableRegionInfo.deserializeObject
  refine (agree_lift _).bind fun member => ?_
  cases member <;> dsimp only
  case' some =>
    refine agree_zoom_then _ (by rintro s _ ⟨mode, rfl⟩; rfl)
      (fun x s _ ⟨mode, same⟩ => ⟨mode, by rw [same]⟩) fun _ => ?_
  all_goals
    -- the fields in front of the registration mode
    iterate 18 first
      | refine agree_zoom_then _ (by rintro s _ ⟨mode, rfl⟩; rfl) (fun x s _ ⟨mode, same⟩ =>
        ⟨mode, by rw [same]⟩) fun _ => ?_
      | refine agree_assign_then _ (fun x s _ ⟨mode, same⟩ => ⟨mode, by rw [same]⟩) fun _ => ?_
    exact (agree_mode _).bind fun _ => agree_eq _

theorem agree_deserializeJSON (platform : Platform) (object : rInfo.isNull = false) :
    Agree AlikeButMode (RegisterMinViableRegionInfo.deserializeJSON platform rInfo) (· = ·) := by
  have region : Agree AlikeButMode (update fun s => { s with minViableRegion := .initial } :
      Loading LoadError RegisterMinViableRegionInfo Unit) AlikeButMode :=
    (agree_update _).weaken (fun _ _ alike => alike)
      (by rintro _ _ ⟨s, t, ⟨mode, rfl⟩, rfl, rfl⟩; exact ⟨mode, rfl⟩)
  unfold RegisterMinViableRegionInfo.deserializeJSON
  rw [object]
  exact region.bind fun _ => agree_deserializeObject rInfo

/-- The registration info of the output, if there is one that is not null. -/
def registrationInfo (v : Json) : Option Json :=
  match findMemberOf v "registerMinViableRegionInfo" with
  | .ok (some rInfo) => if rInfo.isNull then none else some rInfo
  | _ => none

theorem parseRegistration_some (present : registrationInfo v = some rInfo)
    (left : parseRegistration platform fresh v s = (.ok (), s'))
    (right : parseRegistration platform other v s = (.ok (), t')) : s' = t' := by
  unfold registrationInfo at present
  split at present
  · rename_i info found
    have object : info.isNull = false := by
      by_contra null
      simp [null] at present
    have parse : ∀ mode, parseRegistration platform mode v s =
        ((RegisterMinViableRegionInfo.deserializeJSON platform info (.initial mode)).1, { s with
          registerMinViableRegionInfo :=
            (RegisterMinViableRegionInfo.deserializeJSON platform info (.initial mode)).2 }) := by
      intro mode
      unfold parseRegistration
      rw [found]
      rfl
    rw [parse] at left right
    rcases agree_deserializeJSON platform object (.initial fresh) (.initial other) ⟨other, rfl⟩ with
      ⟨a, x, y, first, second, rfl⟩ | ⟨e, f, x, y, first, second⟩
    · rw [first] at left
      rw [second] at right
      exact (Prod.mk.inj left).2.symm.trans (Prod.mk.inj right).2
    · rw [first] at left
      cases left
  · cases present

theorem parseRegistration_none (platform : Platform) (absent : registrationInfo v = none)
    (found : findMemberOf v "registerMinViableRegionInfo" = .ok member)
    (fresh : UInt8) (s : ResultGetBinpickingState) :
    parseRegistration platform fresh v s = (.ok (), { s with registerMinViableRegionInfo := .initial fresh }) := by
  unfold parseRegistration
  rw [found]
  cases member with
  | none => rfl
  | some rInfo =>
    have null : rInfo.isNull = true := by
      by_contra object
      simp [registrationInfo, found, object] at absent
    cases rInfo with
    | null => rfl
    | _ => simp [Json.isNull] at null

/-- The parts of a parse that returns. -/
theorem parse_parts (ran : parse platform fresh v s = (.ok (), s')) :
    ∃ first middle, parseStatus platform v s = (.ok (), first) ∧
      ∃ third, parseOrder platform v first = (.ok (), middle) ∧
      parseRegistration platform fresh v middle = (.ok (), third) ∧
        parseLocations platform v third = (.ok (), s') := by
  obtain ⟨_, first, status, ran⟩ := bind_eq_ok ran
  obtain ⟨_, middle, order, ran⟩ := bind_eq_ok ran
  obtain ⟨_, third, registration, locations⟩ := bind_eq_ok ran
  exact ⟨first, middle, status, third, order, registration, locations⟩

/-- The state after a message, whatever it was before and whatever was in memory. -/
def DeterminedByMessage (platform : Platform) (pt : Json) : Prop :=
  ∀ (fresh other : UInt8) (s t s' t' : ResultGetBinpickingState), parseReply platform fresh pt s = (.ok (), s') →
    parseReply platform other pt t = (.ok (), t') →
    { s' with isDynamicEnvironmentStateEmpty := t'.isDynamicEnvironmentStateEmpty } = t'

def HasRegistrationInfo (pt : Json) : Prop :=
  ∃ v, findMemberOf pt "output" = .ok (some v) ∧ registrationInfo v ≠ none

theorem parseReply_output (ran : parseReply platform fresh pt s = (.ok (), s')) :
    ∃ v, findMemberOf pt "output" = .ok (some v) ∧ parse platform fresh v s = (.ok (), s') := by
  rcases output : findMemberOf pt "output" with e | _ | v <;> rw [parseReply, output] at ran
  · cases ran
  · cases ran
  · exact ⟨v, rfl, ran⟩

theorem parseReply_of_output (output : findMemberOf pt "output" = .ok (some v)) :
    parseReply platform fresh pt = parse platform fresh v := by
  rw [parseReply, output]

theorem agree_parseLocations (platform : Platform) (v : Json) :
    Agree (fun _ _ => True) (parseLocations platform v) (fun _ _ => True) := by
  have part : ∀ {α : Type} {view : ResultGetBinpickingState → α} {put : α → ResultGetBinpickingState →
      ResultGetBinpickingState}
      {p : Loading LoadError α Unit}, Agree (fun _ _ => True) p (· = ·) →
      Agree (fun _ _ => True) (zoom view put p) (fun _ _ => True) :=
    fun inner => agree_zoom inner (fun _ _ _ => trivial) fun _ _ _ _ _ _ => trivial
  exact (part (agree_parseList _ _ _ _)).bind fun _ => (part (agree_parseTrigger v)).bind fun _ =>
    (part (agree_parseList _ _ _ _)).bind fun _ => (part (agree_parseList _ _ _ _)).bind fun _ =>
      part (agree_reset_bind [] _)

theorem keeps_mode (platform : Platform) (mode : UInt8) (v : Json) :
    Keeps (fun s => s.registerMinViableRegionInfo.registrationMode = mode) (parseLocations platform v) := by
  unfold parseLocations
  repeat' first
    | exact keeps_zoom_part fun s x same => same
    | refine Keeps.bind ?_ fun _ => ?_

/-- A message without registration info leaves any mode that was in memory. -/
theorem parse_mode (absent : registrationInfo v = none) (ran : parse platform fresh v s = (.ok (), s'))
    (mode : UInt8) :
    ∃ final, parse platform mode v s = (.ok (), final) ∧
      final.registerMinViableRegionInfo.registrationMode = mode := by
  obtain ⟨first, middle, status, third, order, registration, locations⟩ := parse_parts ran
  obtain ⟨member, found⟩ : ∃ member, findMemberOf v "registerMinViableRegionInfo" = .ok member := by
    obtain ⟨_, _, _, looked⟩ := bind_eq_ok registration
    obtain ⟨member, _, found, _⟩ := bind_eq_ok looked
    exact ⟨member, (Prod.mk.inj found).1⟩
  have registered := parseRegistration_none platform absent found mode middle
  rcases agree_parseLocations platform v third
      { middle with registerMinViableRegionInfo := .initial mode } trivial with
    ⟨_, _, final, -, located, -⟩ | ⟨e, _, _, _, failed, -⟩
  · have kept := keeps_mode platform mode v { middle with registerMinViableRegionInfo := .initial mode } rfl
    rw [located] at kept
    exact ⟨final, (bind_ok status).trans ((bind_ok order).trans ((bind_ok registered).trans located)), kept⟩
  · cases locations.symm.trans failed

theorem not_determined (output : findMemberOf pt "output" = .ok (some v)) (absent : registrationInfo v = none)
    (ran : parse platform fresh v s = (.ok (), s')) : ¬DeterminedByMessage platform pt := by
  intro determined
  obtain ⟨first, ranFirst, none⟩ := parse_mode absent ran (uint8Of 0)
  obtain ⟨second, ranSecond, lift⟩ := parse_mode absent ran (uint8Of 1)
  rw [← parseReply_of_output output] at ranFirst ranSecond
  have same := determined _ _ s s first second ranFirst ranSecond
  rw [← same] at lift
  exact absurd (none.symm.trans lift) (by decide)

/-- A state is a function of exactly the messages that carry registration info. -/
theorem determinedByMessage_iff (platform : Platform) (pt : Json)
    (accepted : ∃ mode s, (parseReply platform mode pt).Succeeds s) :
    DeterminedByMessage platform pt ↔ HasRegistrationInfo pt := by
  constructor
  · intro determined
    obtain ⟨mode, s, _, returned⟩ := accepted
    obtain ⟨v, output, ran⟩ := parseReply_output (Prod.ext returned rfl)
    exact ⟨v, output, fun absent => not_determined output absent ran determined⟩
  · rintro ⟨v, output, present⟩ fresh other s t s' t' left right
    obtain ⟨rInfo, present⟩ := Option.ne_none_iff_exists'.mp present
    rw [parseReply_of_output output] at left right
    rcases agree_parse_any platform other v s t trivial with ⟨_, final, _, alike, again, same⟩ | ⟨_, e, _,
        _, -, failed⟩
    · obtain rfl := (Prod.mk.inj (right.symm.trans again)).2
      obtain ⟨first, middle, status, third, order, registration, locations⟩ := parse_parts left
      obtain ⟨first', middle', status', third', order', registration', locations'⟩ := parse_parts alike
      obtain rfl := (Prod.mk.inj (status.symm.trans status')).2
      obtain rfl := (Prod.mk.inj (order.symm.trans order')).2
      obtain rfl := parseRegistration_some present registration registration'
      obtain rfl := (Prod.mk.inj (locations.symm.trans locations')).2
      exact same
    · cases right.symm.trans failed

/-- `{"output": {}}` -/
def emptyState : Json := .object [(lit "output", .object [])]

theorem determinedByMessage_iff_empty : DeterminedByMessage default emptyState ↔ HasRegistrationInfo emptyState :=
  determinedByMessage_iff default emptyState ⟨uint8Of 0, .initial (uint8Of 0), (), rfl⟩

/-- The registration mode is what was in memory. -/
theorem mode_indeterminate : ¬∀ (platform : Platform) (pt : Json), DeterminedByMessage platform pt := by
  intro each
  have output : findMemberOf emptyState "output" = .ok (some (.object [])) := rfl
  have returned : (parse default (uint8Of 0) (.object []) (.initial (uint8Of 0))).1 = .ok () := rfl
  exact not_determined output rfl (Prod.ext returned rfl) (each default emptyState)

end MujinClient.ResultGetBinpickingState
