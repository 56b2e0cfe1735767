import MujinClient.Json

/-! One-way merge of an override document into a source document, against the deep
merge it stands for. The source is updated in place: the function returns the updated
source together with the flag the caller uses to decide whether to write it back. -/
namespace MujinClient.Json

mutual
def updateJsonRecursively (source : Json) : (override : Json) → Json × Bool
  | .object override =>
    if equal source (.object override) then (source, false) else
    match source with
    | .object members =>
      let (updated, hasChanged) := updateMembersRecursively members override
      (.object updated, hasChanged)
    | _ => (.object override, true)
  | override => if equal source override then (source, false) else (override, true)

/-- The loop over the override's members. -/
def updateMembersRecursively (members : Members) : (override : Members) → Members × Bool
  | [] => (members, false)
  | (name, value) :: rest =>
    match findMember members name with
    | some old =>
      let (new, changed) := updateJsonRecursively old value
      let (updated, hasChanged) := updateMembersRecursively (assignMember members name new) rest
      (updated, changed || hasChanged)
    | none => ((updateMembersRecursively (members ++ [(name, value)]) rest).1, true)
end

mutual
/-- The reference: two objects give the union of their members with common members
merged; anything else is replaced by the override. -/
def deepMerge : (source override : Json) → Json
  | .object members, .object override =>
    .object (mergeMembers members override ++
      override.filter (fun member => member.1 ∉ names members))
  | _, override => override

/-- The source's members, merged where the override has a member of the same name. -/
def mergeMembers : (members override : Members) → Members
  | [], _ => []
  | (name, value) :: rest, override =>
    (name, match findMember override name with
      | some new => deepMerge value new
      | none => value) :: mergeMembers rest override
end

@[simp] theorem names_mergeMembers : names (mergeMembers members override) = names members := by
  induction members with
  | nil => rfl
  | cons member rest ih =>
    obtain ⟨name, value⟩ := member
    simp [mergeMembers, ih]

theorem findMember_mergeMembers :
    findMember (mergeMembers members override) name =
      (findMember members name).map (fun old =>
        match findMember override name with
        | some new => deepMerge old new
        | none => old) := by
  induction members with
  | nil => rfl
  | cons member rest ih =>
    obtain ⟨other, value⟩ := member
    by_cases same : other = name
    · subst other
      simp [mergeMembers]
    · simp [mergeMembers, findMember_cons_other same, ih]

theorem findMember_filter_absent (absent : name ∉ names members) :
    findMember (override.filter (fun member => member.1 ∉ names members)) name =
      findMember override name := by
  induction override with
  | nil => rfl
  | cons member rest ih =>
    obtain ⟨other, value⟩ := member
    by_cases same : other = name
    · subst other
      simp [absent]
    · rw [findMember_cons_other same, ← ih, List.filter_cons]
      split
      · exact findMember_cons_other same
      · rfl

def mergedMembers (members override : Members) : Members :=
  mergeMembers members override ++ override.filter (fun member => member.1 ∉ names members)

theorem names_mergedMembers (members override : Members) :
    names (mergedMembers members override) =
      names members ++ (names override).filter (fun name => name ∉ names members) := by
  rw [mergedMembers, names_append, names_mergeMembers]
  simp only [names, List.filter_map]
  rfl

theorem findMember_mergedMembers_present (present : findMember members name = some old) :
    findMember (mergedMembers members override) name =
      some (match findMember override name with
        | some new => deepMerge old new
        | none => old) := by
  simp [mergedMembers, findMember_append, findMember_mergeMembers, present]

theorem findMember_mergedMembers_absent (absent : findMember members name = none) :
    findMember (mergedMembers members override) name = findMember override name := by
  rw [mergedMembers, findMember_append, findMember_mergeMembers, absent, Option.map_none,
    Option.none_or, findMember_filter_absent (findMember_eq_none_iff.mp absent)]

theorem updateMembers_present (rest : Members) (found : findMember members name = some old) :
    updateMembersRecursively members ((name, value) :: rest) =
      ((updateMembersRecursively
          (assignMember members name (updateJsonRecursively old value).1) rest).1,
        (updateJsonRecursively old value).2 || (updateMembersRecursively
          (assignMember members name (updateJsonRecursively old value).1) rest).2) := by
  rw [updateMembersRecursively, found]

theorem updateMembers_absent (rest : Members) (found : findMember members name = none) :
    updateMembersRecursively members ((name, value) :: rest) =
      ((updateMembersRecursively (members ++ [(name, value)]) rest).1, true) := by
  rw [updateMembersRecursively, found]

/-- Existing names keep their places and the override's other names follow in order. -/
theorem names_updateMembers (members override : Members) (distinct : (names override).Nodup) :
    names (updateMembersRecursively members override).1 =
      names members ++ (names override).filter (fun name => name ∉ names members) := by
  induction override generalizing members with
  | nil => simp [updateMembersRecursively]
  | cons member rest ih =>
    obtain ⟨name, value⟩ := member
    rw [names_cons, List.nodup_cons] at distinct
    cases found : findMember members name with
    | some old =>
      have present : name ∈ names members := List.mem_map_of_mem (mem_of_findMember found)
      rw [updateMembers_present rest found, ih _ distinct.2]
      simp [present]
    | none =>
      have absent := findMember_eq_none_iff.mp found
      have later : (names rest).filter (fun other => other ∉ names (members ++ [(name, value)])) =
          (names rest).filter (fun other => other ∉ names members) := by
        refine List.filter_congr fun other member => ?_
        have apart : other ≠ name := ne_of_mem_of_not_mem member distinct.1
        simp [apart]
      rw [updateMembers_absent rest found, ih _ distinct.2, later]
      simp [absent]

theorem findMember_updateMembers_other (members override : Members)
    (untouched : name ∉ names override) :
    findMember (updateMembersRecursively members override).1 name = findMember members name := by
  induction override generalizing members with
  | nil => rfl
  | cons member rest ih =>
    obtain ⟨other, value⟩ := member
    rw [names_cons, List.mem_cons, not_or] at untouched
    cases found : findMember members other with
    | some old =>
      rw [updateMembers_present rest found, ih _ untouched.2,
        findMember_assignMember_other untouched.1]
    | none =>
      rw [updateMembers_absent rest found, ih _ untouched.2, findMember_append,
        findMember_cons_other (Ne.symm untouched.1)]
      simp

theorem findMember_updateMembers (members override : Members) (distinct : (names override).Nodup)
    (member : (name, value) ∈ override) :
    findMember (updateMembersRecursively members override).1 name =
      some (match findMember members name with
        | some old => (updateJsonRecursively old value).1
        | none => value) := by
  induction override generalizing members with
  | nil => simp at member
  | cons head rest ih =>
    obtain ⟨other, first⟩ := head
    rw [names_cons, List.nodup_cons] at distinct
    rcases List.mem_cons.mp member with same | later
    · obtain ⟨rfl, rfl⟩ := Prod.mk.inj same
      cases found : findMember members name with
      | some old =>
        have present : name ∈ names members := List.mem_map_of_mem (mem_of_findMember found)
        rw [updateMembers_present rest found, findMember_updateMembers_other _ _ distinct.1,
          findMember_assignMember_same present]
      | none =>
        rw [updateMembers_absent rest found, findMember_updateMembers_other _ _ distinct.1,
          findMember_append, found, Option.none_or, findMember_cons_same]
    · have apart : name ≠ other := by
        rintro rfl
        exact distinct.1 (List.mem_map_of_mem later)
      cases found : findMember members other with
      | some old =>
        rw [updateMembers_present rest found, ih _ distinct.2 later,
          findMember_assignMember_other apart]
      | none =>
        rw [updateMembers_absent rest found, ih _ distinct.2 later, findMember_append,
          findMember_cons_other (Ne.symm apart), findMember_nil, Option.or_none]

theorem updateMembers_unchanged (members override : Members)
    (fixed : ∀ name value, (name, value) ∈ override → ∀ old, findMember members name = some old →
      (updateJsonRecursively old value).2 = false → (updateJsonRecursively old value).1 = old)
    (flag : (updateMembersRecursively members override).2 = false) :
    (updateMembersRecursively members override).1 = members := by
  induction override with
  | nil => rfl
  | cons member rest ih =>
    obtain ⟨name, value⟩ := member
    cases found : findMember members name with
    | none =>
      rw [updateMembers_absent rest found] at flag
      contradiction
    | some old =>
      rw [updateMembers_present rest found, Bool.or_eq_false_iff] at flag
      have kept := fixed name value List.mem_cons_self old found flag.1
      rw [kept, assignMember_unchanged found] at flag
      rw [updateMembers_present rest found, kept, assignMember_unchanged found]
      exact ih (fun n v later => fixed n v (List.mem_cons_of_mem _ later)) flag.2

/-- A set flag comes from a new name or from a member that reports a change. -/
theorem updateMembers_changed (members override : Members) (distinct : (names override).Nodup)
    (flag : (updateMembersRecursively members override).2 = true) :
    ∃ name value, (name, value) ∈ override ∧ (findMember members name = none ∨
      ∃ old, findMember members name = some old ∧ (updateJsonRecursively old value).2 = true) := by
  induction override generalizing members with
  | nil => simp [updateMembersRecursively] at flag
  | cons head rest ih =>
    obtain ⟨name, value⟩ := head
    rw [names_cons, List.nodup_cons] at distinct
    cases found : findMember members name with
    | none => exact ⟨name, value, List.mem_cons_self, .inl found⟩
    | some old =>
      rw [updateMembers_present rest found, Bool.or_eq_true] at flag
      rcases flag with here | later
      · exact ⟨name, value, List.mem_cons_self, .inr ⟨old, found, here⟩⟩
      · obtain ⟨n, v, member, why⟩ := ih _ distinct.2 later
        have apart : n ≠ name := by
          rintro rfl
          exact distinct.1 (List.mem_map_of_mem member)
        rw [findMember_assignMember_other apart] at why
        exact ⟨n, v, List.mem_cons_of_mem _ member, why⟩

/-- Members that are already what the override makes of them stay as they are. -/
theorem updateMembers_settled (members override : Members)
    (settled : ∀ name value, (name, value) ∈ override → ∃ current,
      findMember members name = some current ∧ updateJsonRecursively current value = (current, false)) :
    updateMembersRecursively members override = (members, false) := by
  induction override with
  | nil => rfl
  | cons head rest ih =>
    obtain ⟨name, value⟩ := head
    obtain ⟨current, found, stable⟩ := settled name value List.mem_cons_self
    rw [updateMembers_present rest found, stable, assignMember_unchanged found,
      ih (fun n v later => settled n v (List.mem_cons_of_mem _ later))]
    rfl

theorem update_of_equal (same : equal source override = true) :
    updateJsonRecursively source override = (source, false) := by
  cases override <;> simp [updateJsonRecursively, same]

theorem update_objects (differ : equal (.object members) (.object override) = false) :
    updateJsonRecursively (.object members) (.object override) =
      (.object (updateMembersRecursively members override).1,
        (updateMembersRecursively members override).2) := by
  simp [updateJsonRecursively, differ]

/-- Everything a caller relies on, for one pair of documents. -/
structure Merged (source override : Json) : Prop where
  merged : equal (updateJsonRecursively source override).1 (deepMerge source override) = true
  changed : (updateJsonRecursively source override).2 = true →
    equal source (updateJsonRecursively source override).1 = false
  unchanged : (updateJsonRecursively source override).2 = false →
    (updateJsonRecursively source override).1 = source
  again : updateJsonRecursively (updateJsonRecursively source override).1 override =
    ((updateJsonRecursively source override).1, false)

/-- A pair that is not two objects: the override replaces the source or equals it. -/
theorem merged_replaced (regular : Regular override)
    (update : updateJsonRecursively source override =
      if equal source override = true then (source, false) else (override, true))
    (merge : deepMerge source override = override) : Merged source override := by
  by_cases same : equal source override = true
  · have kept := update_of_equal same
    exact ⟨by rw [kept, merge]; exact same, by simp [kept], by simp [kept], by simp [kept]⟩
  · rw [if_neg same] at update
    refine ⟨?_, ?_, ?_, ?_⟩ <;> rw [update]
    · rw [merge]
      exact equal_refl override regular
    · exact fun _ => by simpa using same
    · simp
    · exact update_of_equal (equal_refl override regular)

/-- Equal objects have the same names, so the reference merge adds none. -/
theorem names_of_equal_objects (regular : Regular (.object members))
    (same : equal (.object members) (.object override) = true) :
    (names override).filter (fun name => name ∉ names members) = [] := by
  rw [equal, Bool.and_eq_true, beq_iff_eq, equalMembers_iff] at same
  have within : names members ⊆ names override := by
    intro name member
    obtain ⟨⟨n, v⟩, inside, rfl⟩ := List.mem_map.mp member
    obtain ⟨other, found, _⟩ := same.2 n v inside
    exact List.mem_map.mpr ⟨(n, other), mem_of_findMember found, rfl⟩
  have perm : (names members).Perm (names override) := by
    refine (List.subperm_of_subset regular.1 within).perm_of_length_le ?_
    simp [names, same.1]
  simp only [List.filter_eq_nil_iff, decide_not, Bool.not_eq_true', decide_eq_false_iff_not,
    Decidable.not_not]
  exact fun name member => perm.mem_iff.mpr member

theorem merged_equal_objects (source : Regular (.object members))
    (ih : ∀ name value, (name, value) ∈ override → ∀ old, Regular old → Merged old value)
    (same : equal (.object members) (.object override) = true) :
    equal (.object members) (deepMerge (.object members) (.object override)) = true := by
  have noNew := names_of_equal_objects source same
  rw [equal, Bool.and_eq_true, beq_iff_eq, equalMembers_iff] at same
  change equal (.object members) (.object (mergedMembers members override)) = true
  rw [equal, Bool.and_eq_true, beq_iff_eq, equalMembers_iff]
  constructor
  · have sizes := congrArg List.length (names_mergedMembers members override)
    rw [noNew] at sizes
    simpa [names] using sizes.symm
  · intro name value member
    obtain ⟨new, found, alike⟩ := same.2 name value member
    have here := findMember_of_mem source.1 member
    have regular := regularMembers_iff.mp source.2 name value member
    refine ⟨_, findMember_mergedMembers_present here, ?_⟩
    have merged := (ih name new (mem_of_findMember found) value regular).merged
    rw [update_of_equal alike] at merged
    simpa [found] using merged

section

variable (source : Regular (.object members)) (override_regular : Regular (.object override))
  (ih : ∀ name value, (name, value) ∈ override → ∀ old, Regular old → Merged old value)

include source

theorem regular_old (found : findMember members name = some old) : Regular old :=
  regularMembers_iff.mp source.2 _ _ (mem_of_findMember found)

include override_regular

theorem nodup_updateMembers : (names (updateMembersRecursively members override).1).Nodup := by
  rw [names_updateMembers members override override_regular.1]
  refine List.Nodup.append source.1 (override_regular.1.filter _) ?_
  intro name inside outside
  simp only [List.mem_filter, decide_not, Bool.not_eq_true', decide_eq_false_iff_not] at outside
  exact outside.2 inside

include ih

/-- Each member is updated, added or kept. -/
theorem updateMembers_merged :
    equal (.object (updateMembersRecursively members override).1)
    (.object (mergedMembers members override)) = true := by
  have distinct := override_regular.1
  rw [equal, Bool.and_eq_true, beq_iff_eq, equalMembers_iff]
  constructor
  · have sizes :=
      congrArg List.length
        ((names_updateMembers members override distinct).trans (names_mergedMembers members override).symm)
    simpa [names] using sizes
  · intro name value member
    have found := findMember_of_mem (nodup_updateMembers source override_regular) member
    by_cases inOverride : name ∈ names override
    · obtain ⟨⟨n, new⟩, overriding, rfl⟩ := List.mem_map.mp inOverride
      have value_eq := findMember_updateMembers members override distinct overriding
      rw [found, Option.some.injEq] at value_eq
      have newFound := findMember_of_mem distinct overriding
      cases before : findMember members n with
      | some old =>
        refine ⟨_, findMember_mergedMembers_present before, ?_⟩
        simpa [newFound, value_eq, before] using (ih n new overriding old (regular_old source before)).merged
      | none =>
        refine ⟨new, (findMember_mergedMembers_absent before).trans newFound, ?_⟩
        simpa [value_eq, before] using equal_refl new (regularMembers_iff.mp override_regular.2 n new overriding)
    · have kept : findMember members name = some value := by
        rw [← findMember_updateMembers_other members override inOverride]
        exact found
      refine ⟨_, findMember_mergedMembers_present kept, ?_⟩
      simpa [findMember_eq_none_iff.mpr inOverride] using equal_refl value (regular_old source kept)

/-- Where the members report a change, one was added or has changed. -/
theorem updateMembers_differ (flag : (updateMembersRecursively members override).2 = true) :
    equal (.object members) (.object (updateMembersRecursively members override).1) = false := by
  have distinct := override_regular.1
  obtain ⟨name, value, member, why⟩ := updateMembers_changed members override distinct flag
  rw [equal, Bool.and_eq_false_iff]
  rcases why with added | ⟨old, found, changed⟩
  · left
    have new : name ∈ (names override).filter (fun name => name ∉ names members) := by
      simpa using ⟨List.mem_map_of_mem member, findMember_eq_none_iff.mp added⟩
    have longer := List.length_pos_of_mem new
    have sizes := congrArg List.length (names_updateMembers members override distinct)
    simp only [names, List.length_map, List.length_append] at sizes longer
    simp only [beq_eq_false_iff_ne, ne_eq]
    omega
  · right
    have differs := (ih name value member old (regular_old source found)).changed changed
    rw [Bool.eq_false_iff, ne_eq, equalMembers_iff]
    intro all
    obtain ⟨other, there, alike⟩ := all name old (mem_of_findMember found)
    rw [findMember_updateMembers members override distinct member, Option.some.injEq] at there
    rw [← there] at alike
    simp only [found, differs] at alike
    contradiction

/-- Updating the members once more leaves them as they are. -/
theorem updateMembers_again :
    updateJsonRecursively (.object (updateMembersRecursively members override).1) (.object override) =
    (.object (updateMembersRecursively members override).1, false) := by
  by_cases same : equal (.object (updateMembersRecursively members override).1) (.object override) = true
  · exact update_of_equal same
  · rw [update_objects (by simpa using same), updateMembers_settled]
    intro name value member
    refine ⟨_, findMember_updateMembers members override override_regular.1 member, ?_⟩
    cases found : findMember members name with
    | some old => exact (ih name value member old (regular_old source found)).again
    | none => exact update_of_equal (equal_refl value (regularMembers_iff.mp override_regular.2 name value member))

theorem merged_distinct_objects (differ : equal (.object members) (.object override) = false) :
    Merged (.object members) (.object override) := by
  have update := update_objects differ
  constructor
  · rw [update]
    exact updateMembers_merged source override_regular ih
  · rw [update]
    exact updateMembers_differ source override_regular ih
  · rw [update]
    intro flag
    exact congrArg Json.object (updateMembers_unchanged members override
      (fun name value member old found => (ih name value member old (regular_old source found)).unchanged) flag)
  · rw [update]
    exact updateMembers_again source override_regular ih

end

mutual
theorem merged : (override : Json) → Regular override → (source : Json) → Regular source →
    Merged source override
  | .object override, regular, .object members, source => by
    have ih := mergedEach override regular.2
    by_cases same : equal (.object members) (.object override) = true
    · have kept := update_of_equal same
      refine ⟨?_, ?_, ?_, ?_⟩
      · rw [kept]
        exact merged_equal_objects source ih same
      all_goals simp [kept]
    · exact merged_distinct_objects source regular ih (by simpa using same)
  | .object override, regular, .null, _ | .object override, regular, .bool _, _
  | .object override, regular, .int _, _ | .object override, regular, .double _, _
  | .object override, regular, .string _, _ | .object override, regular, .array _, _ =>
    merged_replaced regular (by simp [updateJsonRecursively]) (by simp [deepMerge])
  | .null, regular, source, _ | .bool _, regular, source, _ | .int _, regular, source, _
  | .double _, regular, source, _ | .string _, regular, source, _ | .array _, regular, source, _ =>
    merged_replaced regular (by rw [updateJsonRecursively]; simp) (by cases source <;> rfl)

theorem mergedEach : (override : Members) → RegularMembers override →
    ∀ name value, (name, value) ∈ override → ∀ old, Regular old → Merged old value
  | [], _ => by simp
  | (head, first) :: rest, regular => by
    intro name value member old oldRegular
    rcases List.mem_cons.mp member with same | later
    · rw [(Prod.mk.inj same).2]
      exact merged first regular.1 old oldRegular
    · exact mergedEach rest regular.2 name value later old oldRegular
end

/-- The source becomes the deep merge, the flag says exactly whether it changed, and a
second application is idle. The override is only read. -/
theorem updateJsonRecursively_merges (source override : Json)
    (sourceRegular : Regular source) (overrideRegular : Regular override) :
    let (updated, hasChanged) := updateJsonRecursively source override
    equal updated (deepMerge source override) = true ∧
    (hasChanged = true ↔ equal source updated = false) ∧
    (hasChanged = false → updated = source) ∧
    updateJsonRecursively updated override = (updated, false) := by
  have spec := merged override overrideRegular source sourceRegular
  refine ⟨spec.merged, ⟨spec.changed, fun differ => ?_⟩, spec.unchanged, spec.again⟩
  by_contra flag
  have kept := spec.unchanged (by simpa using flag)
  rw [kept, equal_refl source sourceRegular] at differ
  contradiction

/-- An integer and an equal double count as unchanged; a new member does not. -/
theorem updateJsonRecursively_merges_numbers :
    let source := Json.object [(lit "a", .int ⟨1, by decide⟩)]
    let override := Json.object [(lit "a", .double (Double.ofInt 1)), (lit "b", .null)]
    let result := updateJsonRecursively source override
    result = (.object [(lit "a", .int ⟨1, by decide⟩), (lit "b", .null)], true) ∧
      equal result.1 (deepMerge source override) = true ∧
      (result.2 = true ↔ equal source result.1 = false) ∧
      (result.2 = false → result.1 = source) ∧
      updateJsonRecursively result.1 override = (result.1, false) := by
  refine ⟨by decide +kernel, updateJsonRecursively_merges _ _ ?_ ?_⟩
  · simp [Regular, RegularMembers]
  · refine ⟨by decide, ?_⟩
    simp only [RegularMembers, Regular, and_true]
    decide +kernel

end MujinClient.Json
