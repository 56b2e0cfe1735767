import MujinClient.JsonTypes

/-! What `LoadJsonValue` leaves of the earlier contents of its target. Every overload
clears or overwrites its target except the list branch of the map overload. -/
namespace MujinClient

open Loading

def acceptsElements (accepts : Json → Bool) : Json → Bool
  | .array js => js.all accepts
  | _ => false

def acceptsPair (first second : Json → Bool) : Json → Bool
  | .array [x, y] => first x && second y
  | _ => false

def acceptsMembers (accepts : Json → Bool) : Json → Bool
  | .object members => members.all fun member => accepts member.2
  | _ => false

def acceptsString (v : Json) : Bool := v.isString || v.isInt64

/-- Every part of the value has a form the overload for its place converts. -/
def Ty.accepts (platform : Platform) : Ty → Json → Bool
  | .string, v => acceptsString v
  | .integer type, v => type.overload.number v ||
    match v with
    | .bool _ => true
    | .string s => (lexicalCast type.overload.lexical (cString s)).isSome
    | _ => false
  | .bool, v => v.isInt ||
    match v with
    | .bool _ => true
    | .string s => (lexicalCastBool (cString s)).isSome
    | _ => false
  | .double, v =>
    match v with
    | .int _ | .double _ => true
    | .string s => (platform.lexicalDouble (cString s)).isSome
    | _ => false
  | .pair a b, v => acceptsPair (a.accepts platform) (b.accepts platform) v
  | .vector a, v | .deque a, v | .set a, v | .unorderedSet a, v =>
    acceptsElements (a.accepts platform) v
  | .array a n, v =>
    match v with
    | .array js => js.length == n && js.all (a.accepts platform)
    | _ => false
  | .map a, v => acceptsElements (acceptsPair acceptsString (a.accepts platform)) v ||
    acceptsMembers (a.accepts platform) v
  | .unorderedMap a, v => acceptsMembers (a.accepts platform) v
  | .optional a, v => v.isNull || a.accepts platform v

def exposedPair (first second : Json → Bool) : Json → Bool
  | .array [x, y] => first x || second y
  | _ => false

def exposedElements (exposed : Json → Bool) : Json → Bool
  | .array js => js.any exposed
  | _ => false

/-- A map meets a list, with only pairs and fixed arrays around it: these are the
overloads that load their parts over what was there. -/
def Ty.exposed : Ty → Json → Bool
  | .map _, v => v.isArray
  | .pair a b, v => exposedPair a.exposed b.exposed v
  | .array a _, v => exposedElements a.exposed v
  | _, _ => false

theorem returns_assign (put : α → σ → σ) (outcome : Except LoadError α) :
    Returns (assign put outcome) (∃ a, outcome = .ok a) :=
  ((returns_lift outcome).bind fun a => returns_update (put a)).congr (by simp)

theorem fresh_ok_iff {load : Load α} {start : α} :
    (∃ x, fresh start load v = .ok x) ↔ (load v).Succeeds start := by
  unfold fresh Succeeds
  rcases load v start with ⟨_ | _, _⟩ <;> simp

theorem returns_fresh {load : Load α} {start : α} (each : Returns (load v) c) :
    Returns (lift (fresh start load v) : Loading LoadError σ α) c :=
  fun _ => fresh_ok_iff.trans (each start)

theorem succeeds_loadElements {load : Load α} {accepts : Json → Bool}
    (each : ∀ j, Returns (load j) (accepts j = true)) (js : List Json) (ts : List α)
    (sizes : js.length = ts.length) :
    (loadElements load js).Succeeds ts ↔ js.all accepts = true := by
  induction js generalizing ts with
  | nil => simp [loadElements, Succeeds]
  | cons j js ih =>
    cases ts with
    | nil => simp at sizes
    | cons t ts =>
      have tail := ih ts (by simpa using sizes)
      have head := each j t
      unfold Succeeds at head tail ⊢
      rw [List.all_cons, Bool.and_eq_true, ← head, ← tail, loadElements]
      rcases ran : load j t with ⟨_ | _, _⟩ <;> simp [ran]

theorem returns_loadPair {first : Load α} {second : Load β} {accepts takes : Json → Bool}
    (left : ∀ j, Returns (first j) (accepts j = true))
    (right : ∀ j, Returns (second j) (takes j = true)) (v : Json) :
    Returns (loadPair first second v) (acceptsPair accepts takes v = true) := by
  unfold loadPair acceptsPair
  split
  · rename_i x y
    rw [Bool.and_eq_true]
    exact (returns_zoom (left x)).bind fun _ => returns_zoom (right y)
  · rename_i js notPair
    split
    · rename_i same
      simp only [Json.array.injEq] at same
      exact absurd same (notPair _ _)
    · exact (returns_throw _).congr (by simp)
  · rename_i notPair notArray
    split
    · rename_i x y
      exact absurd rfl (notPair x y)
    · exact (returns_throw _).congr (by simp)

theorem returns_loadSequence {load : Load α} {accepts : Json → Bool}
    (each : ∀ j, Returns (load j) (accepts j = true)) (typeName : String) (start : α) (v : Json) :
    Returns (loadSequence typeName start load v) (acceptsElements accepts v = true) := by
  cases v with
  | array js =>
    intro t
    rw [loadSequence, acceptsElements]
    simp only [succeeds_bind, update_apply, Prod.mk.injEq]
    rw [← succeeds_loadElements each js (List.replicate js.length start) (by simp)]
    simp
  | _ => exact (returns_throw _).congr (by simp [acceptsElements])

theorem returns_loadEmplaced {load : Load α} {accepts : Json → Bool} {emplace start}
    (each : ∀ j, Returns (load j) (accepts j = true)) (js : List Json) :
    Returns (loadSet.loadEmplaced emplace start load js) (js.all accepts = true) := by
  induction js with
  | nil => exact (returns_pure ()).congr (by simp)
  | cons j js ih =>
    exact ((returns_fresh (each j)).bind fun x => (returns_update (emplace x)).bind fun _ => ih).congr
      (by simp)

theorem returns_loadSet {load : Load α} {accepts : Json → Bool} {emplace start}
    (each : ∀ j, Returns (load j) (accepts j = true)) (v : Json) :
    Returns (loadSet emplace start load v) (acceptsElements accepts v = true) := by
  cases v with
  | array js =>
    exact ((returns_update _).bind fun _ => returns_loadEmplaced each js).congr
      (by simp [acceptsElements])
  | _ => exact (returns_throw _).congr (by simp [acceptsElements])

theorem returns_loadString (v : Json) :
    Returns (assign (fun x _ => x) (loadString v) : Loading LoadError Text Unit)
      (acceptsString v = true) := by
  have known : (∃ t, loadString v = .ok t) ↔ acceptsString v = true := by
    rw [loadString_ok_iff, acceptsString, Bool.or_eq_true]
  exact (returns_assign _ _).congr known

theorem returns_loadEntries {load : Load α} {accepts : Json → Bool}
    (each : ∀ j, Returns (load j) (accepts j = true)) (start : α) (js : List Json) :
    Returns (loadEntries start load js) (js.all (acceptsPair acceptsString accepts) = true) := by
  induction js with
  | nil => exact (returns_pure ()).congr (by simp)
  | cons j js ih =>
    exact ((returns_fresh (returns_loadPair returns_loadString each j)).bind
      fun entry => (returns_update _).bind fun _ => ih).congr (by simp)

theorem returns_loadMembers {load : Load α} {accepts : Json → Bool}
    (each : ∀ j, Returns (load j) (accepts j = true)) (view : Text → τ → α) (put : Text → α → τ → τ)
    (members : Json.Members) :
    Returns (loadMembers view put load members)
      (members.all (fun member => accepts member.2) = true) := by
  induction members with
  | nil => exact (returns_pure ()).congr (by simp)
  | cons member rest ih =>
    exact ((returns_zoom (each member.2)).bind fun _ => ih).congr (by simp)

theorem returns_loadMap {load : Load α} {accepts : Json → Bool}
    (each : ∀ j, Returns (load j) (accepts j = true)) (start : α) (v : Json) :
    Returns (loadMap start load v)
      ((acceptsElements (acceptsPair acceptsString accepts) v || acceptsMembers accepts v) = true) := by
  cases v with
  | array js =>
    exact (returns_loadEntries each start js).congr (by simp [acceptsElements, acceptsMembers])
  | object members =>
    exact ((returns_update _).bind fun _ => returns_loadMembers each _ _ members).congr
      (by simp [acceptsElements, acceptsMembers])
  | _ => exact (returns_throw _).congr (by simp [acceptsElements, acceptsMembers])

theorem returns_loadUnorderedMap {load : Load α} {accepts : Json → Bool}
    (each : ∀ j, Returns (load j) (accepts j = true)) (start : α) (v : Json) :
    Returns (loadUnorderedMap start load v) (acceptsMembers accepts v = true) := by
  cases v with
  | object members =>
    exact ((returns_update _).bind fun _ => returns_loadMembers each _ _ members).congr
      (by simp [acceptsMembers])
  | _ => exact (returns_throw _).congr (by simp [acceptsMembers])

theorem returns_loadArray {load : Load α} {accepts : Json → Bool}
    (each : ∀ j, Returns (load j) (accepts j = true)) (n : Nat) (js : List Json) :
    Returns (loadArray n load (.array js)) ((js.length == n && js.all accepts) = true) := by
  by_cases same : js.length = n
  · intro t
    rw [Bool.and_eq_true, ← succeeds_loadElements each js t.val (same.trans t.property.symm)]
    rw [loadArray_same same]
    simp [same, loadFixed, Succeeds]
  · obtain ⟨e, thrown⟩ := loadArray_other load same
    rw [thrown]
    exact (returns_throw e).congr (by simp [same])

/-- Success is decided by the JSON value alone. -/
theorem returns_loadJsonValue (platform : Platform) (ty : Ty) (v : Json) :
    Returns (loadJsonValue platform ty v) (ty.accepts platform v = true) := by
  induction ty generalizing v with
  | string => exact returns_loadString v
  | integer type =>
    have known : (∃ x, loadInteger type v = .ok x) ↔ (Ty.integer type).accepts platform v = true := by
      unfold loadInteger IntegerOverload.load Ty.accepts
      by_cases number : type.overload.number v = true
      · simp [number]
      · cases v with
        | string s => cases cast : lexicalCast type.overload.lexical (cString s) <;> simp [number, cast]
        | _ => simp [number]
    rw [← known]
    exact returns_assign _ _
  | bool =>
    have known : (∃ x, loadBool v = .ok x) ↔ Ty.bool.accepts platform v = true := by
      unfold loadBool Ty.accepts
      by_cases int : v.isInt = true
      · simp [int, em]
      · cases v with
        | string s => cases cast : lexicalCastBool (cString s) <;> simp [int, cast]
        | _ => simp [int]
    rw [← known]
    exact returns_assign _ _
  | double =>
    have known : (∃ x, loadDouble platform v = .ok x) ↔ Ty.double.accepts platform v = true := by
      unfold loadDouble Ty.accepts
      cases v with
      | string s => cases cast : platform.lexicalDouble (cString s) <;> simp [Json.getDouble?, cast]
      | _ => simp [Json.getDouble?]
    rw [← known]
    exact returns_assign _ _
  | pair a b first second => exact returns_loadPair first second v
  | vector a each => exact returns_loadSequence each _ _ v
  | deque a each => exact returns_loadSequence each _ _ v
  | set a each => exact returns_loadSet each v
  | unorderedSet a each => exact returns_loadSet each v
  | map a each => exact returns_loadMap each _ v
  | unorderedMap a each => exact returns_loadUnorderedMap each _ v
  | array a n each =>
    cases v with
    | array js => exact returns_loadArray each n js
    | _ => exact (returns_throw _).congr (by simp [Ty.accepts])
  | optional a each =>
    simp only [loadJsonValue, loadOptional, Ty.accepts]
    split
    · rename_i null
      exact (returns_update _).congr (by simp [null])
    · rename_i notNull
      exact ((returns_fresh (each v)).bind fun x => returns_update fun _ => some x).congr
        (by simp [notNull])

theorem agree_loadElements {load : Load α} (js : List Json)
    (each : ∀ j ∈ js, Agree (fun _ _ => True) (load j) (· = ·)) :
    Agree (fun s t => s.length = js.length ∧ t.length = js.length) (loadElements load js) (· = ·) := by
  induction js with
  | nil =>
    rintro s t ⟨left, right⟩
    obtain rfl := List.length_eq_zero_iff.mp left
    obtain rfl := List.length_eq_zero_iff.mp right
    exact .inl ⟨(), [], [], rfl, rfl, rfl⟩
  | cons j js ih =>
    rintro (_ | ⟨s, ss⟩) (_ | ⟨t, ts⟩) ⟨left, right⟩
    · simp at left
    · simp at left
    · simp at right
    rcases each j List.mem_cons_self s t trivial with
      ⟨_, s', t', first, second, rfl⟩ | ⟨e, f, s', t', first, second⟩
    · rcases ih (fun j later => each j (List.mem_cons_of_mem _ later)) ss ts
          ⟨by simpa using left, by simpa using right⟩ with
        ⟨_, ss', ts', third, fourth, rfl⟩ | ⟨e, f, ss', ts', third, fourth⟩
      · exact .inl ⟨(), s' :: ss', s' :: ss', by simp [loadElements, first, third],
          by simp [loadElements, second, fourth], rfl⟩
      · exact .inr ⟨e, f, s' :: ss', s' :: ts', by simp [loadElements, first, third],
          by simp [loadElements, second, fourth]⟩
    · exact .inr ⟨e, f, s' :: ss, t' :: ts, by simp [loadElements, first],
        by simp [loadElements, second]⟩

theorem agree_loadArray {load : Load α} {n : Nat} (js : List Json)
    (each : ∀ j ∈ js, Agree (fun _ _ => True) (load j) (· = ·)) :
    Agree (fun _ _ => True) (loadArray n load (.array js)) (· = ·) := by
  by_cases same : js.length = n
  · rw [loadArray_same same]
    rintro s t -
    rcases agree_loadElements js each s.val t.val
        ⟨s.property.trans same.symm, t.property.trans same.symm⟩ with
      ⟨_, s', t', left, right, rfl⟩ | ⟨e, f, s', t', left, right⟩
    · refine .inl ⟨(), (loadFixed n load js s).2, (loadFixed n load js t).2, ?_, ?_, ?_⟩
      · exact Prod.ext (by simp [loadFixed, left]) rfl
      · exact Prod.ext (by simp [loadFixed, right]) rfl
      · exact Subtype.ext (by simp [loadFixed, left, right])
    · refine .inr ⟨e, f, (loadFixed n load js s).2, (loadFixed n load js t).2, ?_, ?_⟩
      · exact Prod.ext (by simp [loadFixed, left]) rfl
      · exact Prod.ext (by simp [loadFixed, right]) rfl
  · obtain ⟨e, thrown⟩ := loadArray_other load same
    rw [thrown]
    exact agree_throw e

theorem agree_loadJsonValue (platform : Platform) (ty : Ty) (v : Json) (sheltered : ty.exposed v = false) :
    Agree (fun _ _ => True) (loadJsonValue platform ty v) (· = ·) := by
  have overwritten : ∀ {α : Type} (outcome : Except LoadError α),
      Agree (fun _ _ => True) (assign (fun x _ => x) outcome) (· = ·) :=
    fun outcome => agree_assign (fun _ _ _ _ => rfl) outcome
  induction ty generalizing v with
  | string | integer type | bool | double => exact overwritten _
  | pair a b first second =>
    simp only [loadJsonValue, loadPair]
    split
    · rename_i x y
      rw [Ty.exposed, exposedPair, Bool.or_eq_false_iff] at sheltered
      have head : Agree (fun _ _ => True) (zoom Prod.fst (fun a t => (a, t.2)) (loadJsonValue platform a x))
          (fun s t : a.Val × b.Val => s.1 = t.1) :=
        agree_zoom (first x sheltered.1) (fun _ _ _ => trivial) (fun _ _ _ _ _ same => same)
      refine head.bind fun _ => agree_zoom (second y sheltered.2) (fun _ _ _ => trivial) ?_
      rintro ⟨s, _⟩ ⟨t, _⟩ x y same rfl
      exact Prod.ext same rfl
    · exact agree_throw _
    · exact agree_throw _
  | array a n each =>
    cases v with
    | array js =>
      rw [Ty.exposed, exposedElements, List.any_eq_false] at sheltered
      exact agree_loadArray js fun j member => each j (by simpa using sheltered j member)
    | _ => exact agree_throw _
  | map a each =>
    cases v with
    | array js => simp [Ty.exposed, Json.isArray] at sheltered
    | object members => exact agree_reset_bind _ _
    | _ => exact agree_throw _
  | vector a | deque a | set a | unorderedSet a =>
    cases v with
    | array js => exact agree_reset_bind _ _
    | _ => exact agree_throw _
  | unorderedMap a =>
    cases v with
    | object members => exact agree_reset_bind _ _
    | _ => exact agree_throw _
  | optional a =>
    simp only [loadJsonValue, loadOptional]
    split
    · exact agree_reset _
    · exact (agree_lift _).bind fun x => agree_reset (some x)

theorem loadEntries_keeps {load : Load α} (js : List Json) (t : SortedMap Text α)
    (present : t.find? key ≠ none) : (loadEntries start load js t).2.find? key ≠ none := by
  induction js generalizing t with
  | nil => exact present
  | cons j js ih =>
    rw [loadEntries, bind_apply, lift_apply]
    split
    · rename_i entry s ran
      rw [bind_apply, update_apply]
      refine ih _ ?_
      obtain ⟨-, rfl⟩ := Prod.mk.inj ran
      rw [SortedMap.find?_insert]
      split
      · simp
      · exact present
    · rename_i ran
      obtain ⟨-, rfl⟩ := Prod.mk.inj ran
      exact present

theorem exists_unused (m : SortedMap Text α) : ∃ key, m.find? key = none := by
  obtain ⟨key, unused⟩ := Infinite.exists_notMem_finset m.keys.toFinset
  refine ⟨key, ?_⟩
  by_contra found
  exact unused (List.mem_toFinset.mpr ((SortedMap.mem_keys_iff m).mpr found))

theorem loadEntries_depends (start : α) (load : Load α) (js : List Json) :
    ∃ t u, (loadEntries start load js t).2 ≠ (loadEntries start load js u).2 := by
  obtain ⟨key, unused⟩ := exists_unused (loadEntries start load js SortedMap.empty).2
  refine ⟨SortedMap.empty, SortedMap.empty.insert key start, fun same => ?_⟩
  rw [same] at unused
  exact loadEntries_keeps js _ (by simp) unused

/-- The results of loading the elements of an array, when none throws. -/
theorem loadElements_eq {load : Load α} (js : List Json) (ts : List α)
    (sizes : js.length = ts.length) (succeeds : ∀ j ∈ js, ∀ t, (load j).Succeeds t) :
    (loadElements load js ts).2 = List.zipWith (fun j t => (load j t).2) js ts := by
  induction js generalizing ts with
  | nil => simpa [loadElements] using (List.length_eq_zero_iff.mp sizes.symm)
  | cons j js ih =>
    cases ts with
    | nil => simp at sizes
    | cons t ts =>
      obtain ⟨_, ran⟩ := succeeds j List.mem_cons_self t
      have later := ih ts (by simpa using sizes) fun j m => succeeds j (List.mem_cons_of_mem _ m)
      rw [List.zipWith_cons_cons, ← later]
      rcases whole : load j t with ⟨_ | _, _⟩
      · rw [whole] at ran
        contradiction
      · simp [loadElements, whole]

theorem loadPair_result {first : Load α} {second : Load β} (succeeds : (first x).Succeeds t.1) :
    (loadPair first second (.array [x, y]) t).2 = ((first x t.1).2, (second y t.2).2) := by
  obtain ⟨a, ran⟩ := succeeds
  have head : (zoom Prod.fst (fun a t => (a, t.2)) (first x) : Loading LoadError (α × β) Unit) t =
      (.ok a, ((first x t.1).2, t.2)) := Prod.ext ran rfl
  exact congrArg Prod.snd (bind_ok head)

theorem loadElements_depends {load : Load α} {t u : α} (start : α) (js later : List Json) (j : Json)
    (succeeds : ∀ k ∈ js ++ j :: later, ∀ t, (load k).Succeeds t)
    (differ : (load j t).2 ≠ (load j u).2) :
    (loadElements load (js ++ j :: later) (js.map (fun _ => start) ++ t :: later.map fun _ => start)).2 ≠
    (loadElements load (js ++ j :: later) (js.map (fun _ => start) ++ u :: later.map fun _ => start)).2 := by
  rw [loadElements_eq _ _ (by simp) succeeds, loadElements_eq _ _ (by simp) succeeds,
    List.zipWith_append (by simp), List.zipWith_append (by simp), List.zipWith_cons_cons,
    List.zipWith_cons_cons]
  simpa using differ

theorem depends_of_exposed (platform : Platform) (ty : Ty) (v : Json)
    (accepted : ty.accepts platform v = true) (exposed : ty.exposed v = true) :
    ∃ t u, (loadJsonValue platform ty v t).2 ≠ (loadJsonValue platform ty v u).2 := by
  have returns := fun (ty : Ty) (v : Json) => returns_loadJsonValue platform ty v
  induction ty generalizing v with
  | map a =>
    cases v with
    | array js => exact loadEntries_depends _ _ js
    | _ => simp [Ty.exposed, Json.isArray] at exposed
  | pair a b first second =>
    rw [Ty.exposed] at exposed
    unfold exposedPair at exposed
    split at exposed
    · rename_i x y
      simp only [Ty.accepts, acceptsPair, Bool.and_eq_true] at accepted
      have result : ∀ t : a.Val × b.Val, (loadJsonValue platform (.pair a b) (.array [x, y]) t).2 =
          ((loadJsonValue platform a x t.1).2, (loadJsonValue platform b y t.2).2) :=
        fun t => loadPair_result ((returns a x t.1).mpr accepted.1)
      rcases (Bool.or_eq_true _ _).mp exposed with left | right
      · obtain ⟨t, u, differ⟩ := first x accepted.1 left
        exact ⟨(t, b.initial), (u, b.initial), by rw [result, result]; simpa using differ⟩
      · obtain ⟨t, u, differ⟩ := second y accepted.2 right
        exact ⟨(a.initial, t), (a.initial, u), by rw [result, result]; simpa using differ⟩
    · contradiction
  | array a n each =>
    cases v with
    | array js =>
      simp only [Ty.accepts, Bool.and_eq_true, beq_iff_eq] at accepted
      obtain ⟨size, all⟩ := accepted
      obtain ⟨j, member, exposed⟩ := List.any_eq_true.mp exposed
      obtain ⟨t, u, differ⟩ := each j (List.all_eq_true.mp all j member) exposed
      obtain ⟨before, later, rfl⟩ := List.append_of_mem member
      have succeeds : ∀ k ∈ before ++ j :: later, ∀ t, (loadJsonValue platform a k).Succeeds t :=
        fun k inside t => (returns a k t).mpr (List.all_eq_true.mp all k inside)
      have differs := loadElements_depends a.initial before later j succeeds differ
      refine ⟨⟨before.map (fun _ => a.initial) ++ t :: later.map fun _ => a.initial, by simpa using size⟩,
        ⟨before.map (fun _ => a.initial) ++ u :: later.map fun _ => a.initial, by simpa using size⟩,
        fun same => differs ?_⟩
      have equal := congrArg Subtype.val same
      simpa [loadJsonValue, loadArray_same size, loadFixed] using equal
    | _ => simp [Ty.exposed, exposedElements] at exposed
  | _ => simp [Ty.exposed] at exposed

/-- Two loads of one JSON value both throw or both leave the same value. -/
def TargetIndependent (platform : Platform) (ty : Ty) (v : Json) : Prop :=
  ∀ t u, ((loadJsonValue platform ty v).Succeeds t ↔ (loadJsonValue platform ty v).Succeeds u) ∧
    ((loadJsonValue platform ty v).Succeeds t →
      (loadJsonValue platform ty v t).2 = (loadJsonValue platform ty v u).2)

/-- The earlier contents show exactly in the accepted values that hand a list to a map
inside pairs and fixed arrays only. -/
theorem targetIndependent_iff (platform : Platform) (ty : Ty) (v : Json) :
    TargetIndependent platform ty v ↔ ¬(ty.accepts platform v = true ∧ ty.exposed v = true) := by
  have returns := returns_loadJsonValue platform ty v
  constructor
  · rintro independent ⟨accepted, exposed⟩
    obtain ⟨t, u, differ⟩ := depends_of_exposed platform ty v accepted exposed
    exact differ ((independent t u).2 ((returns t).mpr accepted))
  · intro sheltered t u
    refine ⟨(returns t).trans (returns u).symm, fun succeeds => ?_⟩
    have hidden : ty.exposed v = false := by
      simpa using fun exposed => sheltered ⟨(returns t).mp succeeds, exposed⟩
    rcases agree_loadJsonValue platform ty v hidden t u trivial with
      ⟨_, s, r, left, right, same⟩ | ⟨e, _, _, _, left, _⟩
    · rw [left, right]
      exact same
    · obtain ⟨_, ran⟩ := succeeds
      simp [left] at ran

/-- `[["b", true]]` loaded over a map that has an entry `a`. -/
theorem targetIndependent_stale_entry :
    ¬∀ (platform : Platform) (ty : Ty) (v : Json), TargetIndependent platform ty v := by
  intro independent
  let v := Json.array [.array [.string (lit "b"), .bool true]]
  have same := (independent default (.map .bool) v SortedMap.empty
    (SortedMap.empty.insert (lit "a") false)).2 ⟨(), by decide⟩
  exact absurd same (by decide)

end MujinClient
