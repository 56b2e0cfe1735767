import Mathlib

/-! Finite runs of a partial step function over a list of events. An event that is
impossible in a state has no successor, so a run exists only for event lists the
machine can perform. -/
namespace MujinClient.Transition

/-- The state after performing the events in order, if every one of them is possible. -/
def run (step : σ → ε → Option σ) : σ → List ε → Option σ
  | s, [] => some s
  | s, event :: rest => (step s event).bind (fun next => run step next rest)

/-- Every step of the run satisfies `ok` in the state it starts from. -/
def Meets (ok : σ → ε → Prop) (step : σ → ε → Option σ) : σ → List ε → Prop
  | _, [] => True
  | s, event :: rest => ok s event ∧ ∀ next, step s event = some next → Meets ok step next rest

instance decidableMeets (ok : σ → ε → Prop) (step : σ → ε → Option σ) [∀ s event, Decidable (ok s event)] :
    (s : σ) → (events : List ε) → Decidable (Meets ok step s events)
  | _, [] => .isTrue trivial
  | s, event :: rest =>
    match taken : step s event with
    | none => decidable_of_iff (ok s event) (by simp [Meets, taken])
    | some next =>
      have := decidableMeets ok step next rest
      decidable_of_iff (ok s event ∧ Meets ok step next rest) (by simp [Meets, taken])

variable {step : σ → ε → Option σ} {ok : σ → ε → Prop}

@[simp] theorem run_nil : run step s [] = some s := rfl

@[simp] theorem run_cons :
    run step s (event :: rest) = (step s event).bind (fun next => run step next rest) := rfl

theorem run_append (first second : List ε) :
    run step s (first ++ second) = (run step s first).bind (fun middle => run step middle second) := by
  induction first generalizing s with
  | nil => rfl
  | cons event rest ih =>
    cases taken : step s event with
    | none => simp [taken]
    | some next => simp [taken, ih]

theorem meets_append {first second : List ε} : Meets ok step s (first ++ second) ↔
    Meets ok step s first ∧ ∀ middle, run step s first = some middle → Meets ok step middle second := by
  induction first generalizing s with
  | nil => simp [Meets]
  | cons event rest ih =>
    cases taken : step s event with
    | none => simp [Meets, taken]
    | some next => simp [Meets, taken, ih, and_assoc]

theorem meets_of_forall {events : List ε} (always : ∀ event ∈ events, ∀ s, ok s event) :
    Meets ok step s events := by
  induction events generalizing s with
  | nil => trivial
  | cons event rest ih =>
    exact ⟨always event List.mem_cons_self s, fun _ _ => ih fun other member =>
      always other (List.mem_cons_of_mem event member)⟩

/-- The condition at each event of the run, in the state that the events before it lead to. -/
theorem meets_iff_prefix {events : List ε} :
    Meets ok step s events ↔ ∀ before event, before ++ [event] <+: events →
    ∀ reached, run step s before = some reached → ok reached event := by
  induction events generalizing s with
  | nil => simp [Meets]
  | cons first rest ih =>
    constructor
    · rintro ⟨guard, later⟩ before event within reached ran
      cases before with
      | nil =>
        obtain ⟨rfl, -⟩ := List.cons_prefix_cons.mp within
        exact Option.some.inj ran ▸ guard
      | cons _ before =>
        obtain ⟨rfl, inner⟩ := List.cons_prefix_cons.mp within
        obtain ⟨next, taken, ran⟩ := Option.bind_eq_some_iff.mp ran
        exact ih.mp (later next taken) before event inner reached ran
    · intro each
      refine ⟨each [] first (List.cons_prefix_cons.mpr ⟨rfl, List.nil_prefix⟩) s rfl, fun next taken => ih.mpr ?_⟩
      intro before event within reached ran
      exact each (first :: before) event (List.cons_prefix_cons.mpr ⟨rfl, within⟩) reached
        (by simpa [taken] using ran)

theorem meets_congr {guard : σ → ε → Prop} (invariant : σ → Prop)
    (preserved : ∀ s event next, invariant s → step s event = some next → invariant next)
    (same : ∀ s event, invariant s → (ok s event ↔ guard s event)) {events : List ε} (start : invariant s) :
    Meets ok step s events ↔ Meets guard step s events := by
  induction events generalizing s with
  | nil => exact Iff.rfl
  | cons event rest ih =>
    exact and_congr (same s event start) (forall₂_congr fun next taken => ih (preserved s event next start taken))

/-- Where the guard says exactly which steps keep a relation to a machine that follows the events,
a run meets it exactly when every state on the way is related to what that machine has come to. -/
theorem meets_iff_simulates {τ : Type} (follow : τ → ε → τ) (relation : σ → τ → Prop)
    (exact : ∀ s a event, relation s a →
      (ok s event ↔ ∀ next, step s event = some next → relation next (follow a event)))
    {events : List ε} (a : τ) (start : relation s a) : Meets ok step s events ↔
      ∀ before, before <+: events → ∀ reached, run step s before = some reached →
        relation reached (before.foldl follow a) := by
  induction events generalizing s a with
  | nil =>
    refine iff_of_true trivial fun before first reached ran => ?_
    obtain rfl := List.prefix_nil.mp first
    exact Option.some.inj ran ▸ start
  | cons event rest ih =>
    constructor
    · rintro ⟨guard, later⟩ before first reached ran
      cases before with
      | nil => exact Option.some.inj ran ▸ start
      | cons _ before =>
        obtain ⟨rfl, within⟩ := List.cons_prefix_cons.mp first
        obtain ⟨next, taken, ran⟩ := Option.bind_eq_some_iff.mp ran
        exact (ih _ ((exact s a _ start).mp guard next taken)).mp (later next taken) before within reached ran
    · intro kept
      have first (next : σ) (taken : step s event = some next) : relation next (follow a event) :=
        kept [event] (List.cons_prefix_cons.mpr ⟨rfl, List.nil_prefix⟩) next (by simp [taken])
      refine ⟨(exact s a event start).mpr first, fun next taken =>
        (ih _ (first next taken)).mpr fun before within reached ran => ?_⟩
      exact kept (event :: before) (List.cons_prefix_cons.mpr ⟨rfl, within⟩) reached (by simpa [taken] using ran)

/-- Where the guard says exactly which steps keep an invariant, a run meets it exactly when every
state on the way has the invariant. -/
theorem meets_iff (invariant : σ → Prop)
    (exact : ∀ s event, invariant s → (ok s event ↔ ∀ next, step s event = some next → invariant next))
    {events : List ε} (start : invariant s) : Meets ok step s events ↔
      ∀ before, before <+: events → ∀ reached, run step s before = some reached → invariant reached :=
  meets_iff_simulates (fun () _ => ()) (fun s _ => invariant s) (fun s _ => exact s) () start

/-- What a guarded step preserves, a run whose steps all meet the guard preserves. -/
theorem run_invariant (invariant : σ → Prop)
    (preserved : ∀ s event next, invariant s → ok s event → step s event = some next → invariant next)
    (start : invariant s) (meets : Meets ok step s events) (ran : run step s events = some final) :
    invariant final := by
  induction events generalizing s with
  | nil =>
    simp only [run_nil, Option.some.injEq] at ran
    exact ran ▸ start
  | cons event rest ih =>
    obtain ⟨guard, later⟩ := meets
    rw [run_cons, Option.bind_eq_some_iff] at ran
    obtain ⟨next, taken, ran⟩ := ran
    exact ih (preserved _ _ _ start guard taken) (later next taken) ran

theorem iterate_settled {next : σ → σ} (one : next^[m] s = t) (other : next^[n] s = u) (fixed : next t = t)
    (stays : next u = u) : t = u := by
  have long : next^[n + m] s = t := by
    rw [Function.iterate_add_apply, one, Function.iterate_fixed fixed]
  have same : next^[n + m] s = u := by
    rw [Nat.add_comm, Function.iterate_add_apply, other, Function.iterate_fixed stays]
  exact long.symm.trans same

end MujinClient.Transition
