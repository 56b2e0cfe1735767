import MujinClient.Loading

/-! Computations that read values or write one value under several keys, one after the other, and may
throw on the way. What was written by then are the first of the keys. -/
namespace MujinClient

section

variable {K V : Type} [DecidableEq K]

/-- The values, with this one under all the keys. -/
def overwritten (values : K → V) (keys : List K) (v : V) : K → V := fun k => if k ∈ keys then v else values k

@[simp] theorem overwritten_nil (values : K → V) (v : V) : overwritten values [] v = values := by
  funext k
  simp [overwritten]

theorem overwritten_append (values : K → V) (first second : List K) (v : V) :
    overwritten (overwritten values first v) second v = overwritten values (first ++ second) v := by
  funext k
  by_cases early : k ∈ first <;> by_cases late : k ∈ second <;> simp [overwritten, early, late]

theorem overwritten_singleton (values : K → V) (key : K) (v : V) :
    overwritten values [key] v = Function.update values key v := by
  funext k
  by_cases same : k = key <;> simp [overwritten, same]

end

namespace Loading

variable {ε σ τ α β K V : Type} {ready : σ → Prop} {p : Loading ε σ α}

/-- The run changes no value, and what it returns is as `post` says of the values. -/
def Observes (ready : σ → Prop) (values : σ → τ) (post : τ → α → Prop) (p : Loading ε σ α) : Prop :=
  ∀ s, ready s → ready (p s).2 ∧ values (p s).2 = values s ∧ ∀ a, (p s).1 = .ok a → post (values s) a

theorem observes_lift {values : σ → τ} {post : τ → α → Prop} {outcome : Except ε α}
    (holds : ∀ t a, outcome = .ok a → post t a) :
    Observes ready values post (lift outcome : Loading ε σ α) :=
  fun _ held => ⟨held, rfl, fun a returned => holds _ a returned⟩

theorem Observes.bind {values : σ → τ} {mid : τ → α → Prop} {post : τ → β → Prop} {q : α → Loading ε σ β}
    (first : Observes ready values mid p)
    (rest : ∀ t a, mid t a → Observes ready values (fun u b => u = t → post u b) (q a)) :
    Observes ready values post (p >>= q) := by
  intro s held
  obtain ⟨left, same, returns⟩ := first s held
  rcases ran : p s with ⟨e | a, middle⟩ <;> rw [ran] at left same returns
  · rw [bind_error ran]
    exact ⟨left, same, fun b impossible => by cases impossible⟩
  · rw [bind_ok ran]
    obtain ⟨leftLater, sameLater, returnsLater⟩ := rest (values s) a (returns a rfl) middle left
    refine ⟨leftLater, sameLater.trans same, fun b returned => ?_⟩
    have result := returnsLater b returned same
    rwa [show values middle = values s from same] at result

theorem Observes.mono {values : σ → τ} {stronger weaker : τ → α → Prop}
    (observes : Observes ready values stronger p)
    (implies : ∀ t a, stronger t a → weaker t a) : Observes ready values weaker p := by
  intro s held
  obtain ⟨left, same, returns⟩ := observes s held
  exact ⟨left, same, fun a returned => implies _ a (returns a returned)⟩

variable [DecidableEq K] {values : σ → K → V} {v : V} {keys more : List K} {post : α → Prop}

/-- However the run ends, the value is under the first keys and nothing else has changed; if it returns,
then under all the keys, with a result as `post` says. -/
def Stages (ready : σ → Prop) (values : σ → K → V) (v : V) (keys : List K) (post : α → Prop)
    (p : Loading ε σ α) : Prop :=
  ∀ s, ready s → ready (p s).2 ∧ ∃ written, written <+: keys ∧ values (p s).2 = overwritten (values s) written v ∧
    ∀ a, (p s).1 = .ok a → written = keys ∧ post a

theorem stages_pure {a : α} (holds : post a) : Stages ready values v [] post (pure a : Loading ε σ α) := by
  intro s held
  refine ⟨held, [], List.prefix_rfl, (overwritten_nil _ _).symm, fun b same => ⟨rfl, ?_⟩⟩
  obtain rfl := Except.ok.inj same
  exact holds

theorem Observes.stages (observes : Observes ready values (fun _ => post) p) :
    Stages ready values v [] post p := by
  intro s held
  obtain ⟨left, same, returns⟩ := observes s held
  refine ⟨left, [], List.prefix_rfl, ?_, fun a returned => ⟨rfl, returns a returned⟩⟩
  rw [overwritten_nil, same]

theorem Stages.bind {mid : α → Prop} {result : β → Prop} {q : α → Loading ε σ β}
    (first : Stages ready values v keys mid p)
    (rest : ∀ a, mid a → Stages ready values v more result (q a)) :
    Stages ready values v (keys ++ more) result (p >>= q) := by
  intro s held
  obtain ⟨left, written, early, changed, returns⟩ := first s held
  rcases ran : p s with ⟨e | a, middle⟩ <;> rw [ran] at left changed returns
  · rw [bind_error ran]
    exact ⟨left, written, early.trans (List.prefix_append _ _), changed, fun b impossible => by cases impossible⟩
  · rw [bind_ok ran]
    obtain ⟨rfl, holds⟩ := returns a rfl
    obtain ⟨leftLater, later, upTo, changedLater, returnsLater⟩ := rest a holds middle left
    refine ⟨leftLater, written ++ later, (List.prefix_append_right_inj written).mpr upTo, ?_, fun b returned => ?_⟩
    · rw [changedLater, show values middle = _ from changed, overwritten_append]
    · obtain ⟨rfl, final⟩ := returnsLater b returned
      exact ⟨rfl, final⟩

theorem Stages.followed {q : α → β} (first : Stages ready values v keys post p) :
    Stages ready values v keys (fun _ => True) (p >>= fun a => pure (q a)) := by
  have both : Stages ready values v (keys ++ []) (fun _ => True) (p >>= fun a => pure (q a)) :=
    first.bind fun _ _ => stages_pure trivial
  rwa [List.append_nil] at both

/-- A single write, which has happened if the run returns. -/
theorem stages_single {key : K} (left : ∀ s, ready s → ready (p s).2)
    (either : ∀ s, ready s → values (p s).2 = Function.update (values s) key v ∨ values (p s).2 = values s ∧
      ∃ e, (p s).1 = .error e)
    (holds : ∀ s a, (p s).1 = .ok a → post a) : Stages ready values v [key] post p := by
  intro s held
  refine ⟨left s held, ?_⟩
  rcases either s held with set | ⟨kept, e, failed⟩
  · refine ⟨[key], List.prefix_rfl, ?_, fun a returned => ⟨rfl, holds s a returned⟩⟩
    rw [set, overwritten_singleton]
  · refine ⟨[], List.nil_prefix, ?_, fun a returned => ?_⟩
    · rw [kept, overwritten_nil]
    · rw [failed] at returned
      cases returned

/-- A loop that writes a block of keys in each turn. -/
theorem stages_loop {xs : List β} {blocks : List (List K)} {turn : β → Loading ε σ Unit}
    (each : List.Forall₂ (fun x block => Stages ready values v block (fun _ => True) (turn x)) xs blocks) :
    Stages ready values v blocks.flatten (fun _ => True) (xs.forM turn) := by
  induction each with
  | nil => exact stages_pure trivial
  | cons first _ ih => exact first.bind fun _ _ => ih

end Loading

end MujinClient
