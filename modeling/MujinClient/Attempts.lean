import MujinClient.StagedWrites

/-! Computations that relate the state in which they end to the one in which they start, attempts that
are made one after the other, whatever becomes of each, and computations that keep a log. -/
namespace MujinClient

namespace Loading

variable {ε σ τ α β ι : Type} {ready : σ → Prop} {view : σ → τ} {R : τ → τ → Prop} {p : Loading ε σ α}

/-- The run relates what is seen of the two states, and what it returns is as `post` says of them. -/
def Relates (ready : σ → Prop) (view : σ → τ) (R : τ → τ → Prop) (post : τ → τ → α → Prop)
    (p : Loading ε σ α) : Prop :=
  ∀ s, ready s → ready (p s).2 ∧ R (view s) (view (p s).2) ∧ ∀ a, (p s).1 = .ok a → post (view s) (view (p s).2) a

theorem relates_lift {post : τ → τ → α → Prop} {outcome : Except ε α} (refl : ∀ t, R t t)
    (holds : ∀ t a, outcome = .ok a → post t t a) :
    Relates ready view R post (lift outcome : Loading ε σ α) :=
  fun _ held => ⟨held, refl _, fun a returned => holds _ a returned⟩

theorem Relates.mono {Q : τ → τ → Prop} {stronger weaker : τ → τ → α → Prop}
    (relates : Relates ready view R stronger p)
    (wider : ∀ t u, R t u → Q t u) (implies : ∀ t u a, R t u → stronger t u a → weaker t u a) :
    Relates ready view Q weaker p := by
  intro s held
  obtain ⟨left, related, returns⟩ := relates s held
  exact ⟨left, wider _ _ related, fun a returned => implies _ _ a related (returns a returned)⟩

theorem Observes.bind_relates {mid : τ → α → Prop} {post : τ → τ → β → Prop} {q : α → Loading ε σ β}
    (refl : ∀ t, R t t) (first : Observes ready view mid p)
    (rest : ∀ t a, mid t a → Relates ready view (fun t' u => t = t' → R t u)
      (fun t' u b => t = t' → post t u b) (q a)) :
    Relates ready view R post (p >>= q) := by
  intro s held
  obtain ⟨left, same, returns⟩ := first s held
  rcases ran : p s with ⟨e | a, middle⟩ <;> rw [ran] at left same returns
  · rw [bind_error ran]
    refine ⟨left, ?_, fun b impossible => by cases impossible⟩
    rw [show view middle = view s from same]
    exact refl _
  · rw [bind_ok ran]
    obtain ⟨leftLater, related, returnsLater⟩ := rest (view s) a (returns a rfl) middle left
    exact ⟨leftLater, related (Eq.symm same), fun b returned => returnsLater b returned (Eq.symm same)⟩

theorem Relates.then_lift {mid : τ → τ → α → Prop} {post : τ → τ → β → Prop} {q : α → Except ε β}
    (first : Relates ready view R mid p) (made : ∀ t u a b, mid t u a → q a = .ok b → post t u b) :
    Relates ready view R post (p >>= fun a => lift (q a)) := by
  intro s held
  obtain ⟨left, related, returns⟩ := first s held
  rcases ran : p s with ⟨e | a, middle⟩ <;> rw [ran] at left related returns
  · rw [bind_error ran]
    exact ⟨left, related, fun b impossible => by cases impossible⟩
  · rw [bind_ok ran]
    exact ⟨left, related, fun b returned => made _ _ a b (returns a rfl) returned⟩

def attempts : List (Loading ε σ α) → σ → List (Except ε α) × σ
  | [], s => ([], s)
  | p :: ps, s =>
    let done := p s
    let later := attempts ps done.2
    (done.1 :: later.1, later.2)

/-- The relation holds over all attempts together, and what each has returned still holds at the end. -/
theorem attempts_relate {op : ι → Loading ε σ α} {made : ι → τ → α → Prop} {xs : List ι} (refl : ∀ t, R t t)
    (trans : ∀ t u v, R t u → R u v → R t v) (stable : ∀ x t u a, R t u → made x t a → made x u a)
    (each : ∀ x ∈ xs, Relates ready view R (fun _ => made x) (op x)) {s : σ} (held : ready s) :
    ready (attempts (xs.map op) s).2 ∧ R (view s) (view (attempts (xs.map op) s).2) ∧
      List.Forall₂ (fun x outcome => ∀ a, outcome = .ok a → made x (view (attempts (xs.map op) s).2) a) xs
        (attempts (xs.map op) s).1 := by
  induction xs generalizing s with
  | nil => exact ⟨held, refl _, .nil⟩
  | cons x xs ih =>
    obtain ⟨left, related, returns⟩ := each x List.mem_cons_self s held
    obtain ⟨leftLater, relatedLater, returnsLater⟩ :=
      ih (fun y later => each y (List.mem_cons_of_mem _ later)) left
    refine ⟨leftLater, trans _ _ _ related relatedLater, .cons (fun a returned => ?_) returnsLater⟩
    exact stable x _ _ a relatedLater (returns a returned)

section

variable {C : Type} {log : σ → List C}

/-- What the run says comes after what was said before, and goes with its outcome as `L` allows. -/
def Speaks (ready : σ → Prop) (log : σ → List C) (L : List C → Except ε α → Prop) (p : Loading ε σ α) : Prop :=
  ∀ s, ready s → ready (p s).2 ∧ ∃ said, log (p s).2 = log s ++ said ∧ L said (p s).1

theorem speaks_lift (outcome : Except ε α) :
    Speaks ready log (fun said ended => said = [] ∧ ended = outcome) (lift outcome : Loading ε σ α) :=
  fun _ held => ⟨held, [], (List.append_nil _).symm, rfl, rfl⟩

theorem Speaks.mono {L M : List C → Except ε α → Prop} (speaks : Speaks ready log L p)
    (wider : ∀ said outcome, L said outcome → M said outcome) : Speaks ready log M p := by
  intro s held
  obtain ⟨left, said, logged, allowed⟩ := speaks s held
  exact ⟨left, said, logged, wider _ _ allowed⟩

theorem Speaks.bind {q : α → Loading ε σ β} {L : List C → Except ε α → Prop} {M : α → List C → Except ε β → Prop}
    {N : List C → Except ε β → Prop} (first : Speaks ready log L p) (rest : ∀ a, Speaks ready log (M a) (q a))
    (threw : ∀ said e, L said (.error e) → N said (.error e))
    (returned : ∀ said a more outcome, L said (.ok a) → M a more outcome → N (said ++ more) outcome) :
    Speaks ready log N (p >>= q) := by
  intro s held
  obtain ⟨left, said, logged, allowed⟩ := first s held
  rcases ran : p s with ⟨e | a, middle⟩ <;> rw [ran] at left logged allowed
  · rw [bind_error ran]
    exact ⟨left, said, logged, threw said e allowed⟩
  · rw [bind_ok ran]
    obtain ⟨leftLater, more, loggedLater, allowedLater⟩ := rest a middle left
    refine ⟨leftLater, said ++ more, ?_, returned said a more _ allowed allowedLater⟩
    rw [loggedLater, show log middle = _ from logged, List.append_assoc]

end

end Loading

end MujinClient
