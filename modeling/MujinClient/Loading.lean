import Mathlib

/-! Computations that write to a target and may throw. What was written before a throw
stays written. Two runs of one computation are compared by relations on their targets. -/
namespace MujinClient

/-- Outcome and target after the computation. -/
def Loading (ε σ α : Type) := σ → Except ε α × σ

namespace Loading

variable {ε σ τ α β : Type}

instance : Monad (Loading ε σ) where
  pure a := fun s => (.ok a, s)
  bind p q := fun s =>
    match p s with
    | (.ok a, s) => q a s
    | (.error e, s) => (.error e, s)

/-- An outcome computed without looking at the target. -/
def lift (outcome : Except ε α) : Loading ε σ α := fun s => (outcome, s)

def throw (e : ε) : Loading ε σ α := lift (.error e)

def update (f : σ → σ) : Loading ε σ Unit := fun s => (.ok (), f s)

/-- Run on a part of the target, in place. -/
def zoom (view : σ → τ) (put : τ → σ → σ) (p : Loading ε τ α) : Loading ε σ α := fun s =>
  ((p (view s)).1, put (p (view s)).2 s)

/-- Compute a value without the target and assign it. -/
def assign (put : α → σ → σ) (outcome : Except ε α) : Loading ε σ Unit :=
  lift outcome >>= fun a => update (put a)

/-- Replace what a `catch` rethrows. -/
def mapError (f : ε → ε) (p : Loading ε σ α) : Loading ε σ α := fun s =>
  ((p s).1.mapError f, (p s).2)

def Succeeds (p : Loading ε σ α) (s : σ) : Prop := ∃ a, (p s).1 = .ok a

@[simp] theorem pure_apply : (pure a : Loading ε σ α) s = (.ok a, s) := rfl
@[simp] theorem lift_apply : (lift outcome : Loading ε σ α) s = (outcome, s) := rfl
@[simp] theorem throw_apply : (throw e : Loading ε σ α) s = (.error e, s) := rfl
@[simp] theorem update_apply : (update f : Loading ε σ Unit) s = (.ok (), f s) := rfl
@[simp] theorem zoom_apply : (zoom view put p : Loading ε σ α) s =
    ((p (view s)).1, put (p (view s)).2 s) := rfl

theorem bind_apply (p : Loading ε σ α) (q : α → Loading ε σ β) : (p >>= q) s =
    match p s with
    | (.ok a, s) => q a s
    | (.error e, s) => (.error e, s) := rfl

theorem bind_ok {p : Loading ε σ α} {q : α → Loading ε σ β} (first : p s = (.ok a, middle)) :
    (p >>= q) s = q a middle := by
  rw [bind_apply, first]

theorem bind_error {p : Loading ε σ α} {q : α → Loading ε σ β}
    (first : p s = (.error e, middle)) : (p >>= q) s = (.error e, middle) := by
  rw [bind_apply, first]

@[simp] theorem lift_ok_bind (a : α) (q : α → Loading ε σ β) : (lift (.ok a) >>= q) = q a := rfl

theorem bind_eq_ok {p : Loading ε σ α} {q : α → Loading ε σ β}
    (ran : (p >>= q) s = (.ok b, final)) :
    ∃ a middle, p s = (.ok a, middle) ∧ q a middle = (.ok b, final) := by
  rw [bind_apply] at ran
  split at ran
  · exact ⟨_, _, by assumption, ran⟩
  · simp at ran

variable {before middle after related : σ → σ → Prop} {within result : τ → τ → Prop}
  {view : σ → τ} {put : τ → σ → σ}

/-- From targets related by `before` the two runs return the same value or both throw,
and where they return their targets are related by `after`. -/
def Agree (before : σ → σ → Prop) (p : Loading ε σ α) (after : σ → σ → Prop) : Prop :=
  ∀ s t, before s t →
    (∃ a s' t', p s = (.ok a, s') ∧ p t = (.ok a, t') ∧ after s' t') ∨
    (∃ e f s' t', p s = (.error e, s') ∧ p t = (.error f, t'))

theorem Agree.weaken {p : Loading ε σ α} (agree : Agree before p after)
    (stronger : ∀ s t, earlier s t → before s t) (weaker : ∀ s t, after s t → later s t) :
    Agree earlier p later := by
  intro s t related
  rcases agree s t (stronger s t related) with ⟨a, s', t', left, right, agreed⟩ | failed
  · exact .inl ⟨a, s', t', left, right, weaker s' t' agreed⟩
  · exact .inr failed

theorem Agree.bind {p : Loading ε σ α} {q : α → Loading ε σ β} (first : Agree before p middle)
    (second : ∀ a, Agree middle (q a) after) : Agree before (p >>= q) after := by
  intro s t related
  rcases first s t related with ⟨a, s', t', left, right, agreed⟩ | ⟨e, f, s', t', left, right⟩
  · rw [bind_ok left, bind_ok right]
    exact second a s' t' agreed
  · exact .inr ⟨e, f, s', t', bind_error left, bind_error right⟩

theorem agree_lift (outcome : Except ε α) :
    Agree related (lift outcome : Loading ε σ α) related := by
  intro s t before
  cases outcome with
  | ok a => exact .inl ⟨a, s, t, rfl, rfl, before⟩
  | error e => exact .inr ⟨e, e, s, t, rfl, rfl⟩

theorem agree_throw (e : ε) : Agree before (throw e : Loading ε σ α) after :=
  fun s t _ => .inr ⟨e, e, s, t, rfl, rfl⟩

theorem agree_update (f : σ → σ) :
    Agree before (update f : Loading ε σ Unit) (fun s' t' => ∃ s t, before s t ∧ s' = f s ∧ t' = f t) :=
  fun s t related => .inl ⟨(), f s, f t, rfl, rfl, s, t, related, rfl, rfl⟩

theorem agree_zoom {p : Loading ε τ α} (inner : Agree within p result)
    (enter : ∀ s t, before s t → within (view s) (view t))
    (leave : ∀ s t x y, before s t → result x y → after (put x s) (put y t)) :
    Agree before (zoom view put p : Loading ε σ α) after := by
  intro s t related
  rcases inner _ _ (enter s t related) with ⟨a, x, y, left, right, agreed⟩ | ⟨e, f, x, y, left, right⟩
  · exact .inl ⟨a, put x s, put y t, by simp [left], by simp [right], leave s t x y related agreed⟩
  · exact .inr ⟨e, f, put x s, put y t, by simp [left], by simp [right]⟩

theorem agree_eq (p : Loading ε σ α) : Agree (· = ·) p (· = ·) := by
  rintro s _ rfl
  rcases ran : p s with ⟨e | a, final⟩
  · exact .inr ⟨e, e, final, final, rfl, rfl⟩
  · exact .inl ⟨a, final, final, rfl, rfl, rfl⟩

theorem agree_reset (x : σ) : Agree before (update fun _ => x : Loading ε σ Unit) (· = ·) :=
  fun _ _ _ => .inl ⟨(), x, x, rfl, rfl, rfl⟩

/-- A computation that starts by overwriting its target. -/
theorem agree_reset_bind (x : σ) (p : Loading ε σ α) :
    Agree (fun _ _ => True) ((update fun _ => x : Loading ε σ Unit) >>= fun _ => p) (· = ·) :=
  (agree_reset x).bind fun _ => agree_eq p

theorem agree_assign {put : α → σ → σ} (same : ∀ a s t, before s t → after (put a s) (put a t))
    (outcome : Except ε α) : Agree before (assign put outcome) after := by
  intro s t related
  cases outcome with
  | ok a => exact .inl ⟨(), put a s, put a t, rfl, rfl, same a s t related⟩
  | error e => exact .inr ⟨e, e, s, t, rfl, rfl⟩

def Keeps (invariant : σ → Prop) (p : Loading ε σ α) : Prop := ∀ s, invariant s → invariant (p s).2

theorem keeps_update {invariant : σ → Prop} (f : σ → σ) (keeps : ∀ s, invariant s → invariant (f s)) :
    Keeps invariant (update f : Loading ε σ Unit) := keeps

theorem keeps_lift {invariant : σ → Prop} (outcome : Except ε α) :
    Keeps invariant (lift outcome : Loading ε σ α) := fun _ holds => holds

theorem keeps_assign {invariant : σ → Prop} {put : α → σ → σ} {outcome : Except ε α}
    (keeps : ∀ a s, outcome = .ok a → invariant s → invariant (put a s)) :
    Keeps invariant (assign put outcome) := by
  intro s holds
  cases outcome with
  | ok a => exact keeps a s rfl holds
  | error e => exact holds

theorem Keeps.bind {invariant : σ → Prop} {p : Loading ε σ α} {q : α → Loading ε σ β}
    (first : Keeps invariant p) (second : ∀ a, Keeps invariant (q a)) : Keeps invariant (p >>= q) := by
  intro s holds
  have middle := first s holds
  rcases ran : p s with ⟨e | a, s'⟩
  · rw [bind_error ran]
    simpa [ran] using middle
  · rw [bind_ok ran]
    exact second a s' (by simpa [ran] using middle)

/-- What follows may use how the value came about. -/
theorem keeps_lift_bind {invariant : σ → Prop} {outcome : Except ε α} {q : α → Loading ε σ β}
    (second : ∀ a, outcome = .ok a → Keeps invariant (q a)) : Keeps invariant (lift outcome >>= q) := by
  intro s holds
  cases outcome with
  | error e => exact holds
  | ok a => exact second a rfl s holds

theorem keeps_zoom {invariant : σ → Prop} {part : τ → Prop} {p : Loading ε τ α} (inner : Keeps part p)
    (enter : ∀ s, invariant s → part (view s))
    (leave : ∀ s x, invariant s → part x → invariant (put x s)) :
    Keeps invariant (zoom view put p : Loading ε σ α) :=
  fun s holds => leave s _ holds (inner _ (enter s holds))

/-- Nothing the run does to the part can break the invariant. -/
theorem keeps_zoom_part {invariant : σ → Prop} {p : Loading ε τ α}
    (leave : ∀ s x, invariant s → invariant (put x s)) :
    Keeps invariant (zoom view put p : Loading ε σ α) :=
  fun s holds => leave s _ holds

theorem keeps_pure {invariant : σ → Prop} (a : α) : Keeps invariant (pure a : Loading ε σ α) :=
  fun _ holds => holds

def Ensures (post : σ → Prop) (p : Loading ε σ α) : Prop := ∀ s a final, p s = (.ok a, final) → post final

theorem ensures_assign {post : σ → Prop} {put : α → σ → σ} {outcome : Except ε α}
    (established : ∀ a s, outcome = .ok a → post (put a s)) : Ensures post (assign put outcome) := by
  intro s a final ran
  cases outcome with
  | ok x =>
    obtain ⟨-, rfl⟩ := Prod.mk.inj ran
    exact established x s rfl
  | error e => simp [assign, bind_apply] at ran

theorem Ensures.last {post : σ → Prop} {q : α → Loading ε σ β} (second : ∀ a, Ensures post (q a))
    (p : Loading ε σ α) : Ensures post (p >>= q) := by
  intro s b final ran
  obtain ⟨a, middle, -, ran⟩ := bind_eq_ok ran
  exact second a middle b final ran

theorem Ensures.then_keeps {post : σ → Prop} {p : Loading ε σ α} {q : α → Loading ε σ β}
    (first : Ensures post p) (kept : ∀ a, Keeps post (q a)) : Ensures post (p >>= q) := by
  intro s b final ran
  obtain ⟨a, middle, ranFirst, ran⟩ := bind_eq_ok ran
  have holds := kept a middle (first s a middle ranFirst)
  rwa [ran] at holds

/-- From every target the run returns and changes it by `put x`, for one `x`, or from
every target it throws. -/
def Writes {κ : Type} (put : κ → σ → σ) (p : Loading ε σ Unit) : Prop :=
  (∃ x, ∀ s, p s = (.ok (), put x s)) ∨ ∀ s, ∃ e s', p s = (.error e, s')

theorem writes_assign (put : α → σ → σ) (outcome : Except ε α) : Writes put (assign put outcome) := by
  cases outcome with
  | ok a => exact .inl ⟨a, fun _ => rfl⟩
  | error e => exact .inr fun s => ⟨e, s, rfl⟩

theorem writes_update (f : σ → σ) : Writes (fun (_ : Unit) => f) (update f : Loading ε σ Unit) :=
  .inl ⟨(), fun _ => rfl⟩

/-- A part that is loaded without regard to what it was. -/
theorem writes_zoom {p : Loading ε τ Unit} (inner : Agree (fun _ _ => True) p (· = ·)) :
    Writes put (zoom view put p : Loading ε σ Unit) := by
  by_cases returns : ∃ s, p.Succeeds s
  · obtain ⟨s, _, ran⟩ := returns
    refine .inl ⟨(p s).2, fun t => ?_⟩
    rcases inner s (view t) trivial with ⟨_, x, y, left, right, rfl⟩ | ⟨e, f, x, y, left, -⟩
    · simp [left, right]
    · simp [left] at ran
  · refine .inr fun t => ?_
    rcases ran : p (view t) with ⟨e | a, x⟩
    · exact ⟨e, put x t, by simp [ran]⟩
    · exact absurd ⟨view t, a, by rw [ran]⟩ returns

theorem Writes.bind {κ μ : Type} {put : κ → σ → σ} {next : μ → σ → σ} {p q : Loading ε σ Unit}
    (first : Writes put p) (second : Writes next q) :
    Writes (fun x : κ × μ => next x.2 ∘ put x.1) (p >>= fun _ => q) := by
  rcases first with ⟨x, first⟩ | fails
  · rcases second with ⟨y, second⟩ | fails
    · exact .inl ⟨(x, y), fun s => by rw [bind_ok (first s), second]; rfl⟩
    · refine .inr fun s => ?_
      obtain ⟨e, s', failed⟩ := fails (put x s)
      exact ⟨e, s', by rw [bind_ok (first s), failed]⟩
  · refine .inr fun s => ?_
    obtain ⟨e, s', failed⟩ := fails s
    exact ⟨e, s', bind_error failed⟩

theorem Writes.agree {κ : Type} {put : κ → σ → σ} {p : Loading ε σ Unit} (writes : Writes put p)
    (same : ∀ x s t, before s t → after (put x s) (put x t)) : Agree before p after := by
  intro s t related
  rcases writes with ⟨x, returns⟩ | fails
  · exact .inl ⟨(), _, _, returns s, returns t, same x s t related⟩
  · obtain ⟨e, s', left⟩ := fails s
    obtain ⟨f, t', right⟩ := fails t
    exact .inr ⟨e, f, s', t', left, right⟩

/-- From every target, the run returns normally exactly if `c`. -/
def Returns (p : Loading ε σ α) (c : Prop) : Prop := ∀ s, p.Succeeds s ↔ c

theorem Returns.congr {p : Loading ε σ α} (returns : Returns p c) (same : c ↔ d) : Returns p d :=
  fun s => (returns s).trans same

theorem returns_lift (outcome : Except ε α) :
    Returns (lift outcome : Loading ε σ α) (∃ a, outcome = .ok a) :=
  fun _ => Iff.rfl

theorem returns_throw (e : ε) : Returns (throw e : Loading ε σ α) False := by
  intro s
  simp [Succeeds]

theorem returns_pure (a : α) : Returns (pure a : Loading ε σ α) True := by
  intro s
  simp [Succeeds]

theorem returns_update (f : σ → σ) : Returns (update f : Loading ε σ Unit) True := by
  intro s
  simp [Succeeds]

theorem returns_zoom {p : Loading ε τ α} (inner : Returns p c) :
    Returns (zoom view put p : Loading ε σ α) c :=
  fun s => inner (view s)

theorem returns_mapError {p : Loading ε σ α} (inner : Returns p c) : Returns (mapError f p) c := by
  intro s
  rw [← inner s]
  unfold Succeeds mapError
  cases (p s).1 <;> simp [Except.mapError]

theorem succeeds_bind {p : Loading ε σ α} {q : α → Loading ε σ β} :
    (p >>= q).Succeeds s ↔ ∃ a middle, p s = (.ok a, middle) ∧ (q a).Succeeds middle := by
  constructor
  · rintro ⟨b, ran⟩
    obtain ⟨a, middle, first, second⟩ := bind_eq_ok (Prod.ext ran rfl)
    exact ⟨a, middle, first, b, by rw [second]⟩
  · rintro ⟨a, middle, first, b, second⟩
    exact ⟨b, by rw [bind_ok first]; exact second⟩

theorem Returns.bind {p : Loading ε σ α} {q : α → Loading ε σ β} (first : Returns p c)
    (second : ∀ a, Returns (q a) d) : Returns (p >>= q) (c ∧ d) := by
  intro s
  rw [succeeds_bind, ← first s]
  constructor
  · rintro ⟨a, middle, ran, later⟩
    exact ⟨⟨a, by rw [ran]⟩, (second a middle).mp later⟩
  · rintro ⟨⟨a, ran⟩, holds⟩
    exact ⟨a, (p s).2, Prod.ext ran rfl, (second a _).mpr holds⟩

end Loading
end MujinClient
