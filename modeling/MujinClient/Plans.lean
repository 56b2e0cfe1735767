import MujinClient.Program

/-! Programs that carry out a plan. What an action reports may depend on the state it is performed in,
and so may which of its answers are good; as long as all of them are, the reports follow the plan and
the program returns. -/
namespace MujinClient

namespace Program

variable {Action : Type} {Answer : Action → Type} {Error α β σ ρ : Type}

/-- How the answers change a state, which of them are good in it, and what an action reports. -/
structure Reporter {Action : Type} (Answer : Action → Type) (σ ρ : Type) where
  next : σ → (a : Action) → Answer a → σ
  good : σ → (a : Action) → Answer a → Prop
  report : σ → Action → Option ρ

namespace Reporter

variable (R : Reporter Answer σ ρ)

def reports (s : σ) : List (Event Answer) → List ρ
  | [] => []
  | event :: trace => (R.report s event.1).toList ++ reports (R.next s event.1 event.2) trace

def Good (s : σ) : List (Event Answer) → Prop
  | [] => True
  | event :: trace => R.good s event.1 event.2 ∧ Good (R.next s event.1 event.2) trace

end Reporter

variable {R : Reporter Answer σ ρ} {post : α → σ → Prop} {s : σ} {plan : List ρ}
    {p : Program Action Answer Error α}

/-- With good answers the program reports the plan, and returns as `post` says. -/
def Fulfils (R : Reporter Answer σ ρ) (post : α → σ → Prop) : σ → List ρ → Program Action Answer Error α → Prop
  | s, plan, .returns x => plan = [] ∧ post x s
  | _, _, .throws _ => False
  | s, plan, .acts a next => ∃ rest, plan = (R.report s a).toList ++ rest ∧
      ∀ r, R.good s a r → Fulfils R post (R.next s a r) rest (next r)

theorem fulfils_returns {x : α} (holds : post x s) :
    Fulfils R post s [] (.returns x : Program Action Answer Error α) := ⟨rfl, holds⟩

theorem Fulfils.silent {a : Action} {next : Answer a → Program Action Answer Error α} (quiet : R.report s a = none)
    (rest : ∀ r, R.good s a r → Fulfils R post (R.next s a r) plan (next r)) :
    Fulfils R post s plan (.acts a next) :=
  ⟨plan, by rw [quiet]; rfl, rest⟩

theorem Fulfils.reported {a : Action} {next : Answer a → Program Action Answer Error α} {x : ρ}
    (said : R.report s a = some x)
    (rest : ∀ r, R.good s a r → Fulfils R post (R.next s a r) plan (next r)) :
    Fulfils R post s (x :: plan) (.acts a next) :=
  ⟨plan, by rw [said]; rfl, rest⟩

theorem Fulfils.bind {mid : β → σ → Prop} {more : List ρ} {p : Program Action Answer Error β}
    {f : β → Program Action Answer Error α}
    (first : Fulfils R mid s plan p) (rest : ∀ x t, mid x t → Fulfils R post t more (f x)) :
    Fulfils R post s (plan ++ more) (p >>= f) := by
  induction p generalizing s plan with
  | returns x =>
    obtain ⟨rfl, held⟩ := first
    exact rest x s held
  | throws e => exact first.elim
  | acts a next ih =>
    obtain ⟨left, rfl, later⟩ := first
    exact ⟨left ++ more, List.append_assoc .., fun r good => ih r (later r good)⟩

theorem Fulfils.guarded {mid : α → σ → Prop} {a : Action} (body : Fulfils R mid s plan p)
    (quiet : ∀ t, R.report t a = none)
    (leaves : ∀ x t r, mid x t → R.good t a r → post x (R.next t a r)) : Fulfils R post s plan (p.guarded a) := by
  induction p generalizing s plan with
  | returns x =>
    obtain ⟨rfl, held⟩ := body
    exact Fulfils.silent (quiet s) fun r good => fulfils_returns (leaves x s r held good)
  | throws e => exact body.elim
  | acts b next ih =>
    obtain ⟨rest, rfl, later⟩ := body
    exact ⟨rest, rfl, fun r good => ih r (later r good)⟩

/-- The reports of a good run are where the plan starts. -/
theorem Fulfils.run [DecidableEq Action] {q : Program Action Answer Error α} {trace : List (Event Answer)}
    (fulfils : Fulfils R post s plan p)
    (ran : Transition.run step p trace = some q) (good : R.Good s trace) :
    ∃ rest t, plan = R.reports s trace ++ rest ∧ Fulfils R post t rest q := by
  induction trace generalizing s plan p with
  | nil =>
    obtain rfl := Option.some.inj ran
    exact ⟨plan, s, rfl, fulfils⟩
  | cons event trace ih =>
    obtain ⟨middle, taken, ran⟩ := Option.bind_eq_some_iff.mp ran
    obtain ⟨a, next, r, rfl, rfl, rfl⟩ := step_cases taken
    obtain ⟨left, rfl, later⟩ := fulfils
    obtain ⟨rest, t, rfl, last⟩ := ih (later r good.1) ran good.2
    refine ⟨rest, t, ?_, last⟩
    rw [Reporter.reports, List.append_assoc]

theorem Fulfils.ended [DecidableEq Action] {q : Program Action Answer Error α} {trace : List (Event Answer)}
    (fulfils : Fulfils R post s plan p) (ran : Transition.run step p trace = some q) (good : R.Good s trace)
    (ended : q.Ended) :
    ∃ x, q = .returns x ∧ R.reports s trace = plan := by
  obtain ⟨rest, t, shape, last⟩ := fulfils.run ran good
  cases q with
  | returns x =>
    obtain ⟨rfl, -⟩ := last
    exact ⟨x, rfl, by rw [shape, List.append_nil]⟩
  | throws e => exact last.elim
  | acts a next => exact ended.elim

/-- Where every action can be answered well, there is such a run. -/
theorem exists_good_run [DecidableEq Action] (answers : ∀ s a, ∃ r, R.good s a r) (s : σ)
    (p : Program Action Answer Error α) :
    ∃ trace q, Transition.run step p trace = some q ∧ R.Good s trace ∧ q.Ended := by
  induction p generalizing s with
  | returns x => exact ⟨[], _, rfl, trivial, trivial⟩
  | throws e => exact ⟨[], _, rfl, trivial, trivial⟩
  | acts a next ih =>
    obtain ⟨r, well⟩ := answers s a
    obtain ⟨trace, q, ran, good, ended⟩ := ih r (R.next s a r)
    refine ⟨⟨a, r⟩ :: trace, q, ?_, ⟨well, good⟩, ended⟩
    rw [Transition.run_cons, step_acts]
    exact ran

end Program

end MujinClient
