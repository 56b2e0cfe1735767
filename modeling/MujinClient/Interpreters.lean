import MujinClient.Loading
import MujinClient.Program

/-! Programs played against an environment that answers their actions, and computations on a part of
the environment that do the same. -/
namespace MujinClient

/-- Answers an action in a state and says what the state is afterwards. -/
abbrev Environment {Action : Type} (Answer : Action → Type) (W : Type) := W → (a : Action) → Answer a × W

namespace Program

variable {Action : Type} {Answer : Action → Type} {Error α β W σ : Type}

def play (E : Environment Answer W) : Program Action Answer Error α → Loading Error W α
  | .returns x => pure x
  | .throws e => Loading.throw e
  | .acts a next => fun w => play E (next (E w a).1) (E w a).2

def played (E : Environment Answer W) : Program Action Answer Error α → W → List (Event Answer)
  | .acts a next, w => ⟨a, (E w a).1⟩ :: played E (next (E w a).1) (E w a).2
  | _, _ => []

variable {E : Environment Answer W} {p : Program Action Answer Error α} {w : W}

theorem play_bind (f : α → Program Action Answer Error β) :
    (p >>= f).play E = p.play E >>= fun x => (f x).play E := by
  induction p with
  | returns x | throws e => rfl
  | acts a next ih =>
    funext w
    exact congrFun (ih (E w a).1) (E w a).2

theorem play_acts {a : Action} {next : Answer a → Program Action Answer Error α} :
    (acts a next).play E w = (next (E w a).1).play E (E w a).2 := rfl

@[simp] theorem play_lift {r : Except Error α} :
    (lift r : Program Action Answer Error α).play E = Loading.lift r := by
  cases r <;> rfl

theorem play_guarded {a : Action} : (p.guarded a).play E w = ((p.play E w).1, (E (p.play E w).2 a).2) := by
  induction p generalizing w with
  | returns x | throws e => rfl
  | acts b next ih => exact ih (E w b).1

/-- The events are a run of the program, up to its end. -/
theorem run_played [DecidableEq Action] (E : Environment Answer W) (p : Program Action Answer Error α) (w : W) :
    Transition.run step p (p.played E w) = some (lift (p.play E w).1) := by
  induction p generalizing w with
  | returns x | throws e => rfl
  | acts a next ih =>
    rw [played, Transition.run_cons, step_acts]
    exact ih (E w a).1 (E w a).2

theorem played_answers (P : Event Answer → Prop) (each : ∀ w a, P ⟨a, (E w a).1⟩)
    (p : Program Action Answer Error α) (w : W) : ∀ event ∈ p.played E w, P event := by
  induction p generalizing w with
  | returns x | throws e => simp [played]
  | acts a next ih =>
    rw [played, List.forall_mem_cons]
    exact ⟨each w a, ih (E w a).1 (E w a).2⟩

/-- In every environment that is ready, the program does what the computation does to what is seen of
the environment, and leaves it ready. -/
def Implements (E : Environment Answer W) (ready : W → Prop) (view : W → σ) (p : Program Action Answer Error α)
    (q : Loading Error σ α) : Prop :=
  ∀ w, ready w → (p.play E w).1 = (q (view w)).1 ∧ view (p.play E w).2 = (q (view w)).2 ∧ ready (p.play E w).2

end Program

end MujinClient
