import MujinClient.Transition

/-! Programs that perform actions, continue with the answers and may throw. A watcher
follows a program from action to action with a state of its own. -/
namespace MujinClient

inductive Program (Action : Type) (Answer : Action → Type) (Error α : Type) where
  | returns (value : α)
  | throws (error : Error)
  | acts (action : Action) (next : Answer action → Program Action Answer Error α)

namespace Program

variable {Action : Type} {Answer : Action → Type} {Error α β σ : Type}

def bind (p : Program Action Answer Error α) (f : α → Program Action Answer Error β) :
    Program Action Answer Error β :=
  match p with
  | .returns x => f x
  | .throws e => .throws e
  | .acts a next => .acts a fun r => bind (next r) f

instance : Monad (Program Action Answer Error) where
  pure := .returns
  bind := bind

theorem bind_assoc {γ : Type} (p : Program Action Answer Error α) (f : α → Program Action Answer Error β)
    (g : β → Program Action Answer Error γ) : p >>= f >>= g = p >>= fun x => f x >>= g := by
  induction p with
  | returns x | throws e => rfl
  | acts a next ih => exact congrArg (Program.acts a) (funext fun r => ih r)

/-- A scope guard: `p`, and after it the action, however `p` ends. Its answer is ignored. -/
def guarded (a : Action) : Program Action Answer Error α → Program Action Answer Error α
  | .returns x => .acts a fun _ => .returns x
  | .throws e => .acts a fun _ => .throws e
  | .acts b next => .acts b fun r => guarded a (next r)

/-- The result of a computation that performs no action. -/
def lift : Except Error α → Program Action Answer Error α
  | .ok x => .returns x
  | .error e => .throws e

/-- An action with the answer it got. -/
abbrev Event (Answer : Action → Type) := (a : Action) × Answer a

def action? : Program Action Answer Error α → Option Action
  | .acts a _ => some a
  | _ => none

def Ended : Program Action Answer Error α → Prop
  | .acts _ _ => False
  | _ => True

def step [DecidableEq Action] :
    Program Action Answer Error α → Event Answer → Option (Program Action Answer Error α)
  | .acts a next, ⟨b, r⟩ => if same : b = a then some (next (same ▸ r)) else none
  | _, _ => none

@[simp] theorem step_acts [DecidableEq Action] (a : Action)
    (next : Answer a → Program Action Answer Error α) (r : Answer a) :
    (acts a next).step ⟨a, r⟩ = some (next r) := by
  simp [step]

theorem step_cases [DecidableEq Action] {p q : Program Action Answer Error α} {event : Event Answer}
    (taken : p.step event = some q) : ∃ a next r, p = acts a next ∧ event = ⟨a, r⟩ ∧ q = next r := by
  obtain ⟨b, r⟩ := event
  cases p with
  | returns | throws => simp [step] at taken
  | acts a next =>
    by_cases same : b = a
    · subst same
      rw [step_acts] at taken
      exact ⟨b, next, r, rfl, rfl, (Option.some.inj taken).symm⟩
    · simp [step, same] at taken

/-- Where an event of a run stands, the program is at its action. -/
theorem action_of_run [DecidableEq Action] {p q : Program Action Answer Error α}
    {before after : List (Event Answer)} {a : Action}
    {r : Answer a} (ran : Transition.run step p (before ++ ⟨a, r⟩ :: after) = some q) :
    ∃ middle, Transition.run step p before = some middle ∧ middle.action? = some a := by
  rw [Transition.run_append, Option.bind_eq_some_iff] at ran
  obtain ⟨middle, reached, ran⟩ := ran
  obtain ⟨next, taken, -⟩ := Option.bind_eq_some_iff.mp ran
  obtain ⟨b, rest, answer, rfl, event, -⟩ := step_cases taken
  obtain ⟨rfl, -⟩ := Sigma.mk.inj event
  exact ⟨_, reached, rfl⟩

/-- The first events of a program whose actions are all answered by one function, and what is
left of it. -/
def answered (answer : (a : Action) → Answer a) : Nat → Program Action Answer Error α →
    List (Event Answer) × Program Action Answer Error α
  | n + 1, .acts a next =>
    let rest := answered answer n (next (answer a))
    (⟨a, answer a⟩ :: rest.1, rest.2)
  | _, p => ([], p)

theorem answered_answer {answer : (a : Action) → Answer a} {n : Nat} {p : Program Action Answer Error α}
    {event : Event Answer} (member : event ∈ (p.answered answer n).1) : event.2 = answer event.1 := by
  induction n generalizing p with
  | zero => cases p <;> simp [answered] at member
  | succ n ih =>
    cases p with
    | returns | throws => simp [answered] at member
    | acts a next =>
      rcases List.mem_cons.mp member with rfl | later
      · rfl
      · exact ih later

theorem run_answered [DecidableEq Action] (answer : (a : Action) → Answer a) (n : Nat)
    (p : Program Action Answer Error α) :
    Transition.run step p (p.answered answer n).1 = some (p.answered answer n).2 := by
  induction n generalizing p with
  | zero => cases p <;> rfl
  | succ n ih =>
    cases p with
    | returns | throws => rfl
    | acts a next =>
      rw [answered, Transition.run_cons, step_acts]
      exact ih (next (answer a))

/-- With these answers the program ends. -/
theorem answered_ends (answer : (a : Action) → Answer a) (p : Program Action Answer Error α) :
    ∃ n, (p.answered answer n).2.Ended := by
  induction p with
  | returns | throws => exact ⟨0, trivial⟩
  | acts a next ih =>
    obtain ⟨n, ended⟩ := ih (answer a)
    exact ⟨n + 1, ended⟩

/-- No answers keep a program going for ever. -/
theorem run_ends [DecidableEq Action] (p : Program Action Answer Error α) (events : Nat → Event Answer) :
    ∃ n, Transition.run step p ((List.range n).map events) = none ∨
      ∃ q, Transition.run step p ((List.range n).map events) = some q ∧ q.Ended := by
  induction p generalizing events with
  | returns | throws => exact ⟨0, .inr ⟨_, rfl, trivial⟩⟩
  | acts a next ih =>
    cases taken : (acts a next).step (events 0) with
    | none => exact ⟨1, .inl (by simp [Transition.run_cons, taken])⟩
    | some q =>
      obtain ⟨_, rest, r, shape, event, rfl⟩ := step_cases taken
      obtain ⟨rfl, same⟩ := acts.inj shape
      obtain rfl := eq_of_heq same
      obtain ⟨n, ended⟩ := ih r fun i => events (i + 1)
      refine ⟨n + 1, ?_⟩
      rw [List.range_succ_eq_map, List.map_cons, List.map_map, Transition.run_cons, taken]
      exact ended

end Program

/-- What is asked of an action in a state, and the state its answer leads to. -/
structure Watcher {Action : Type} (Answer : Action → Type) (σ : Type) where
  allows : σ → Action → Prop
  next : σ → (a : Action) → Answer a → σ

def Watcher.after {Action : Type} {Answer : Action → Type} {σ : Type} (w : Watcher Answer σ) (s : σ)
    (trace : List (Program.Event Answer)) : σ :=
  trace.foldl (fun s event => w.next s event.1 event.2) s

namespace Program

variable {Action : Type} {Answer : Action → Type} {Error α β σ τ : Type}

/-- Every action of the program is allowed where it is performed, and every way to the end
ends as `post` says. -/
def Obeys (w : Watcher Answer σ) (post : Except Error α → σ → Prop) : σ → Program Action Answer Error α → Prop
  | s, .returns x => post (.ok x) s
  | s, .throws e => post (.error e) s
  | s, .acts a next => w.allows s a ∧ ∀ r, Obeys w post (w.next s a r) (next r)

variable {w : Watcher Answer σ} {post : Except Error α → σ → Prop} {s : σ}

theorem Obeys.mono {weaker : Except Error α → σ → Prop} {p : Program Action Answer Error α}
    (obeys : Obeys w post s p) (implies : ∀ r t, post r t → weaker r t) : Obeys w weaker s p := by
  induction p generalizing s with
  | returns | throws => exact implies _ _ obeys
  | acts a next ih => exact ⟨obeys.1, fun r => ih r (obeys.2 r)⟩

/-- After `p`, the rest goes on from any state and value that `p` can end with. -/
theorem Obeys.bind {mid : Except Error β → σ → Prop} {p : Program Action Answer Error β}
    {f : β → Program Action Answer Error α} (first : Obeys w mid s p)
    (throws : ∀ e t, mid (.error e) t → post (.error e) t)
    (returns : ∀ x t, mid (.ok x) t → Obeys w post t (f x)) : Obeys w post s (p >>= f) := by
  induction p generalizing s with
  | returns x => exact returns x s first
  | throws e => exact throws e s first
  | acts a next ih => exact ⟨first.1, fun r => ih r (first.2 r)⟩

/-- A scope guard asks that its action is allowed wherever the body can end. -/
theorem Obeys.guarded {mid : Except Error α → σ → Prop} {p : Program Action Answer Error α} (a : Action)
    (body : Obeys w mid s p)
    (leaves : ∀ r t, mid r t → w.allows t a ∧ ∀ answer, post r (w.next t a answer)) :
    Obeys w post s (p.guarded a) := by
  induction p generalizing s with
  | returns x => exact leaves _ _ body
  | throws e => exact leaves _ _ body
  | acts b next ih => exact ⟨body.1, fun r => ih r (body.2 r)⟩

theorem Obeys.step [DecidableEq Action] {p q : Program Action Answer Error α} {event : Event Answer}
    (obeys : Obeys w post s p)
    (taken : p.step event = some q) : w.allows s event.1 ∧ Obeys w post (w.next s event.1 event.2) q := by
  obtain ⟨a, next, r, rfl, rfl, rfl⟩ := step_cases taken
  exact ⟨obeys.1, obeys.2 r⟩

theorem Obeys.run [DecidableEq Action] {p q : Program Action Answer Error α} {trace : List (Event Answer)}
    (obeys : Obeys w post s p) (ran : Transition.run Program.step p trace = some q) :
    Obeys w post (w.after s trace) q := by
  induction trace generalizing s p with
  | nil => exact Option.some.inj ran ▸ obeys
  | cons event rest ih =>
    obtain ⟨next, taken, ran⟩ := Option.bind_eq_some_iff.mp ran
    exact ih (obeys.step taken).2 ran

theorem Obeys.allowed {p : Program Action Answer Error α} {a : Action} (obeys : Obeys w post s p)
    (next : p.action? = some a) : w.allows s a := by
  cases p with
  | returns | throws => simp [action?] at next
  | acts b rest => exact Option.some.inj next ▸ obeys.1

theorem Obeys.ended {p : Program Action Answer Error α} (obeys : Obeys w post s p) (ended : p.Ended) :
    ∃ r, post r s := by
  cases p with
  | returns x => exact ⟨.ok x, obeys⟩
  | throws e => exact ⟨.error e, obeys⟩
  | acts => exact ended.elim

end Program
end MujinClient
