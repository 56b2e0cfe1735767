import MujinClient.PolledCommands

/-! Which timeouts bound a command that is polled for. The seconds are counted in tenths that are rounded,
and from 2^50 seconds on a tenth is lost in rounding. -/
namespace MujinClient

open Request

namespace BinPickingTaskResource

/-- `0.1` -/
def tenth : Finite64 := ⟨false, 7205759403792794, -56, by decide⟩

theorem ofDecimal_tenth : Double.ofDecimal false 1 (-1) = .finite tenth := by rfl

theorem tenth_bounds : (1 : ℚ) / 10 ≤ tenth.toRat ∧ tenth.toRat ≤ 11 / 100 := by
  unfold tenth Finite64.toRat
  norm_num

/-- One more tenth: nearly a tenth more, but not past 2^50. -/
theorem add_tenth {s : Finite64} (low : 0 ≤ s.toRat) (high : s.toRat ≤ 2 ^ (50 : ℤ)) : ∃ sum : Finite64,
    Double.add (.finite s) (.finite tenth) = .finite sum ∧ 0 ≤ sum.toRat ∧ sum.toRat ≤ 2 ^ (50 : ℤ) ∧
      (s.toRat < 2 ^ (50 : ℤ) → s.toRat + 1 / 32 ≤ sum.toRat) := by
  obtain ⟨little, small⟩ := tenth_bounds
  have bound : s.toRat + tenth.toRat < 2 ^ (51 : ℤ) := by
    have room : (2 : ℚ) ^ (50 : ℤ) + 1 ≤ 2 ^ (51 : ℤ) := by norm_num
    linarith
  obtain ⟨sum, added, e, fine, coarse, m, value, close, grid⟩ := Double.add_spec (by linarith) (by omega) bound
  have unit := Double.two_zpow_pos e
  rw [abs_le] at close
  have inside : s.toRat < 2 ^ (50 : ℤ) → s.toRat + tenth.toRat < 2 ^ (50 : ℤ) ∧ e ≤ -3 := by
    intro less
    have apart := Double.toRat_below (by omega) less
    have step : (2 : ℚ) ^ (50 - 53 : ℤ) = 1 / 8 := by norm_num
    rw [step] at apart
    have total : s.toRat + tenth.toRat < 2 ^ (50 : ℤ) := by linarith
    refine ⟨total, ?_⟩
    rcases fine with sub | top
    · have := Double.two_zpow_lt_iff.mp (sub.trans_lt total)
      omega
    · omega
  refine ⟨sum, added, by rw [value]; positivity, ?_, fun less => ?_⟩
  · rw [value]
    rcases high.lt_or_eq with less | same
    · obtain ⟨total, grain⟩ := inside less
      have point : (2 : ℚ) ^ (50 : ℤ) = ((2 ^ (50 - e).toNat : ℕ) : ℚ) * 2 ^ e := by
        rw [Nat.cast_pow, Nat.cast_ofNat, ← zpow_natCast, Int.toNat_of_nonneg (by omega),
          ← zpow_add₀ two_ne_zero, Int.sub_add_cancel]
      have most := grid _ (point ▸ total.le)
      rw [point]
      exact mul_le_mul_of_nonneg_right (by exact_mod_cast most) unit.le
    · -- here the tenth is less than half of a step
      have exponent : e = -2 := by
        have above := Double.two_zpow_lt_iff.mp (show (2 : ℚ) ^ (50 : ℤ) < 2 ^ (e + 53) by linarith)
        rcases fine with sub | top
        · have below := Double.two_zpow_lt_iff.mp (sub.trans_lt bound)
          omega
        · omega
      rw [exponent] at close ⊢
      have quarter : (2 : ℚ) ^ (-2 : ℤ) = 1 / 4 := by norm_num
      have whole : (2 : ℚ) ^ (50 : ℤ) = ((2 ^ 50 : ℕ) : ℚ) := by norm_num
      rw [quarter] at close ⊢
      have below : (m : ℚ) < ((2 ^ 52 + 1 : ℕ) : ℚ) := by
        rw [same, whole] at close
        push_cast at close ⊢
        linarith
      have most : (m : ℚ) ≤ ((2 ^ 52 : ℕ) : ℚ) := by exact_mod_cast Nat.lt_succ_iff.mp (Nat.cast_lt.mp below)
      rw [whole]
      push_cast at most ⊢
      linarith
  · obtain ⟨-, grain⟩ := inside less
    have half : (2 : ℚ) ^ e ≤ 1 / 8 := (Double.two_zpow_le grain).trans (by norm_num)
    rw [value]
    linarith

/-- The seconds stay between 0 and 2^50. -/
theorem secondspassed_bounds (rounds : Nat) :
    ∃ s : Finite64, secondspassed rounds = .finite s ∧ 0 ≤ s.toRat ∧ s.toRat ≤ 2 ^ (50 : ℤ) := by
  induction rounds with
  | zero => exact ⟨_, rfl, by norm_num [Finite64.toRat], by norm_num [Finite64.toRat]⟩
  | succ rounds ih =>
    obtain ⟨s, known, low, high⟩ := ih
    obtain ⟨sum, added, least, most, -⟩ := add_tenth low high
    exact ⟨sum, by rw [secondspassed, known, ofDecimal_tenth, added], least, most⟩

/-- `2^50` -/
def lossy : Finite64 := ⟨false, 2 ^ 52, -2, by decide⟩

theorem ofInt_lossy : Double.ofInt (2 ^ 50) = .finite lossy := by rfl

theorem lossy_toRat : lossy.toRat = 2 ^ (50 : ℤ) := by
  unfold lossy Finite64.toRat
  norm_num

/-- While the time has not run out, every round adds at least a thirtysecond. -/
theorem secondspassed_grows {t : Finite64} (counts : Double.equal (.finite t) Double.zero = false)
    (below : t.toRat < 2 ^ (50 : ℤ)) (rounds : Nat)
    (waited : ∀ j, 0 < j → j ≤ rounds → expired (.finite t) (secondspassed j) = false) :
    ∃ s : Finite64, secondspassed rounds = .finite s ∧ (rounds : ℚ) / 32 ≤ s.toRat ∧
      (0 < rounds → s.toRat ≤ t.toRat) := by
  induction rounds with
  | zero => exact ⟨_, rfl, by norm_num [Finite64.toRat], fun impossible => absurd impossible (lt_irrefl 0)⟩
  | succ rounds ih =>
    obtain ⟨s, known, grown, within⟩ := ih fun j after before => waited j after (by omega)
    have less : s.toRat < 2 ^ (50 : ℤ) := by
      cases rounds with
      | zero =>
        obtain rfl := Double.finite.inj known
        norm_num [Finite64.toRat]
      | succ n => exact (within (by omega)).trans_lt below
    have least : 0 ≤ s.toRat := le_trans (by positivity) grown
    obtain ⟨sum, added, -, -, more⟩ := add_tenth least less.le
    have next : secondspassed (rounds + 1) = .finite sum := by rw [secondspassed, known, ofDecimal_tenth, added]
    refine ⟨sum, next, ?_, fun _ => ?_⟩
    · have gain := more less
      push_cast
      linarith
    · have early := waited (rounds + 1) (by omega) le_rfl
      rw [next, expired, counts, Bool.not_false, Bool.true_and, ← Bool.not_eq_true, Double.lt_finite,
        not_lt] at early
      exact early

theorem expired_of_infinite {s : Finite64} : expired (.infinite true) (.finite s) = true := rfl

theorem exists_expired {timeout : Double} (counts : timeout.equal Double.zero = false)
    (below : timeout.lt (Double.ofInt (2 ^ 50)) = true) :
    ∃ rounds, 0 < rounds ∧ expired timeout (secondspassed rounds) = true := by
  by_contra none
  have waited : ∀ j, 0 < j → expired timeout (secondspassed j) = false := by
    intro j after
    by_contra late
    exact none ⟨j, after, by simpa using late⟩
  rw [ofInt_lossy] at below
  cases timeout with
  | nan => cases below
  | infinite negative =>
    cases negative with
    | false => cases below
    | true =>
      obtain ⟨s, known, -⟩ := secondspassed_bounds 1
      have early := waited 1 (by omega)
      rw [known, expired_of_infinite] at early
      cases early
  | finite t =>
    rw [Double.lt_finite, lossy_toRat] at below
    obtain ⟨n, large⟩ := exists_nat_gt (32 * t.toRat)
    obtain ⟨s, -, grown, within⟩ := secondspassed_grows counts below (n + 1) fun j after _ => waited j after
    have most := within (by omega)
    push_cast at grown
    linarith

theorem runsOut_of_expired {timeout : Double} {rounds : Nat} (after : 0 < rounds)
    (late : expired timeout (secondspassed rounds) = true) : ∃ first, RunsOut timeout first := by
  have some : ∃ first, 0 < first ∧ expired timeout (secondspassed first) = true := ⟨rounds, after, late⟩
  refine ⟨Nat.find some, (Nat.find_spec some).1, (Nat.find_spec some).2, fun j positive before => ?_⟩
  by_contra late
  exact Nat.find_min some before ⟨positive, by simpa using late⟩

/-- A command can run into its timeout just when that is neither 0 nor 2^50 or more. -/
theorem runsOut_iff (timeout : Double) :
    (∃ rounds, RunsOut timeout rounds) ↔ timeout.equal Double.zero = false ∧
      timeout.lt (Double.ofInt (2 ^ 50)) = true := by
  constructor
  · rintro ⟨rounds, -, late, -⟩
    obtain ⟨s, known, -, high⟩ := secondspassed_bounds rounds
    rw [known, expired, Bool.and_eq_true, Bool.not_eq_true'] at late
    refine ⟨late.1, ?_⟩
    rw [ofInt_lossy]
    cases timeout with
    | nan => exact absurd late.2 (by simp [Double.lt, Double.le])
    | infinite negative =>
      cases negative with
      | true => rfl
      | false => exact absurd late.2 (by simp [Double.lt, Double.le])
    | finite t =>
      rw [Double.lt_finite, lossy_toRat]
      exact (Double.lt_finite.mp late.2).trans_le high
  · rintro ⟨counts, below⟩
    obtain ⟨rounds, after, late⟩ := exists_expired counts below
    exact runsOut_of_expired after late

/-- Before the idle server the request always returns this. -/
def Returns {α : Type} (p : Request α) (a : α) : Prop := ∀ w : Session (Unit × List Answered), w.Ready →
  (Session.run idle.recorded p w).1 = .ok a ∧ (Session.run idle.recorded p w).2.Ready

theorem returns_lift {α : Type} {outcome : Except Thrown α} {a : α} (same : outcome = .ok a) :
    Returns (Program.lift outcome) a := by
  intro w ready
  rw [Session.run_lift, same]
  exact ⟨rfl, ready⟩

theorem Returns.bind {α β : Type} {p : Request α} {f : α → Request β} {a : α} {b : β} (first : Returns p a)
    (rest : Returns (f a) b) : Returns (p >>= f) b := by
  intro w ready
  obtain ⟨outcome, left⟩ := first w ready
  rw [Session.run_bind]
  rcases ran : Session.run idle.recorded p w with ⟨e | x, middle⟩ <;> rw [ran] at outcome left
  · cases outcome
  · obtain rfl := Except.ok.inj outcome
    rw [Loading.bind_ok ran]
    exact rest middle left

theorem returns_exchange {α : Type} {p : Request α} {call : WebCall} {read : WebReply → Except Thrown α}
    (reply : WebReply) {a : α}
    (serves : Session.Serves idle.recorded p (Session.exchange idle.recorded call read))
    (answers : (idle () call).1 = some reply) (accepted : read reply = .ok a) : Returns p a := by
  intro w ready
  obtain ⟨outcome, -, left⟩ := serves w ready
  refine ⟨?_, left⟩
  have known : idle.recorded w.server call = (some reply, (), w.server.2 ++ [(call, some reply)]) := by
    rw [WebServer.recorded, show (idle w.server.1 call).1 = some reply from answers]
  rw [Session.exchange_some known] at outcome
  exact outcome.trans accepted

section

variable {client : ControllerClient} {primaryKey unconstructed : Text} {rResult : Json} {timeout : Double}
    {getresult : Bool}

theorem idle_put (uri data : Text) : (idle () (client.webCall "PUT" uri data)).1 = some ⟨202, []⟩ := by
  simp [idle, ControllerClient.webCall]

theorem idle_other {method : String} (put : lit method ≠ lit "PUT") (delete : lit method ≠ lit "DELETE")
    (uri data : Text) :
    (idle () (client.webCall method uri data)).1 = some ⟨200, []⟩ := by
  simp [idle, ControllerClient.webCall, put, delete]

theorem returns_getResult : Returns (getResult client primaryKey unconstructed) none := by
  have listed : ∀ uri, Returns (client.callGet uri (.object []) 200 ControllerClient.defaultTimeout)
      (200, .object []) := fun uri =>
    returns_exchange ⟨200, []⟩ (Session.serves_callGet client uri 200 ControllerClient.defaultTimeout (.object []))
      (idle_other (by decide) (by decide) uri []) rfl
  exact (listed _).bind (returns_lift rfl)

theorem returns_poll (never : ∀ j, 0 < j → expired timeout (secondspassed j) = false) (rounds i : Nat) :
    Returns (poll client primaryKey unconstructed rResult timeout getresult rounds (secondspassed i)) none := by
  induction rounds generalizing i with
  | zero => exact returns_lift rfl
  | succ rounds ih =>
    have next : (secondspassed i).add (Double.ofDecimal false 1 (-1)) = secondspassed (i + 1) := rfl
    refine returns_getResult.bind ?_
    dsimp only
    rw [next, never (i + 1) (by omega)]
    exact ih (i + 1)

theorem returns_executeCommand (never : ∀ j, 0 < j → expired timeout (secondspassed j) = false)
    (r : TaskResource) (stamp : Double) (taskparameters : Text) (rounds : Nat) :
    Returns (executeCommand client primaryKey unconstructed r true stamp taskparameters rResult timeout
      getresult rounds) none := by
  have stored :=
    returns_exchange ⟨202, []⟩
      (Session.serves_callPut client (lit "task/" ++ primaryKey ++ lit "/?format=json") 202
    ControllerClient.defaultTimeout (commandText client r stamp taskparameters) .json) (idle_put _ _) rfl
  have posted :=
    returns_exchange ⟨200, []⟩
      (Session.serves_callPost client (lit "job/") 200 ControllerClient.defaultTimeout
    (lit "\x7b\"resource_type\":\"task\", \"target_pk\":" ++ primaryKey ++ lit "\x7d"))
      (idle_other (by decide) (by decide) _ _) rfl
  have started : Returns (TaskResource.execute client primaryKey) [] := posted.bind (returns_lift rfl)
  have counted : Returns (poll client primaryKey unconstructed rResult timeout getresult rounds Double.zero)
      none := returns_poll never rounds 0
  exact Returns.bind (returns_lift rfl) (stored.bind (started.bind counted))

/-- An initialized command is bound to end, whatever the server replies, just when its timeout is
neither 0 nor 2^50 seconds or more. -/
theorem executeCommand_ends_iff (client : ControllerClient) (primaryKey unconstructed : Text)
    (r : TaskResource) (stamp : Double)
    (taskparameters : Text) (rResult : Json) (timeout : Double) (getresult : Bool) :
    (∃ bound, ∀ rounds, bound ≤ rounds →
      ∀ (σ : Type) (server : WebServer σ) (w : Session (σ × List Answered)), w.Ready →
      (Session.run server.recorded (executeCommand client primaryKey unconstructed r true stamp
        taskparameters rResult timeout getresult rounds)
        w).1 ≠ .ok none) ↔
      timeout.equal Double.zero = false ∧ timeout.lt (Double.ofInt (2 ^ 50)) = true := by
  rw [← runsOut_iff]
  constructor
  · rintro ⟨bound, ends⟩
    by_contra never
    have unexpired : ∀ j, 0 < j → expired timeout (secondspassed j) = false := by
      intro j after
      by_contra late
      exact never (runsOut_of_expired after (by simpa using late))
    have start : (⟨CurlHandle.constructed fun _ => .null, ((), []), ⟨0, []⟩⟩ : Session
        (Unit × List Answered)).Ready :=
      CurlHandle.constructed_unset _
    exact ends bound le_rfl Unit idle _ start
      (returns_executeCommand unexpired r stamp taskparameters bound _ start).1
  · rintro ⟨bound, after, late, -⟩
    refine ⟨bound, fun rounds enough σ server w ready unfinished => ?_⟩
    have ran : Says server (CommandRun client primaryKey (commandText client r stamp taskparameters) timeout
        getresult rounds) _ :=
      says_executeCommand unconstructed rResult r true stamp taskparameters rounds
    obtain ⟨-, said, -, run⟩ := ran w ready
    have early := run.unfinished unfinished bound after enough
    rw [late] at early
    cases early

end

end BinPickingTaskResource

end MujinClient
