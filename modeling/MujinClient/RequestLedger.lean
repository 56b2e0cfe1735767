import MujinClient.ClientOperations
import Mathlib.Data.Set.Insert

/-! What one call of an operation has done so far to the lock, the handle and the scratch
state, and the rules by which the programs of the requests are followed. -/
namespace MujinClient

/-- The options that say where a transfer goes and who gets the response. -/
def sinkOptions : List CurlOption := [.url, .httpHeader, .writeFunction, .writeData]

/-- The value sends a response to the stream or vector of a caller. -/
def OptionValue.isOutput : OptionValue → Bool
  | .sink .outputStream | .sink .outputdata => true
  | _ => false

structure Ledger where
  /-- The call holds the mutex. -/
  held : Bool
  /-- The options that the call has set to a value. -/
  mine : CurlOption → Bool
  /-- The call has selected the kind of request. -/
  chosen : Bool
  /-- The last transfer since the lock was taken was made by the call. -/
  own : Bool
  /-- The buffer was cleared, or the output of the caller installed, since the lock was taken. -/
  reply : Bool
  output : Bool
  options : CurlOption → OptionValue
  /-- Restoring an option failed. -/
  spoiled : Bool

/-- What a call is asked to keep to. -/
structure Demands where
  lock : Bool
  mutex : Bool
  sink : Bool
  kind : Bool

namespace Ledger

/-- Before the first action of a call, on a handle with these options. -/
def start (options : CurlOption → OptionValue) : Ledger :=
  ⟨false, fun _ => false, false, false, false, false, options, false⟩

def set (L : Ledger) (o : CurlOption) (v : OptionValue) : Ledger :=
  { L with
    mine := Function.update L.mine o (v ≠ .null)
    chosen := L.chosen || RequestKind.selects o v
    output := L.output || (o = .writeData && v.isOutput)
    options := Function.update L.options o v }

def restored (L : Ledger) (o : CurlOption) (v : OptionValue) (ok : Bool) : Ledger :=
  { L with
    mine := Function.update L.mine o false
    options := if ok then Function.update L.options o v else L.options
    spoiled := L.spoiled || !ok }

/-- Taking or releasing the lock: what was known of the last transfer is over. -/
def relocked (L : Ledger) (held : Bool) : Ledger :=
  { L with held, own := false, reply := false, output := false }

def transferred (L : Ledger) : Ledger := { L with own := true }

def cleared (L : Ledger) : Ledger := { L with reply := true }

def next (L : Ledger) : (a : ClientAction) → a.Answer → Ledger
  | .lock, _ => L.relocked true
  | .unlock, _ => L.relocked false
  | .setopt o v, ok => if (ok : Bool) then L.set o v else L
  | .restore o v, ok => L.restored o v ok
  | .perform, _ => L.transferred
  | .clearBuffer, _ => L.cleared
  | _, _ => L

def allows (d : Demands) (L : Ledger) : ClientAction → Prop
  | .lock => d.lock = true → L.held = false
  | .unlock => d.lock = true → L.held = true
  | .setopt _ _ | .restore _ _ | .access _ | .clearBuffer => d.mutex = true → L.held = true
  | .perform => (d.mutex = true → L.held = true) ∧ (d.sink = true → ∀ o ∈ sinkOptions, L.mine o = true) ∧
      (d.kind = true → L.chosen = true)
  | .getinfo _ => d.mutex = true → L.held = true ∧ L.own = true
  | .readBuffer => d.mutex = true → L.held = true ∧ L.reply = true
  | .readOutput => d.mutex = true → L.held = true ∧ L.output = true
  | _ => True

def watcher (d : Demands) : Watcher ClientAction.Answer Ledger := ⟨allows d, next⟩

/-- What a part of a call that leaves the lock alone keeps of the ledger. `touched` are options it
may give up. -/
structure Kept (touched : Set CurlOption) (L M : Ledger) : Prop where
  held : M.held = L.held
  mine : ∀ o, o ∉ touched → L.mine o = true → M.mine o = true
  chosen : L.chosen = true → M.chosen = true
  own : L.own = true → M.own = true
  reply : L.reply = true → M.reply = true
  output : L.output = true → M.output = true
  spoiled : L.spoiled = true → M.spoiled = true
  options : M.spoiled = false → ∀ o, M.options o = L.options o ∨ M.options o = o.unset

section

variable {L : Ledger} {o p : CurlOption} {v : OptionValue}

@[simp] theorem mine_set : (L.set o v).mine p = if p = o then decide (v ≠ .null) else L.mine p := by
  by_cases same : p = o
  · subst same
    simp [set]
  · simp [set, same]

@[simp] theorem chosen_set : (L.set o v).chosen = (L.chosen || RequestKind.selects o v) := rfl

@[simp] theorem output_set : (L.set o v).output = (L.output || (o = .writeData && v.isOutput)) := rfl

@[simp] theorem held_set : (L.set o v).held = L.held := rfl

@[simp] theorem mine_transferred : L.transferred.mine = L.mine := rfl

@[simp] theorem mine_cleared : L.cleared.mine = L.mine := rfl

@[simp] theorem chosen_cleared : L.cleared.chosen = L.chosen := rfl

@[simp] theorem output_transferred : L.transferred.output = L.output := rfl

theorem sinks_mine (url : L.mine .url = true) (httpHeader : L.mine .httpHeader = true)
    (writeFunction : L.mine .writeFunction = true) (writeData : L.mine .writeData = true) :
    ∀ o ∈ sinkOptions, L.mine o = true := by
  simp [sinkOptions, url, httpHeader, writeFunction, writeData]

end

theorem kept_refl : Kept touched L L :=
  ⟨rfl, fun _ _ => id, id, id, id, id, id, fun _ _ => .inl rfl⟩

theorem Kept.trans (first : Kept touched L M) (second : Kept touched M N) : Kept touched L N where
  held := second.held.trans first.held
  mine o untouched known := second.mine o untouched (first.mine o untouched known)
  chosen known := second.chosen (first.chosen known)
  own known := second.own (first.own known)
  reply known := second.reply (first.reply known)
  output known := second.output (first.output known)
  spoiled known := second.spoiled (first.spoiled known)
  options sound o := by
    have before : M.spoiled = false := by
      cases known : M.spoiled with
      | false => rfl
      | true => simp [second.spoiled known] at sound
    rcases second.options sound o with same | unset
    · rw [same]
      exact first.options before o
    · exact .inr unset

theorem Kept.mono {wider : Set CurlOption} (kept : Kept touched L M) (subset : touched ⊆ wider) : Kept wider L M :=
  { kept with mine := fun o untouched => kept.mine o fun member => untouched (subset member) }

theorem kept_transferred : Kept touched L L.transferred :=
  { kept_refl with own := fun _ => rfl }

theorem kept_cleared : Kept touched L L.cleared :=
  { kept_refl with reply := fun _ => rfl }

/-- An option that is set, and in the end restored to the value it has when it was never set. -/
theorem kept_restored {o : CurlOption} (member : o ∈ touched) (kept : Kept touched (L.set o v) M) (ok : Bool) :
    Kept touched L (M.restored o o.unset ok) where
  held := kept.held
  mine p untouched known := by
    have other : p ≠ o := fun same => untouched (same ▸ member)
    have before : (L.set o v).mine p = true := by simpa [set, Function.update_of_ne other] using known
    simpa [restored, Function.update_of_ne other] using kept.mine p untouched before
  chosen known := kept.chosen (by simp [set, known])
  own := kept.own
  reply := kept.reply
  output known := kept.output (by simp [set, known])
  spoiled known := by simp [restored, kept.spoiled known]
  options sound p := by
    simp only [restored, Bool.or_eq_false_iff, Bool.not_eq_false'] at sound ⊢
    by_cases same : p = o
    · subst same
      simp [sound.2]
    · simpa [sound.2, set, Function.update_of_ne same] using kept.options sound.1 p

theorem kept_restored_only {o : CurlOption} (member : o ∈ touched) (ok : Bool) :
    Kept touched L (L.restored o o.unset ok) where
  held := rfl
  mine p untouched known := by
    have other : p ≠ o := fun same => untouched (same ▸ member)
    simpa [restored, Function.update_of_ne other] using known
  chosen := id
  own := id
  reply := id
  output := id
  spoiled known := by simp [restored, known]
  options sound p := by
    simp only [restored, Bool.or_eq_false_iff, Bool.not_eq_false'] at sound ⊢
    by_cases same : p = o
    · subst same
      simp [sound.2]
    · simp [sound.2, Function.update_of_ne same]

end Ledger

open Ledger

/-- The lock is held, where that is asked for. -/
def Ready (d : Demands) (L : Ledger) : Prop := d.mutex = true → L.held = true

/-- How a part of a call ends: what it keeps, and whether a return means that the last transfer
was its own. -/
def Ends (touched : Set CurlOption) (sure : Bool) (L : Ledger) (r : Except Thrown α) (M : Ledger) : Prop :=
  Kept touched L M ∧ (sure = true → (∃ x, r = .ok x) → M.own = true)

/-- A part of a call that expects the mutex to be locked. -/
def Respects (d : Demands) (touched : Set CurlOption) (sure : Bool) (L : Ledger) (p : Request α) : Prop :=
  p.Obeys (watcher d) (Ends touched sure L) L

theorem Respects.forget {p : Request α} (respects : Respects d touched sure L p) : Respects d touched false L p :=
  respects.mono fun _ _ ends => ⟨ends.1, fun impossible => nomatch impossible⟩

theorem Respects.widen {wider : Set CurlOption} {p : Request α} (respects : Respects d touched sure L p)
    (subset : touched ⊆ wider) : Respects d wider sure L p :=
  respects.mono fun _ _ ends => ⟨ends.1.mono subset, ends.2⟩

/-- The rest of a part, from a ledger that kept what was known. -/
theorem Respects.later {p : Request α} (respects : Respects d touched sure M p) (kept : Kept touched L M) :
    p.Obeys (watcher d) (Ends touched sure L) M :=
  respects.mono fun _ _ ends => ⟨kept.trans ends.1, ends.2⟩

theorem respects_returns {x : α} (own : sure = true → L.own = true) :
    Respects d touched sure L (pure x : Request α) :=
  ⟨kept_refl, fun asked _ => own asked⟩

theorem respects_throws {e : Thrown} : Respects d touched sure L (Program.throws e : Request α) :=
  ⟨kept_refl, fun _ returned => nomatch returned.choose_spec⟩

theorem respects_lift {r : Except Thrown α} (own : sure = true → L.own = true) :
    Respects d touched sure L (Program.lift r : Request α) := by
  cases r with
  | ok x => exact respects_returns own
  | error e => exact respects_throws

theorem Respects.bind {p : Request β} {f : β → Request α} (first : Respects d touched false L p)
    (rest : ∀ x M, Kept touched L M → Respects d touched sure M (f x)) :
    Respects d touched sure L (p >>= f) := by
  refine Program.Obeys.bind first (fun e M ends => ⟨ends.1, fun _ returned => nomatch returned.choose_spec⟩) ?_
  exact fun x M ends => (rest x M ends.1).later ends.1

/-- The value of a part that made a transfer does not matter to who made it. -/
theorem Respects.bind_transferred {p : Request β} {f : β → Request α} (first : Respects d touched true L p)
    (rest : ∀ x M, Kept touched L M → M.own = true → Respects d touched sure M (f x)) :
    Respects d touched sure L (p >>= f) := by
  refine Program.Obeys.bind first (fun e M ends => ⟨ends.1, fun _ returned => nomatch returned.choose_spec⟩) ?_
  exact fun x M ends => (rest x M ends.1 (ends.2 rfl ⟨x, rfl⟩)).later ends.1

theorem respects_demand {ok : Bool} {e : Thrown} {f : Unit → Request α}
    (rest : ok = true → Respects d touched sure L (f ())) :
    Respects d touched sure L (Request.demand ok e >>= f) := by
  cases ok with
  | false => exact respects_throws
  | true => exact rest rfl

theorem respects_demand_last {ok : Bool} {e : Thrown} (own : sure = true → L.own = true) :
    Respects d touched sure L (Request.demand ok e) := by
  cases ok with
  | false => exact respects_throws
  | true => exact respects_returns own

theorem respects_act {a : ClientAction} {f : a.Answer → Request α} (allowed : allows d L a)
    (unchanged : ∀ r, L.next a r = L)
    (rest : ∀ r, Respects d touched sure L (f r)) : Respects d touched sure L (Request.act a >>= f) :=
  ⟨allowed, fun r => show Program.Obeys _ _ (L.next a r) (f r) by rw [unchanged r]; exact rest r⟩

section

variable {d : Demands} {L : Ledger} (ready : Ready d L)
include ready

theorem respects_saveSetter_touching {o : CurlOption} {curvalue newvalue : OptionValue} {scope : Request α}
    (unset : curvalue = o.unset) (member : o ∈ touched)
    (inside : Ready d (L.set o newvalue) → Respects d touched sure (L.set o newvalue) scope) :
    Respects d touched sure L (Request.saveSetter o curvalue newvalue scope) := by
  subst unset
  -- The scope ends with the option set, or the setter has failed and nothing has changed.
  have body : (Request.setter o newvalue >>= fun _ => scope).Obeys (watcher d) (fun r M =>
      (Kept touched (L.set o newvalue) M ∧ (sure = true → (∃ x, r = .ok x) → M.own = true)) ∨
      (M = L ∧ ¬∃ x, r = .ok x)) L := by
    refine ⟨ready, fun ok => ?_⟩
    cases ok with
    | false => exact .inr ⟨rfl, fun returned => nomatch returned.choose_spec⟩
    | true => exact (inside ready).mono fun _ _ => .inl
  refine body.guarded _ fun r M ends => ?_
  rcases ends with ⟨kept, own⟩ | ⟨rfl, failed⟩
  · exact ⟨fun asked => kept.held.trans (ready asked), fun ok => ⟨kept_restored member kept ok, own⟩⟩
  · exact ⟨ready, fun ok => ⟨kept_restored_only member ok, fun _ returned => absurd returned failed⟩⟩

theorem respects_saveSetter {o : CurlOption} {curvalue newvalue : OptionValue} {scope : Request α}
    (unset : curvalue = o.unset)
    (inside : Ready d (L.set o newvalue) → Respects d Set.univ sure (L.set o newvalue) scope) :
    Respects d Set.univ sure L (Request.saveSetter o curvalue newvalue scope) :=
  respects_saveSetter_touching ready unset (Set.mem_univ o) inside

theorem respects_access {s : Scratch} {f : Unit → Request α} (rest : Respects d touched sure L (f ())) :
    Respects d touched sure L (Request.act (.access s) >>= f) :=
  respects_act ready (fun _ => rfl) fun _ => rest

theorem respects_clearBuffer {f : Unit → Request α} 
    (rest : Ready d L.cleared → Respects d touched sure L.cleared (f ())) :
    Respects d touched sure L (Request.act .clearBuffer >>= f) :=
  ⟨ready, fun _ => (rest ready).later kept_cleared⟩

theorem respects_perform {f : Unit → Request α} (sinks : d.sink = true → ∀ o ∈ sinkOptions, L.mine o = true)
    (chosen : d.kind = true → L.chosen = true)
    (rest : Ready d L.transferred → Respects d touched sure L.transferred (f ())) :
    Respects d touched sure L (Request.perform >>= f) := by
  refine ⟨⟨ready, sinks, chosen⟩, fun ok => ?_⟩
  cases ok with
  | false => exact ⟨kept_transferred, fun _ _ => rfl⟩
  | true => exact (rest ready).later kept_transferred

theorem respects_infoGetter {info : CurlInfo} {f : Int → Request α} (own : L.own = true)
    (rest : ∀ value, Respects d touched sure L (f value)) :
    Respects d touched sure L (Request.infoGetter info >>= f) := by
  refine ⟨fun asked => ⟨ready asked, own⟩, fun value => ?_⟩
  cases value with
  | none => exact respects_throws
  | some value => exact rest value

theorem respects_infoGetter_last {info : CurlInfo} (own : L.own = true) :
    Respects d touched sure L (Request.infoGetter info) := by
  refine ⟨fun asked => ⟨ready asked, own⟩, fun value => ?_⟩
  cases value with
  | none => exact respects_throws
  | some value => exact respects_returns fun _ => own

theorem respects_readBuffer {f : Text → Request α} (reply : L.reply = true)
    (rest : ∀ body, Respects d touched sure L (f body)) :
    Respects d touched sure L (Request.act .readBuffer >>= f) :=
  respects_act (fun asked => ⟨ready asked, reply⟩) (fun _ => rfl) rest

theorem respects_readOutput {f : Text → Request α} (output : L.output = true)
    (rest : ∀ body, Respects d touched sure L (f body)) :
    Respects d touched sure L (Request.act .readOutput >>= f) :=
  respects_act (fun asked => ⟨ready asked, output⟩) (fun _ => rfl) rest

end

theorem respects_calls : Respects d touched false L Request.calls :=
  ⟨trivial, fun _ => respects_demand_last fun impossible => nomatch impossible⟩

/-- How a call ends: without the lock, and with the options of requests as they were or as
they are when nothing was set. -/
structure Ledger.CallKept (d : Demands) (L M : Ledger) : Prop where
  held : d.lock = true → M.held = false
  spoiled : L.spoiled = true → M.spoiled = true
  options : M.spoiled = false → ∀ o : CurlOption, o.ofClient = false → M.options o = L.options o ∨
    M.options o = o.unset

theorem Ledger.CallKept.trans (first : CallKept d L M) (second : CallKept d M N) : CallKept d L N where
  held := second.held
  spoiled known := second.spoiled (first.spoiled known)
  options sound o ofRequest := by
    have before : M.spoiled = false := by
      cases known : M.spoiled with
      | false => rfl
      | true => simp [second.spoiled known] at sound
    rcases second.options sound o ofRequest with same | unset
    · rw [same]
      exact first.options before o ofRequest
    · exact .inr unset

/-- A call, or a part of one that does not expect the mutex to be locked. -/
def CallRespects (d : Demands) (L : Ledger) (p : Request α) : Prop :=
  p.Obeys (watcher d) (fun _ M => CallKept d L M) L

section

variable {d : Demands} {L : Ledger} (free : d.lock = true → L.held = false)
include free

theorem callRespects_returns {x : α} : CallRespects d L (pure x : Request α) := ⟨free, id, fun _ _ _ => .inl rfl⟩

theorem callRespects_throws {e : Thrown} : CallRespects d L (Program.throws e : Request α) :=
  ⟨free, id, fun _ _ _ => .inl rfl⟩

theorem callRespects_lift {r : Except Thrown α} : CallRespects d L (Program.lift r : Request α) := by
  cases r with
  | ok x => exact callRespects_returns free
  | error e => exact callRespects_throws free

omit free in
theorem callRespects_act {a : ClientAction} {f : a.Answer → Request α} (allowed : allows d L a)
    (unchanged : ∀ r, L.next a r = L)
    (rest : ∀ r, CallRespects d L (f r)) : CallRespects d L (Request.act a >>= f) :=
  ⟨allowed, fun r => show Program.Obeys _ _ (L.next a r) (f r) by rw [unchanged r]; exact rest r⟩

theorem callRespects_demand {ok : Bool} {e : Thrown} {f : Unit → Request α} (rest : CallRespects d L (f ())) :
    CallRespects d L (Request.demand ok e >>= f) := by
  cases ok with
  | false => exact callRespects_throws free
  | true => exact rest

theorem callRespects_calls : CallRespects d L Request.calls :=
  ⟨trivial, fun ok => by cases ok with | false => exact callRespects_throws free | true =>
    exact callRespects_returns free⟩

/-- What expects the lock, called without it. -/
theorem Respects.call {p : Request α} (respects : Respects d touched sure L p) : CallRespects d L p :=
  respects.mono fun _ _ ends =>
    ⟨fun asked => ends.1.held.trans (free asked), ends.1.spoiled, fun sound o _ => ends.1.options sound o⟩

theorem callRespects_locked {scope : Request α}
    (inside : Ready d (L.relocked true) → Respects d Set.univ false (L.relocked true) scope) :
    CallRespects d L (Request.locked scope) := by
  refine ⟨free, fun _ => (inside fun _ => rfl).guarded _ fun r M ends => ?_⟩
  exact ⟨fun _ => ends.1.held, fun _ => ⟨fun _ => rfl, ends.1.spoiled, fun sound o _ => ends.1.options sound o⟩⟩

/-- Setting an option of the client, for good. -/
theorem callRespects_setter (o : CurlOption) {v : OptionValue} {f : Unit → Request α} (ready : Ready d L)
    (ofClient : o.ofClient = true)
    (rest : (d.lock = true → (L.set o v).held = false) → Ready d (L.set o v) → CallRespects d (L.set o v) (f ())) :
    CallRespects d L (Request.setter o v >>= f) := by
  refine ⟨ready, fun ok => ?_⟩
  cases ok with
  | false => exact callRespects_throws free
  | true =>
    have kept : CallKept d L (L.set o v) := ⟨free, id, fun _ p ofRequest => .inl <| by
      have other : p ≠ o := fun same => by simp [same, ofClient] at ofRequest
      simp [Ledger.set, Function.update_of_ne other]⟩
    exact (rest free ready).mono fun _ M later => kept.trans later

end

theorem CallRespects.bind {p : Request β} {f : β → Request α} (first : CallRespects d L p)
    (rest : ∀ x M, (d.lock = true → M.held = false) → CallRespects d M (f x)) : CallRespects d L (p >>= f) :=
  Program.Obeys.bind first (fun _ _ kept => kept) fun x M kept => (rest x M kept.held).mono fun _ _ later =>
    kept.trans later

theorem callRespects_setter_last {d : Demands} {L : Ledger} {o : CurlOption} {v : OptionValue}
    (free : d.lock = true → L.held = false)
    (ready : Ready d L) (ofClient : o.ofClient = true) : CallRespects d L (Request.setter o v) := by
  refine ⟨ready, fun ok => ?_⟩
  cases ok with
  | false => exact callRespects_throws free
  | true =>
    refine ⟨free, id, fun _ p ofRequest => .inl ?_⟩
    have other : p ≠ o := fun same => by simp [same, ofClient] at ofRequest
    exact Function.update_of_ne other _ _

/-- A call whose result is dropped. -/
theorem CallRespects.drop {p : Request α} (respects : CallRespects d L p) :
    CallRespects d L (p >>= fun _ => pure ()) :=
  respects.bind fun _ _ free => callRespects_returns free

theorem Respects.drop {p : Request α} (respects : Respects d Set.univ sure L p) :
    Respects d Set.univ false L (p >>= fun _ => pure ()) :=
  respects.forget.bind fun _ _ _ => respects_returns (by simp)

/-- An action without a lock, where that is not asked about. -/
theorem callRespects_access {d : Demands} {L : Ledger} {s : Scratch} (free : d.lock = true → L.held = false)
    (unasked : d.mutex = false) :
    CallRespects d L (Request.act (.access s)) :=
  ⟨fun asked => by simp [unasked] at asked, fun _ => callRespects_returns free⟩

/-- A second lock around a call, where that is not asked about. -/
theorem callRespects_locked_again {scope : Request α} (unasked : d.lock = false)
    (inside : CallRespects d (L.relocked true) scope) :
    CallRespects d L (Request.locked scope) := by
  have never : ∀ P : Prop, d.lock = true → P := fun _ asked => by simp [unasked] at asked
  refine ⟨never _, fun _ => inside.guarded _ fun r M kept => ?_⟩
  exact ⟨never _, fun _ => ⟨never _, kept.spoiled, fun sound => kept.options sound⟩⟩

-- From here on the rules are all there is: unfolding would run the programs.
attribute [irreducible] Respects CallRespects

end MujinClient
