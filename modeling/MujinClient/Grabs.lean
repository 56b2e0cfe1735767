import MujinClient.Text
import MujinClient.Transition

/-! `GrabObject` and `ReleaseObject` of an `InstObject`. Each makes the whole new list of grabs
from the cached one and PUTs it. -/
namespace MujinClient

open Transition

structure Grab where
  instobjectpk : Text
  grabbed_linkpk : Text
  grabbing_linkpk : Text
  deriving DecidableEq

def Grab.serialize (g : Grab) : Text :=
  lit "\x7b\"instobjectpk\": \"" ++ g.instobjectpk ++ lit "\", \"grabbed_linkpk\": \"" ++ g.grabbed_linkpk ++
  lit "\",  \"grabbing_linkpk\": \"" ++ g.grabbing_linkpk ++ lit "\"\x7d"

/-- The body a list of grabs is PUT in. Every cached grab is followed by a separator. -/
def serializeEach (grabs : List Grab) : Text := grabs.flatMap fun g => g.serialize ++ lit ", "

def grabBody (grabs : List Grab) (grab : Grab) : Text :=
  lit "\x7b\"grabs\":" ++ lit "[" ++ serializeEach grabs ++ grab.serialize ++ lit "]\x7d"

def releaseBody (grabs : List Grab) (igrab : Nat) : Text :=
  lit "\x7b\"grabs\":" ++ lit "[" ++
  (if grabs.length > 0 then serializeEach grabs ++ (if igrab ≠ grabs.length - 1 then lit ", " else []) else []) ++
  lit "]\x7d"

/-- The body enumerates these grabs, each followed by any separators. -/
def Enumerates (body : Text) (grabs : List Grab) : Prop :=
  ∃ items : List (Grab × Text), items.map Prod.fst = grabs ∧
    (∀ item ∈ items, ∀ b ∈ item.2, b = byte ',' ∨ b = byte ' ') ∧
    body = lit "\x7b\"grabs\":" ++ lit "[" ++ items.flatMap (fun item => item.1.serialize ++ item.2) ++ lit "]\x7d"

/-- `std::remove` behind the first element equal to `value`, which is a reference to that element:
the first element that is kept moves there and is what the later ones are compared with. -/
def removeBehind (value : Grab) : List Grab → List Grab
  | [] => []
  | g :: rest => if g = value then removeBehind value rest else g :: rest.filter (· ≠ g)

/-- `grabs.erase(std::remove(grabs.begin(), grabs.end(), grabs[igrab]), grabs.end())`, where no
element in front of `igrab` is equal to that one. -/
def eraseGrab (grabs : List Grab) (igrab : Nat) (value : Grab) : List Grab :=
  grabs.take igrab ++ removeBehind value (grabs.drop (igrab + 1))

theorem removeBehind_eq {rest : List Grab} (absent : value ∉ rest) (distinct : rest.Nodup) :
    removeBehind value rest = rest := by
  cases rest with
  | nil => rfl
  | cons g rest =>
    obtain ⟨fresh, distinct⟩ := List.nodup_cons.mp distinct
    have other : g ≠ value := fun same => absent (same ▸ List.mem_cons_self)
    have kept : rest.filter (· ≠ g) = rest :=
      List.filter_eq_self.mpr fun x inside => by simpa using ne_of_mem_of_not_mem inside fresh
    rw [removeBehind, if_neg other, kept]

/-- Without duplicates only the one element goes. -/
theorem eraseGrab_eq {grabs : List Grab} (distinct : grabs.Nodup) {i : Nat} (bound : i < grabs.length) :
    eraseGrab grabs i grabs[i] = grabs.erase grabs[i] := by
  have split : grabs = grabs.take i ++ grabs[i] :: grabs.drop (i + 1) := by simp
  have behind := (List.nodup_append.mp (split ▸ distinct)).2.1
  obtain ⟨absent, rest⟩ := List.nodup_cons.mp behind
  rw [eraseGrab, removeBehind_eq absent rest, ← List.eraseIdx_eq_take_drop_succ, distinct.erase_getElem]

inductive GrabCall where
  | grabObject (grab : Grab)
  /-- The loop goes on at this index. -/
  | releaseObject (grab : Grab) (igrab : Nat)
  deriving DecidableEq

namespace GrabCall

def object : GrabCall → Grab
  | grabObject grab | releaseObject grab _ => grab

def grabbed : GrabCall → List Grab
  | grabObject grab => [grab]
  | releaseObject _ _ => []

def released : GrabCall → List Grab
  | grabObject _ => []
  | releaseObject grab _ => [grab]

/-- What a call that succeeds does to the set of grabs. -/
def apply : GrabCall → Finset Grab → Finset Grab
  | grabObject grab, grabs => insert grab grabs
  | releaseObject grab _, grabs => grabs.erase grab

end GrabCall

structure GrabPut where
  call : GrabCall
  body : Text
  grabs : List Grab
  enumerates : Enumerates body grabs

theorem separator_comma : ∀ b ∈ lit ", ", b = byte ',' ∨ b = byte ' ' := by
  have spelled : lit ", " = [byte ',', byte ' '] := lit_ofList [',', ' ']
  simp [spelled]

theorem enumerates_grabBody (grabs : List Grab) (grab : Grab) :
    Enumerates (grabBody grabs grab) (grabs ++ [grab]) := by
  refine ⟨grabs.map (·, lit ", ") ++ [(grab, [])], by simp [Function.comp_def], ?_, ?_⟩
  · intro item member
    rcases List.mem_append.mp member with cached | last
    · obtain ⟨g, -, rfl⟩ := List.mem_map.mp cached
      exact separator_comma
    · obtain rfl := List.mem_singleton.mp last
      simp
  · simp [grabBody, serializeEach, List.flatMap_map]

theorem enumerates_releaseBody (grabs : List Grab) (igrab : Nat) : Enumerates (releaseBody grabs igrab) grabs := by
  rcases List.eq_nil_or_concat grabs with rfl | ⟨front, last, rfl⟩
  · exact ⟨[], rfl, by simp, by simp [releaseBody]⟩
  · by_cases tail : igrab = front.length
    · refine ⟨(front ++ [last]).map (·, lit ", "), by simp [Function.comp_def], ?_, ?_⟩
      · intro item member
        obtain ⟨g, -, rfl⟩ := List.mem_map.mp member
        exact separator_comma
      · simp [releaseBody, serializeEach, tail, List.flatMap_map]
    · refine ⟨front.map (·, lit ", ") ++ [(last, lit ", " ++ lit ", ")], by simp [Function.comp_def], ?_, ?_⟩
      · intro item member
        rcases List.mem_append.mp member with cached | only
        · obtain ⟨g, -, rfl⟩ := List.mem_map.mp cached
          exact separator_comma
        · obtain rfl := List.mem_singleton.mp only
          intro b inside
          rcases List.mem_append.mp inside with inside | inside <;> exact separator_comma b inside
      · simp [releaseBody, serializeEach, tail, List.flatMap_map]

/-- The cached grabs of an `InstObject` and the list on the server. `applied` is what the calls that
succeeded make of the initial list, and `unsettled` are the objects a call has grabbed or has failed
to release. -/
structure GrabSession where
  grabs : List Grab
  server : List Grab
  pending : Option GrabPut
  applied : Finset Grab
  unsettled : List Grab

inductive GrabEvent where
  | grabObject (grab : Grab)
  | releaseObject (grab : Grab)
  | putSucceeds
  | putFails

namespace GrabSession

def start (grabs : List Grab) : GrabSession := ⟨grabs, grabs, none, grabs.toFinset, []⟩

def grabObject (s : GrabSession) (grab : Grab) : GrabSession :=
  if grab ∈ s.grabs then s
  else { s with pending := some ⟨.grabObject grab, grabBody s.grabs grab, s.grabs ++ [grab],
    enumerates_grabBody _ _⟩ }

/-- The loop of `ReleaseObject` from an index on, up to its next PUT. -/
def releaseFrom (s : GrabSession) (grab : Grab) (igrab : Nat) : GrabSession :=
  match (s.grabs.drop igrab).findIdx? (· = grab) with
  | none => s
  | some i =>
    let grabs := eraseGrab s.grabs (igrab + i) grab
    { s with
      grabs := grabs
      pending := some ⟨.releaseObject grab (igrab + i + 1), releaseBody grabs (igrab + i), grabs,
        enumerates_releaseBody _ _⟩ }

/-- The server stores the list and the call goes on. -/
def succeed (s : GrabSession) (put : GrabPut) : GrabSession :=
  let stored : GrabSession :=
    { s with
      server := put.grabs
      pending := none
      applied := put.call.apply s.applied
      unsettled := put.call.grabbed ++ s.unsettled }
  match put.call with
  | .grabObject _ => stored
  | .releaseObject grab igrab => stored.releaseFrom grab igrab

/-- `CallPutJSON` throws out of the call. -/
def fail (s : GrabSession) (put : GrabPut) : GrabSession :=
  { s with pending := none, unsettled := put.call.released ++ s.unsettled }

def step (s : GrabSession) (event : GrabEvent) : Option GrabSession :=
  match s.pending, event with
  | none, .grabObject grab => some (s.grabObject grab)
  | none, .releaseObject grab => some (s.releaseFrom grab 0)
  | some put, .putSucceeds => some (s.succeed put)
  | some put, .putFails => some (s.fail put)
  | _, _ => none

/-- Every object that an earlier call has grabbed or has failed to release is the one of this call. -/
def Settled (s : GrabSession) : GrabEvent → Prop
  | .putSucceeds => ∀ put ∈ s.pending, ∀ grab ∈ s.unsettled, grab = put.call.object
  | _ => True

/-- The list that a PUT leaves on the server is what the successful calls make of the initial one. -/
def Stores (s : GrabSession) : GrabEvent → Prop
  | .putSucceeds => ∀ next, s.step .putSucceeds = some next → next.server.toFinset = next.applied
  | _ => True

/-- The cache lacks what is unsettled, and the object that is being released. -/
structure Accounts (s : GrabSession) : Prop where
  distinct : s.grabs.Nodup
  apart : ∀ grab ∈ s.unsettled, grab ∉ s.grabs
  idle : s.pending = none → s.applied = s.grabs.toFinset ∪ s.unsettled.toFinset
  waits : ∀ put, s.pending = some put → put.grabs = s.grabs ++ put.call.grabbed ∧ put.call.object ∉ s.grabs ∧
    s.applied = s.grabs.toFinset ∪ s.unsettled.toFinset ∪ put.call.released.toFinset ∧
    ∀ grab ∈ put.call.released, grab ∉ s.unsettled

variable {s : GrabSession} {grab : Grab}

theorem start_accounts {grabs : List Grab} (distinct : grabs.Nodup) : (start grabs).Accounts :=
  ⟨distinct, by simp [start], by simp [start], by simp [start]⟩

theorem releaseFrom_absent (absent : grab ∉ s.grabs) (igrab : Nat) : s.releaseFrom grab igrab = s := by
  have none : (s.grabs.drop igrab).findIdx? (· = grab) = none := by
    refine List.findIdx?_eq_none_iff.mpr fun g inside => ?_
    simpa using ne_of_mem_of_not_mem (List.mem_of_mem_drop inside) absent
  rw [releaseFrom, none]

theorem releaseFrom_cached (distinct : s.grabs.Nodup) (cached : grab ∈ s.grabs) :
    ∃ put, s.releaseFrom grab 0 = { s with grabs := s.grabs.erase grab, pending := some put } ∧
      (∃ igrab, put.call = .releaseObject grab igrab) ∧ put.grabs = s.grabs.erase grab := by
  obtain ⟨i, found⟩ : ∃ i, s.grabs.findIdx? (· = grab) = some i := by
    refine Option.isSome_iff_exists.mp ?_
    simpa [List.findIdx?_isSome] using cached
  obtain ⟨bound, same, -⟩ := List.findIdx?_eq_some_iff_getElem.mp found
  obtain rfl : s.grabs[i] = grab := by simpa using same
  have erased := eraseGrab_eq distinct bound
  refine ⟨⟨.releaseObject s.grabs[i] (i + 1), releaseBody (s.grabs.erase s.grabs[i]) i, s.grabs.erase s.grabs[i],
    enumerates_releaseBody _ _⟩, ?_, ⟨i + 1, rfl⟩, rfl⟩
  simp only [releaseFrom, List.drop_zero, found, Nat.zero_add, erased]

theorem accounts_grabObject (accounts : s.Accounts) (idle : s.pending = none) (grab : Grab) :
    (s.grabObject grab).Accounts := by
  unfold grabObject
  split
  · exact accounts
  · rename_i absent
    refine ⟨accounts.distinct, accounts.apart, by simp, ?_⟩
    intro put waiting
    obtain rfl := Option.some.inj waiting
    exact ⟨rfl, absent, by simp [GrabCall.released, accounts.idle idle], by simp [GrabCall.released]⟩

theorem accounts_releaseObject (accounts : s.Accounts) (idle : s.pending = none) (grab : Grab) :
    (s.releaseFrom grab 0).Accounts := by
  by_cases cached : grab ∈ s.grabs
  · obtain ⟨put, same, ⟨igrab, call⟩, stored⟩ := releaseFrom_cached accounts.distinct cached
    have apart : grab ∉ s.unsettled := fun unsettled => accounts.apart grab unsettled cached
    rw [same]
    refine ⟨accounts.distinct.erase grab, fun g unsettled inside => ?_, by simp, ?_⟩
    · exact accounts.apart g unsettled (List.mem_of_mem_erase inside)
    · intro _ waiting
      obtain rfl := Option.some.inj waiting
      refine ⟨by simp [stored, call, GrabCall.grabbed], ?_, ?_, by simp [call, GrabCall.released, apart]⟩
      · simp [call, GrabCall.object, accounts.distinct.mem_erase_iff]
      · rw [accounts.idle idle]
        ext g
        by_cases g = grab <;> simp_all [GrabCall.released, accounts.distinct.mem_erase_iff]
  · rw [releaseFrom_absent cached]
    exact accounts

theorem succeed_eq (accounts : s.Accounts) (waiting : s.pending = some put) : s.succeed put =
    { s with
      server := put.grabs, pending := none, applied := put.call.apply s.applied
      unsettled := put.call.grabbed ++ s.unsettled } := by
  obtain ⟨-, absent, -⟩ := accounts.waits put waiting
  unfold succeed
  cases call : put.call with
  | grabObject grab => rfl
  | releaseObject grab igrab =>
    rw [call] at absent
    dsimp only
    refine releaseFrom_absent ?_ igrab
    exact absent

/-- What the successful calls make of the list, in terms of the cache. -/
theorem applied_succeed (accounts : s.Accounts) (waiting : s.pending = some put) :
    put.call.apply s.applied = s.grabs.toFinset ∪ (put.call.grabbed ++ s.unsettled).toFinset := by
  obtain ⟨-, absent, applied, apart⟩ := accounts.waits put waiting
  rw [applied]
  cases call : put.call with
  | grabObject grab =>
    ext g
    simp [GrabCall.apply, GrabCall.grabbed, GrabCall.released]
  | releaseObject grab igrab =>
    simp only [call, GrabCall.object, GrabCall.released, List.mem_singleton, forall_eq] at absent apart
    ext g
    by_cases g = grab <;> simp_all [GrabCall.apply, GrabCall.grabbed, GrabCall.released]

theorem accounts_succeed (accounts : s.Accounts) (waiting : s.pending = some put) : (s.succeed put).Accounts := by
  obtain ⟨-, absent, -⟩ := accounts.waits put waiting
  rw [succeed_eq accounts waiting]
  refine ⟨accounts.distinct, fun g unsettled => ?_, fun _ => applied_succeed accounts waiting, by simp⟩
  rcases List.mem_append.mp unsettled with grabbed | unsettled
  · cases call : put.call with
    | grabObject grab =>
      simp only [call, GrabCall.grabbed, GrabCall.object, List.mem_singleton] at grabbed absent
      exact grabbed ▸ absent
    | releaseObject grab igrab => simp [call, GrabCall.grabbed] at grabbed
  · exact accounts.apart g unsettled

theorem accounts_fail (accounts : s.Accounts) (waiting : s.pending = some put) : (s.fail put).Accounts := by
  obtain ⟨-, absent, applied, -⟩ := accounts.waits put waiting
  refine ⟨accounts.distinct, fun g unsettled => ?_, fun _ => ?_, by simp [fail]⟩
  · rcases List.mem_append.mp unsettled with released | unsettled
    · cases call : put.call with
      | grabObject grab => simp [call, GrabCall.released] at released
      | releaseObject grab igrab =>
        simp only [call, GrabCall.released, GrabCall.object, List.mem_singleton] at released absent
        exact released ▸ absent
    · exact accounts.apart g unsettled
  · show s.applied = s.grabs.toFinset ∪ (put.call.released ++ s.unsettled).toFinset
    rw [applied, List.toFinset_append, Finset.union_assoc, Finset.union_comm s.unsettled.toFinset]

theorem accounts_step (accounts : s.Accounts) (taken : s.step event = some next) : next.Accounts := by
  unfold step at taken
  split at taken
  · rename_i idle
    obtain rfl := Option.some.inj taken
    exact accounts_grabObject accounts idle _
  · rename_i idle
    obtain rfl := Option.some.inj taken
    exact accounts_releaseObject accounts idle _
  · rename_i waiting
    obtain rfl := Option.some.inj taken
    exact accounts_succeed accounts waiting
  · rename_i waiting
    obtain rfl := Option.some.inj taken
    exact accounts_fail accounts waiting
  · simp at taken

/-- The list that is stored is the right one exactly if the cache lacks nothing but the object of
the call. -/
theorem settled_iff (accounts : s.Accounts) (event : GrabEvent) : s.Settled event ↔ s.Stores event := by
  cases event with
  | putSucceeds =>
    cases waiting : s.pending with
    | none => simp [Settled, Stores, step, waiting]
    | some put =>
      obtain ⟨stored, absent, applied, apart⟩ := accounts.waits put waiting
      have taken : s.step .putSucceeds = some (s.succeed put) := by simp [step, waiting]
      have lists : (s.succeed put).server.toFinset = (s.succeed put).applied ↔
          (s.grabs ++ put.call.grabbed).toFinset = s.grabs.toFinset ∪
            (put.call.grabbed ++ s.unsettled).toFinset := by
        rw [succeed_eq accounts waiting, applied_succeed accounts waiting, stored]
      simp only [Settled, Stores, taken, waiting, Option.some.injEq, Option.mem_some_iff, forall_eq', lists]
      constructor
      · intro settled
        ext g
        have of_unsettled (unsettled : g ∈ s.unsettled) : g ∈ put.call.grabbed := by
          obtain rfl := settled g unsettled
          cases call : put.call with
          | grabObject grab => simp [GrabCall.object, GrabCall.grabbed]
          | releaseObject grab igrab =>
            simp only [call, GrabCall.released, GrabCall.object, List.mem_singleton, forall_eq] at apart unsettled
            exact absurd unsettled apart
        simp only [List.mem_toFinset, List.mem_append, Finset.mem_union]
        tauto
      · intro same g unsettled
        have listed : g ∈ (s.grabs ++ put.call.grabbed).toFinset := by
          rw [same]
          simp [unsettled]
        rcases List.mem_append.mp (List.mem_toFinset.mp listed) with cached | grabbed
        · exact absurd cached (accounts.apart g unsettled)
        · cases call : put.call with
          | grabObject grab => simpa [call, GrabCall.grabbed, GrabCall.object] using grabbed
          | releaseObject grab igrab => simp [call, GrabCall.grabbed] at grabbed
  | _ => exact Iff.rfl

/-- After every PUT of a run that succeeds the server has the list that the successful calls make of
the initial one, exactly if no such PUT follows a grab, or a failed release, of another object. -/
theorem server_applied_iff {grabs : List Grab} (distinct : grabs.Nodup) (events : List GrabEvent) :
    Meets Settled step (start grabs) events ↔ ∀ before, before ++ [.putSucceeds] <+: events →
      ∀ s, run step (start grabs) (before ++ [.putSucceeds]) = some s → s.server.toFinset = s.applied := by
  rw [meets_congr Accounts (fun _ _ _ accounts taken => accounts_step accounts taken)
    (fun _ event accounts => settled_iff accounts event) (start_accounts distinct), meets_iff_prefix]
  constructor
  · intro each before within s ran
    rw [run_append, Option.bind_eq_some_iff] at ran
    obtain ⟨middle, ran, last⟩ := ran
    exact each before .putSucceeds within middle ran s (by simpa using last)
  · intro each before event within reached ran
    cases event with
    | putSucceeds =>
      intro next taken
      exact each before within next (by simp [run_append, ran, taken])
    | _ => trivial

/-- A grab of the object that could not be released. -/
theorem server_applied_iff_released : Meets Settled step (start [⟨[1], [2], [3]⟩])
      [.releaseObject ⟨[1], [2], [3]⟩, .putFails, .grabObject ⟨[1], [2], [3]⟩, .putSucceeds] ↔
    ∀ before, before ++ [.putSucceeds] <+:
        [.releaseObject ⟨[1], [2], [3]⟩, .putFails, .grabObject ⟨[1], [2], [3]⟩, .putSucceeds] →
      ∀ s, run step (start [⟨[1], [2], [3]⟩]) (before ++ [.putSucceeds]) = some s →
        s.server.toFinset = s.applied :=
  server_applied_iff (by simp) _

/-- The second of two grabs loses the first. -/
theorem second_grab_loses_first : ¬∀ (grabs : List Grab), grabs.Nodup → ∀ events s,
    run step (start grabs) (events ++ [.putSucceeds]) = some s → s.server.toFinset = s.applied := by
  intro always
  have same := always [] (by simp) [.grabObject ⟨[1], [], []⟩, .putSucceeds, .grabObject ⟨[2], [], []⟩] _ rfl
  exact absurd same (by decide)

end GrabSession

end MujinClient
