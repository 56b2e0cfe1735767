import MujinClient.CommandText
import MujinClient.ClientRequests
import MujinClient.JsonFaithful

/-! The initialization of a binpicking task: its default parameters, its user info, and what is left
of the task when one of the two texts is refused. -/
namespace MujinClient

/-- The tokens of a parse with default flags. `normal` is the double it makes of a number, none where
the number is too big. -/
def defaultToken (normal : Decimal → Option Double) (t : Text) : Option Json :=
  (keyword? t).or ((number? t).bind fun d =>
    match d.value with
    | .int z => some (.int z)
    | _ => (normal d).map .double)

structure BinPickingTaskResource where
  mapTaskParameters : TaskParameters
  bIsInitialized : Bool
  rUserInfo : Json
  userinfo_json : Text
  slaverequestid : Text
  zmqPort : Int
  heartbeatPort : Int
  /-- The context, if there is one. -/
  zmqcontext : Option Nat

/-- The arguments of one of the overloads of `Initialize`, as far as it looks at them. -/
inductive InitializeCall where
  | http (defaultTaskParameters userinfo slaverequestid : Text)
  | zmq (defaultTaskParameters : Text) (zmqPort heartbeatPort : Int) (zmqcontext : Option Nat)
    (userinfo slaverequestid : Text)

namespace InitializeCall

def defaultTaskParameters : InitializeCall → Text
  | .http defaultTaskParameters _ _ | .zmq defaultTaskParameters _ _ _ _ _ => defaultTaskParameters

def userinfo : InitializeCall → Text
  | .http _ userinfo _ | .zmq _ _ _ _ userinfo _ => userinfo

end InitializeCall

namespace BinPickingTaskResource

variable (platform : Platform) (normal : Decimal → Option Double)

/-- `d.Parse(defaultTaskParameters.c_str())`. Its result is not looked at: on an error the document
is null. -/
def parseDefaults (defaultTaskParameters : Text) : Json :=
  (readJson (defaultToken normal) (cString defaultTaskParameters)).getD .null

def parameterEntries (name : Text → Text) (members : Json.Members) : List (Text × Text) :=
  members.map fun member => (name member.1, (writeJson platform member.2).1)

/-- The parameters are cleared before the loop, whose first step asserts that it is over an object. -/
def setDefaults (s : BinPickingTaskResource) (defaultTaskParameters : Text) :
    BinPickingTaskResource × Except Thrown Unit :=
  if defaultTaskParameters ≠ [] then
    let s := { s with mapTaskParameters := .empty }
    match parseDefaults normal defaultTaskParameters with
    | .object members =>
      ({ s with
        mapTaskParameters := s.mapTaskParameters.insertAll (parameterEntries platform cString members) },
        .ok ())
    | _ => (s, .error (.load .assertion))
  else (s, .ok ())

/-- `ParseJson(_rUserInfo, userinfo)`, which sets the document to null first. -/
def parseUserInfo (s : BinPickingTaskResource) (userinfo : Text) : BinPickingTaskResource × Except Thrown Unit :=
  match parseJsonText userinfo with
  | .ok v => ({ s with rUserInfo := v }, .ok ())
  | .error e => ({ s with rUserInfo := .null }, .error e)

def setUserInfo (s : BinPickingTaskResource) (userinfo slaverequestid : Text) :
    BinPickingTaskResource × Except Thrown Unit :=
  match s.parseUserInfo userinfo with
  | (s, .ok ()) => ({ s with userinfo_json := userinfo, slaverequestid }, .ok ())
  | (s, .error e) => (s, .error e)

/-- `Initialize`. The task counts as initialized before the user info is parsed. -/
def initializeHttp (s : BinPickingTaskResource) (defaultTaskParameters userinfo slaverequestid : Text) :
    BinPickingTaskResource × Except Thrown Unit :=
  match s.setDefaults platform normal defaultTaskParameters with
  | (s, .ok ()) => setUserInfo { s with bIsInitialized := true } userinfo slaverequestid
  | (s, .error e) => (s, .error e)

def initializeZmq (s : BinPickingTaskResource) (defaultTaskParameters : Text) (zmqPort heartbeatPort : Int)
    (zmqcontext : Option Nat)
    (userinfo slaverequestid : Text) : BinPickingTaskResource × Except Thrown Unit :=
  match s.setDefaults platform normal defaultTaskParameters with
  | (s, .ok ()) =>
    setUserInfo { s with zmqPort, heartbeatPort, bIsInitialized := true, zmqcontext } userinfo
      slaverequestid
  | (s, .error e) => (s, .error e)

def call (s : BinPickingTaskResource) : InitializeCall → BinPickingTaskResource × Except Thrown Unit
  | .http defaultTaskParameters userinfo slaverequestid =>
    s.initializeHttp platform normal defaultTaskParameters userinfo slaverequestid
  | .zmq defaultTaskParameters zmqPort heartbeatPort zmqcontext userinfo slaverequestid =>
    s.initializeZmq platform normal defaultTaskParameters zmqPort heartbeatPort zmqcontext userinfo slaverequestid

/-- The parameters that a text asks for, if it is a JSON object or empty. -/
def askedParameters (s : BinPickingTaskResource) (defaultTaskParameters : Text) : Option TaskParameters :=
  if defaultTaskParameters = [] then some s.mapTaskParameters
  else
    match readJson (defaultToken normal) defaultTaskParameters with
    | some (.object members) => some (SortedMap.empty.insertAll (parameterEntries platform id members))
    | _ => none

/-- The whole of it is done, or an exception says so and nothing is. -/
def Atomic (s : BinPickingTaskResource) (c : InitializeCall) : Prop :=
  let after := s.call platform normal c
  match after.2 with
  | .ok () => after.1.bIsInitialized = true ∧
      some after.1.mapTaskParameters = s.askedParameters platform normal c.defaultTaskParameters ∧
      some after.1.rUserInfo = readJson clientToken c.userinfo ∧ after.1.userinfo_json = c.userinfo
  | .error _ => after.1.bIsInitialized = s.bIsInitialized ∧ after.1.mapTaskParameters = s.mapTaskParameters ∧
      after.1.rUserInfo = s.rUserInfo ∧ after.1.userinfo_json = s.userinfo_json

/-- What the task and the texts have to be like. -/
def Unharmed (s : BinPickingTaskResource) (c : InitializeCall) : Prop :=
  if c.defaultTaskParameters = [] then
    match parseJson c.userinfo with
    | some v => readJson clientToken c.userinfo = some v
    | none => s.bIsInitialized = true ∧ s.rUserInfo = .null
  else
    match parseDefaults normal c.defaultTaskParameters, parseJson c.userinfo with
    | .object members, some v => NulFree c.defaultTaskParameters ∧ (∀ member ∈ members, NulFree member.1) ∧
        readJson clientToken c.userinfo = some v
    | .object members, none => s.bIsInitialized = true ∧ s.rUserInfo = .null ∧
        SortedMap.empty.insertAll (parameterEntries platform cString members) = s.mapTaskParameters
    | _, _ => s.mapTaskParameters = .empty

variable {platform : Platform} {normal : Decimal → Option Double} {s : BinPickingTaskResource} {c : InitializeCall}

theorem setDefaults_object {defaultTaskParameters : Text} {members : Json.Members}
    (some : defaultTaskParameters ≠ [])
    (object : parseDefaults normal defaultTaskParameters = .object members) :
    s.setDefaults platform normal defaultTaskParameters =
      ({ s with mapTaskParameters := SortedMap.empty.insertAll (parameterEntries platform cString members)
        }, .ok ()) := by
  rw [setDefaults, if_pos some, object]

theorem setDefaults_refused {defaultTaskParameters : Text} (some : defaultTaskParameters ≠ [])
    (other : ∀ members, parseDefaults normal defaultTaskParameters ≠ .object members) :
    s.setDefaults platform normal defaultTaskParameters =
      ({ s with mapTaskParameters := .empty }, .error (.load .assertion)) := by
  rw [setDefaults, if_pos some]
  cases shape : parseDefaults normal defaultTaskParameters with
  | object members => exact absurd shape (other members)
  | _ => rfl

theorem setUserInfo_parsed {userinfo slaverequestid : Text} {v : Json} (parsed : parseJson userinfo = some v) :
    s.setUserInfo userinfo slaverequestid =
      ({ s with rUserInfo := v, userinfo_json := userinfo, slaverequestid }, .ok ()) := by
  simp [setUserInfo, parseUserInfo, parseJsonText, parsed]

theorem setUserInfo_refused {userinfo slaverequestid : Text} (refused : parseJson userinfo = none) :
    s.setUserInfo userinfo slaverequestid = ({ s with rUserInfo := .null }, .error .invalidJson) := by
  simp [setUserInfo, parseUserInfo, parseJsonText, refused]

theorem call_refused {t : BinPickingTaskResource} {e : Thrown}
    (refused : s.setDefaults platform normal c.defaultTaskParameters = (t, .error e)) :
    s.call platform normal c = (t, .error e) := by
  cases c <;> simp only [InitializeCall.defaultTaskParameters] at refused <;>
    simp [call, initializeHttp, initializeZmq, refused]

/-- Past the defaults, both overloads go on alike, as far as the flag, the parameters and the user info
are concerned. -/
theorem call_accepted {t : BinPickingTaskResource}
    (accepted : s.setDefaults platform normal c.defaultTaskParameters = (t, .ok ())) :
    ∃ (u : BinPickingTaskResource) (slaverequestid : Text), u.bIsInitialized = true ∧
      u.mapTaskParameters = t.mapTaskParameters ∧
      u.rUserInfo = t.rUserInfo ∧ u.userinfo_json = t.userinfo_json ∧
      s.call platform normal c = u.setUserInfo c.userinfo slaverequestid := by
  cases c with
  | http defaultTaskParameters userinfo slaverequestid =>
    refine ⟨{ t with bIsInitialized := true }, slaverequestid, rfl, rfl, rfl, rfl, ?_⟩
    simp only [InitializeCall.defaultTaskParameters] at accepted
    simp [call, initializeHttp, accepted, InitializeCall.userinfo]
  | zmq defaultTaskParameters zmqPort heartbeatPort zmqcontext userinfo slaverequestid =>
    refine ⟨{ t with zmqPort, heartbeatPort, bIsInitialized := true, zmqcontext }, slaverequestid, rfl, rfl,
      rfl, rfl, ?_⟩
    simp only [InitializeCall.defaultTaskParameters] at accepted
    simp [call, initializeZmq, accepted, InitializeCall.userinfo]

theorem atomic_accepted {t : BinPickingTaskResource}
    (accepted : s.setDefaults platform normal c.defaultTaskParameters = (t, .ok ()))
    (userinfo_json : t.userinfo_json = s.userinfo_json) : s.Atomic platform normal c ↔
      match parseJson c.userinfo with
      | some v => some t.mapTaskParameters = s.askedParameters platform normal c.defaultTaskParameters ∧
          readJson clientToken c.userinfo = some v
      | none => s.bIsInitialized = true ∧ s.rUserInfo = .null ∧ t.mapTaskParameters = s.mapTaskParameters := by
  obtain ⟨u, slaverequestid, flag, parameters, info, text, called⟩ := call_accepted accepted
  cases parsed : parseJson c.userinfo with
  | some v =>
    rw [setUserInfo_parsed parsed] at called
    simp [Atomic, called, flag, parameters, eq_comm]
  | none =>
    rw [setUserInfo_refused parsed] at called
    simp only [Atomic, called, flag, parameters, text, userinfo_json, and_true]
    constructor
    · rintro ⟨flag, parameters, info⟩
      exact ⟨flag.symm, info.symm, parameters⟩
    · rintro ⟨flag, info, parameters⟩
      exact ⟨flag.symm, parameters, info.symm⟩

theorem nulFree_names {members : Json.Members}
    (same : (SortedMap.empty.insertAll (parameterEntries platform cString members) : TaskParameters) =
      SortedMap.empty.insertAll (parameterEntries platform id members)) : ∀ member ∈ members,
        NulFree member.1 := by
  intro member inside
  have kept : ∀ entry ∈
      (SortedMap.empty.insertAll (parameterEntries platform cString members) : TaskParameters).entries,
        NulFree entry.1 := by
    refine SortedMap.forall_insertAll (by simp) fun entry new => ?_
    obtain ⟨other, -, rfl⟩ := List.mem_map.mp new
    exact cString_nulFree other.1
  have named : (SortedMap.empty.insertAll (parameterEntries platform id members) : TaskParameters).find?
      member.1 ≠ none := by
    rw [SortedMap.find?_insertAll, ne_eq, Option.or_eq_none_iff, not_and_or]
    refine .inl fun none => findEntry_eq_none_iff.mp none (member.1, (writeJson platform member.2).1) ?_ rfl
    exact List.mem_reverse.mpr (List.mem_map_of_mem inside)
  obtain ⟨text, found⟩ := Option.ne_none_iff_exists'.mp (same ▸ named)
  exact kept _ ((SortedMap.mem_entries_iff _).mpr found)

theorem asked_iff {defaultTaskParameters : Text} {members : Json.Members} (some : defaultTaskParameters ≠ [])
    (object : parseDefaults normal defaultTaskParameters = .object members) :
    Option.some (SortedMap.empty.insertAll (parameterEntries platform cString members)) =
        s.askedParameters platform normal defaultTaskParameters ↔
      NulFree defaultTaskParameters ∧ ∀ member ∈ members, NulFree member.1 := by
  -- As far as the text is read as a whole, the same members are read.
  have whole (nulFree : NulFree defaultTaskParameters) :
      readJson (defaultToken normal) defaultTaskParameters = Option.some (.object members) := by
    rw [parseDefaults, cString_of_nulFree _ nulFree] at object
    cases read : readJson (defaultToken normal) defaultTaskParameters with
    | none => simp [read] at object
    | some v => simpa [read] using object
  rw [askedParameters, if_neg some]
  constructor
  · intro asked
    have nulFree : NulFree defaultTaskParameters := by
      cases read : readJson (defaultToken normal) defaultTaskParameters with
      | none => simp [read] at asked
      | some v => exact nulFree_of_readJson read
    rw [whole nulFree] at asked
    exact ⟨nulFree, nulFree_names (Option.some.inj asked)⟩
  · rintro ⟨nulFree, names⟩
    have entries : parameterEntries platform cString members = parameterEntries platform id members :=
      List.map_congr_left fun member inside => by rw [cString_of_nulFree _ (names member inside), id]
    rw [whole nulFree, entries]

/-- An initialization is done as a whole or not at all exactly where nothing is cut at a zero byte and
nothing was there that a refused text could spoil. -/
theorem atomic_iff (platform : Platform) (normal : Decimal → Option Double) (s : BinPickingTaskResource)
    (c : InitializeCall) :
    s.Atomic platform normal c ↔ s.Unharmed platform normal c := by
  unfold Unharmed
  by_cases empty : c.defaultTaskParameters = []
  · have accepted : s.setDefaults platform normal c.defaultTaskParameters = (s, .ok ()) := by
      simp [setDefaults, empty]
    rw [if_pos empty, atomic_accepted accepted rfl]
    cases parseJson c.userinfo with
    | some v => simp [askedParameters, empty]
    | none => simp
  · rw [if_neg empty]
    by_cases object : ∃ members, parseDefaults normal c.defaultTaskParameters = .object members
    · obtain ⟨members, object⟩ := object
      rw [atomic_accepted (setDefaults_object empty object) rfl, object]
      cases parseJson c.userinfo with
      | some v => simp only [asked_iff empty object, and_assoc]
      | none => rfl
    · have other : ∀ members, parseDefaults normal c.defaultTaskParameters ≠ .object members :=
        fun members same => object ⟨members, same⟩
      have thrown : s.call platform normal c =
          ({ s with mapTaskParameters := .empty }, .error (.load .assertion)) :=
        call_refused (setDefaults_refused empty other)
      have cleared : s.Atomic platform normal c ↔ s.mapTaskParameters = .empty := by
        simp [Atomic, thrown, eq_comm]
      rw [cleared]
      cases shape : parseDefaults normal c.defaultTaskParameters with
      | object members => exact absurd shape (other members)
      | _ => cases parseJson c.userinfo <;> rfl

/-- A task whose user info is refused counts as initialized. -/
theorem initialize_refused :
    ¬∀ (platform : Platform) (normal : Decimal → Option Double)
      (s : BinPickingTaskResource) (c : InitializeCall), s.Atomic platform normal c := by
  intro atomic
  have flag :=
    (atomic default (fun _ => none) ⟨.empty, false, .null, [], [], -1, -1, none⟩ (.http [] (lit "x") [])).1
  cases flag

end BinPickingTaskResource
end MujinClient
