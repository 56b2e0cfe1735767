import MujinClient.HttpReply

/-! The version that a client reports, out of the profile that it keeps from one call to the next. -/
namespace MujinClient

def Loading.inspect (f : σ → Except ε α) : Loading ε σ α := fun s => (f s, s)

open Loading

inductive ProfileRequest where
  /-- The transfer fails with this exception. -/
  | failed (e : Thrown)
  | replied (http_code : Int) (body : Text)

namespace ProfileRequest

/-- The JSON value that comes back, with whatever status. -/
def document : ProfileRequest → Option Json
  | failed _ => none
  | replied _ body => if body ≠ [] then readJson clientToken (cString body) else none

def Receives (asked : ProfileRequest) (members : Json.Members) : Prop :=
  (∃ body, asked = replied 200 body) ∧ asked.document = some (.object members)

def Succeeds (asked : ProfileRequest) : Prop := ∃ members, asked.Receives members

def Gives (asked : ProfileRequest) (version : Text) : Prop :=
  ∃ members v, asked.Receives members ∧ Json.findMember members (lit "version") = some v ∧
    loadString v = .ok version

theorem Gives.succeeds {asked : ProfileRequest} (gives : asked.Gives version) : asked.Succeeds :=
  have ⟨members, _, receives, _⟩ := gives
  ⟨members, receives⟩

end ProfileRequest

variable (platform : Platform) (desturi : Text)

/-- The end of `_CallGet`. -/
def checkHttpCode (expectedhttpcode http_code : Int) : Loading Thrown Json Int :=
  if expectedhttpcode ≠ 0 ∧ http_code ≠ expectedhttpcode then
    inspect (getErrorMessage platform) >>= fun error_message =>
    Loading.throw (httpError "GET" desturi http_code (lit ": " ++ error_message))
  else pure http_code

/-- `_CallGet` into a value, which keeps what it was made before a throw. -/
def callGetInto (expectedhttpcode : Int) : ProfileRequest → Loading Thrown Json Int
  | .failed e => Loading.throw e
  | .replied http_code body =>
    (if body ≠ [] then assign (fun v _ => v) (parseJsonStream body) else pure ()) >>= fun _ =>
    checkHttpCode platform desturi expectedhttpcode http_code

def getProfileVersion : Loading Thrown Json Text :=
  inspect fun profile => (getStringByKey platform profile "version").mapError .load

/-- `GetVersion`, with the `_profile` of the client as its target. -/
def getVersion (asked : ProfileRequest) : Loading Thrown Json Text :=
  inspect (fun profile => .ok profile.isObject) >>= fun isObject =>
  if isObject then getProfileVersion platform
  else do
    update fun _ => .object []
    let _ ← callGetInto platform desturi 200 asked
    getProfileVersion platform

structure VersionCall where
  /-- What came of its request, if it made one. -/
  request : Option ProfileRequest
  result : Except Thrown Text

def versionCalls : List ProfileRequest → Json → List VersionCall
  | [], _ => []
  | asked :: rest, profile =>
    ⟨if profile.isObject then none else some asked, (getVersion platform desturi asked profile).1⟩ ::
      versionCalls rest (getVersion platform desturi asked profile).2

/-- A version is one that was received, and a request that failed is made again. -/
structure SoundVersions (calls : List VersionCall) : Prop where
  received : ∀ (i : Nat) (call : VersionCall) (version : Text), calls[i]? = some call → call.result = .ok version →
    ∃ (j : Nat) (earlier : VersionCall) (asked : ProfileRequest), j ≤ i ∧ calls[j]? = some earlier ∧
      earlier.request = some asked ∧ asked.Gives version
  repeated : ∀ (i : Nat) (call next : VersionCall) (asked : ProfileRequest), calls[i]? = some call →
    call.request = some asked →
    ¬asked.Succeeds → calls[i + 1]? = some next → next.request ≠ none

namespace ProfileRequest

def Completes : ProfileRequest → Prop
  | failed _ => False
  | replied http_code body => http_code = 200 ∧ (body = [] ∨ (replied http_code body).document ≠ none)

def HasVersion (asked : ProfileRequest) : Prop :=
  ∃ members v, asked.Receives members ∧ Json.findMember members (lit "version") = some v ∧ v.isNull = false

end ProfileRequest

/-- Up to the first profile with a version the requests are answered with no object, or the last one
fails. -/
def ProfileAnswers : List ProfileRequest → Prop
  | [] => True
  | asked :: rest => (∃ v, asked.document = some v ∧ v.isObject = false ∧ ProfileAnswers rest) ∨
    asked.HasVersion ∨ ¬asked.Completes ∧ rest = []

variable {platform : Platform} {desturi : Text} {profile : Json} {asked : ProfileRequest}

@[simp] theorem inspect_apply : (inspect f : Loading ε σ α) s = (f s, s) := rfl

theorem checkHttpCode_target (expectedhttpcode http_code : Int) (v : Json) :
    (checkHttpCode platform desturi expectedhttpcode http_code v).2 = v := by
  unfold checkHttpCode
  split
  · rw [bind_apply, inspect_apply]
    cases getErrorMessage platform v <;> rfl
  · rfl

theorem checkHttpCode_returns (http_code : Int) (v : Json) :
    (∃ n, (checkHttpCode platform desturi 200 http_code v).1 = .ok n) ↔ http_code = 200 := by
  unfold checkHttpCode
  by_cases expected : http_code = 200
  · simp [expected]
  · rw [if_pos ⟨by decide, expected⟩, bind_apply, inspect_apply]
    cases getErrorMessage platform v <;> simp [expected]

theorem callGetInto_parsed (expectedhttpcode http_code : Int) (body : Text) (rResponse : Json) :
    callGetInto platform desturi expectedhttpcode (.replied http_code body) rResponse =
      if body = [] then checkHttpCode platform desturi expectedhttpcode http_code rResponse
      else match (ProfileRequest.replied http_code body).document with
        | some v => checkHttpCode platform desturi expectedhttpcode http_code v
        | none => (.error .invalidJson, rResponse) := by
  rw [callGetInto]
  by_cases empty : body = []
  · rw [if_neg (not_not.mpr empty), if_pos empty]
    rfl
  · rw [if_pos empty, if_neg empty, ProfileRequest.document, if_pos empty, bind_apply, assign, bind_apply,
      lift_apply, parseJsonStream]
    cases readJson clientToken (cString body) <;> rfl

theorem callGetInto_replied (expectedhttpcode http_code : Int) (body : Text) (rResponse : Json) :
    (callGetInto platform desturi expectedhttpcode (.replied http_code body) rResponse).1 =
      (replyToGetValue platform desturi rResponse expectedhttpcode http_code body).map Prod.fst := by
  have status : ∀ v, (checkHttpCode platform desturi expectedhttpcode http_code v).1 = Except.map Prod.fst (do
      if expectedhttpcode ≠ 0 ∧ http_code ≠ expectedhttpcode then
        let error_message ← getErrorMessage platform v
        throw (httpError "GET" desturi http_code (lit ": " ++ error_message))
      return (http_code, v)) := by
    intro v
    unfold checkHttpCode
    split
    · rw [bind_apply, inspect_apply]
      cases getErrorMessage platform v <;> rfl
    · rfl
  rw [callGetInto_parsed]
  unfold replyToGetValue ProfileRequest.document parseJsonStream
  by_cases empty : body = []
  · simp only [empty, ne_eq, not_true_eq_false, if_false, if_true]
    exact status rResponse
  · simp only [empty, ne_eq, not_false_eq_true, if_true, if_false]
    cases readJson clientToken (cString body) with
    | none => rfl
    | some v => exact status v

/-- Whatever the status, the value is the document that came back, if one did. -/
theorem callGetInto_target (platform : Platform) (desturi : Text) (expectedhttpcode : Int)
    (asked : ProfileRequest) (rResponse : Json) :
    (callGetInto platform desturi expectedhttpcode asked rResponse).2 = asked.document.getD rResponse := by
  cases asked with
  | failed e => rfl
  | replied http_code body =>
    rw [callGetInto_parsed]
    by_cases empty : body = []
    · rw [if_pos empty, checkHttpCode_target, ProfileRequest.document, if_neg (not_not.mpr empty)]
      rfl
    · rw [if_neg empty]
      cases (ProfileRequest.replied http_code body).document with
      | none => rfl
      | some v => exact checkHttpCode_target ..

/-- `_CallGet` returns exactly with the expected status and a body that is JSON or empty. -/
theorem callGetInto_returns (platform : Platform) (desturi : Text) (asked : ProfileRequest) (rResponse : Json) :
    (∃ n, (callGetInto platform desturi 200 asked rResponse).1 = .ok n) ↔ asked.Completes := by
  cases asked with
  | failed e => simp [callGetInto, ProfileRequest.Completes]
  | replied http_code body =>
    rw [callGetInto_parsed, ProfileRequest.Completes]
    by_cases empty : body = []
    · rw [if_pos empty, checkHttpCode_returns]
      simp [empty]
    · rw [if_neg empty]
      cases (ProfileRequest.replied http_code body).document with
      | none => simp [empty]
      | some v => simp only [checkHttpCode_returns, ne_eq, reduceCtorEq, not_false_eq_true, or_true, and_true]

theorem getVersion_kept (kept : profile.isObject = true) (asked : ProfileRequest) :
    getVersion platform desturi asked profile = getProfileVersion platform profile := by
  have isObject : (inspect (fun profile => .ok profile.isObject) : Loading Thrown Json Bool) profile =
      (.ok true, profile) := by
    rw [inspect_apply, kept]
  exact bind_ok isObject

theorem getVersion_missing (missing : profile.isObject = false) (asked : ProfileRequest) :
    getVersion platform desturi asked profile =
      (callGetInto platform desturi 200 asked >>= fun _ => getProfileVersion platform) (.object []) := by
  have isObject : (inspect (fun profile => .ok profile.isObject) : Loading Thrown Json Bool) profile =
      (.ok false, profile) := by
    rw [inspect_apply, missing]
  exact (bind_ok isObject).trans rfl

/-- A request leaves the document that came back, or an empty profile. -/
theorem getVersion_target (platform : Platform) (desturi : Text) (asked : ProfileRequest)
    (missing : profile.isObject = false) :
    (getVersion platform desturi asked profile).2 = asked.document.getD (.object []) := by
  have target := callGetInto_target platform desturi 200 asked (.object [])
  rw [getVersion_missing missing, bind_apply]
  rcases ran : callGetInto platform desturi 200 asked (.object []) with ⟨e | n, v⟩ <;> rw [ran] at target
  · exact target
  · exact target

theorem getVersion_completes (platform : Platform) (desturi : Text) (missing : profile.isObject = false)
    (completes : asked.Completes) :
    (getVersion platform desturi asked profile).1 =
      (getStringByKey platform (asked.document.getD (.object [])) "version").mapError .load := by
  have target := callGetInto_target platform desturi 200 asked (.object [])
  obtain ⟨n, returns⟩ := (callGetInto_returns platform desturi asked (.object [])).mpr completes
  rw [getVersion_missing missing, bind_ok (Prod.ext returns target)]
  rfl

theorem getVersion_fails (platform : Platform) (desturi : Text) (missing : profile.isObject = false)
    (fails : ¬asked.Completes) :
    ∃ e, (getVersion platform desturi asked profile).1 = .error e := by
  have returns := (callGetInto_returns platform desturi asked (.object [])).not.mpr fails
  rw [getVersion_missing missing, bind_apply]
  rcases ran : callGetInto platform desturi 200 asked (.object []) with ⟨e | n, v⟩
  · exact ⟨e, rfl⟩
  · exact absurd ⟨n, by rw [ran]⟩ returns

theorem version_of_lookup {members : Json.Members} {v : Json}
    (found : Json.findMember members (lit "version") = some v) (solid : v.isNull = false)
    (looked : (getStringByKey platform (.object members) "version").mapError Thrown.load = .ok version) :
    loadString v = .ok version := by
  rw [getStringByKey_member platform found solid] at looked
  cases loaded : loadString v <;> simp [loaded, Except.mapError] at looked ⊢
  exact looked

theorem lookup_none {members : Json.Members}
    (missing : ∀ v, Json.findMember members (lit "version") = some v → v.isNull = true) :
    getStringByKey platform (.object members) "version" = .ok [] := by
  cases found : Json.findMember members (lit "version") with
  | none => simp [getStringByKey, found]
  | some v =>
    cases v with
    | null => simp [getStringByKey, found]
    | _ => simpa [Json.isNull] using missing _ found

theorem lookup_error (other : profile.isObject = false) :
    ∃ e, (getStringByKey platform profile "version").mapError Thrown.load = .error e := by
  cases profile with
  | object members => simp [Json.isObject] at other
  | _ => exact ⟨_, rfl⟩

theorem versionCalls_kept (platform : Platform) (desturi : Text) {profile : Json}
    (kept : profile.isObject = true) (requests : List ProfileRequest) :
    ∀ call ∈ versionCalls platform desturi requests profile,
      call = ⟨none, (getStringByKey platform profile "version").mapError .load⟩ := by
  induction requests with
  | nil => simp [versionCalls]
  | cons asked rest ih =>
    intro call member
    rw [versionCalls, getVersion_kept kept, if_pos kept] at member
    rcases List.mem_cons.mp member with rfl | later
    · rfl
    · exact ih call later

theorem sound_cons {call : VersionCall} {calls : List VersionCall} (request : call.request = some asked)
    (refused : ¬asked.Succeeds) (thrown : call.result = .error e)
    (again : ∀ next ∈ calls.head?, next.request ≠ none) :
    SoundVersions (call :: calls) ↔ SoundVersions calls := by
  constructor
  · intro sound
    refine ⟨fun i later version here returned => ?_, fun i later => sound.repeated (i + 1) later⟩
    obtain ⟨j, earlier, source, before, there, requested, gives⟩ :=
      sound.received (i + 1) later version here returned
    cases j with
    | zero =>
      obtain rfl := Option.some.inj there
      obtain rfl := Option.some.inj (request.symm.trans requested)
      exact absurd gives.succeeds refused
    | succ j => exact ⟨j, earlier, source, by omega, there, requested, gives⟩
  · intro sound
    refine ⟨fun i later version here returned => ?_, fun i later next source here requested failed following => ?_⟩
    · cases i with
      | zero =>
        obtain rfl := Option.some.inj here
        cases thrown.symm.trans returned
      | succ i =>
        obtain ⟨j, earlier, source, before, there, requested, gives⟩ :=
          sound.received i later version here returned
        exact ⟨j + 1, earlier, source, by omega, there, requested, gives⟩
    · cases i with
      | zero =>
        refine again next ?_
        rw [List.head?_eq_getElem?]
        exact following
      | succ i => exact sound.repeated i later next source here requested failed following

theorem ProfileRequest.Succeeds.completes (succeeds : asked.Succeeds) : asked.Completes := by
  obtain ⟨members, ⟨body, rfl⟩, document⟩ := succeeds
  exact ⟨rfl, .inr (by simp [document])⟩

theorem ProfileRequest.Gives.hasVersion (gives : asked.Gives version) : asked.HasVersion := by
  obtain ⟨members, v, receives, found, loaded⟩ := gives
  refine ⟨members, v, receives, found, ?_⟩
  cases v with
  | null => cases loaded
  | _ => rfl

theorem ProfileRequest.HasVersion.document (has : asked.HasVersion) :
    ∃ members v, asked.document = some (.object members) ∧
    Json.findMember members (lit "version") = some v ∧ v.isNull = false ∧
      ∀ version, loadString v = .ok version → asked.Gives version :=
  have ⟨members, v, receives, found, solid⟩ := has
  ⟨members, v, receives.2, found, solid, fun _ loaded => ⟨members, v, receives, found, loaded⟩⟩

/-- Once a profile with a version is received, every version is that one. -/
theorem sound_of_hasVersion (missing : profile.isObject = false) (has : asked.HasVersion)
    (rest : List ProfileRequest) :
    SoundVersions (versionCalls platform desturi (asked :: rest) profile) := by
  obtain ⟨members, v, document, found, solid, gives⟩ := has.document
  have succeeds : asked.Succeeds := has.elim fun members ⟨_, receives, _⟩ => ⟨members, receives⟩
  have first := getVersion_completes platform desturi missing succeeds.completes
  have target := getVersion_target platform desturi asked missing
  rw [document, Option.getD_some] at first target
  have object : (Json.object members).isObject = true := rfl
  have kept := versionCalls_kept platform desturi object rest
  rw [versionCalls, first, target, missing]
  refine ⟨fun i call version here returned => ⟨0, _, asked, by omega, rfl, rfl, gives version ?_⟩,
    fun i call next source here requested failed _ => ?_⟩
  · cases i with
    | zero =>
      obtain rfl := Option.some.inj here
      exact version_of_lookup found solid returned
    | succ i =>
      obtain rfl := kept call (List.mem_of_getElem? here)
      exact version_of_lookup found solid returned
  · cases i with
    | zero =>
      obtain rfl := Option.some.inj here
      obtain rfl := Option.some.inj requested
      exact absurd succeeds failed
    | succ i =>
      obtain rfl := kept call (List.mem_of_getElem? here)
      cases requested

/-- A profile without a version is read as an empty one. -/
theorem unsound_of_completes (missing : profile.isObject = false) (none : ¬asked.HasVersion)
    (completes : asked.Completes)
    (object : (asked.document.getD (.object [])).isObject = true) (rest : List ProfileRequest) :
    ¬SoundVersions (versionCalls platform desturi (asked :: rest) profile) := by
  have first := getVersion_completes platform desturi missing completes
  have empty : getStringByKey platform (asked.document.getD (.object [])) "version" = .ok [] := by
    cases document : asked.document with
    | none => exact lookup_none fun v found => by simp at found
    | some d =>
      rw [document, Option.getD_some] at object
      cases d with
      | object members =>
        refine lookup_none fun v found => by_contra fun solid =>
          none ⟨members, v, ⟨?_, document⟩, found, by simpa using solid⟩
        cases asked with
        | failed e => exact absurd completes id
        | replied http_code body => exact ⟨body, by rw [completes.1]⟩
      | _ => simp [Json.isObject] at object
  rw [empty] at first
  intro sound
  rw [versionCalls, first, missing] at sound
  obtain ⟨j, earlier, source, before, there, requested, gives⟩ := sound.received 0 _ [] rfl rfl
  obtain rfl := Nat.le_zero.mp before
  obtain rfl := Option.some.inj there
  obtain rfl := Option.some.inj requested
  exact none gives.hasVersion

theorem sound_of_fails (missing : profile.isObject = false) (fails : ¬asked.Completes)
    (object : (asked.document.getD (.object [])).isObject = true) (rest : List ProfileRequest) :
    SoundVersions (versionCalls platform desturi (asked :: rest) profile) ↔ rest = [] := by
  have target := getVersion_target platform desturi asked missing
  obtain ⟨e, first⟩ := getVersion_fails platform desturi missing fails
  rw [versionCalls, first, target, missing]
  constructor
  · intro sound
    cases rest with
    | nil => rfl
    | cons next rest =>
      have again := sound.repeated 0 _ _ asked rfl rfl (fun succeeds => fails succeeds.completes) rfl
      simp [object] at again
  · rintro rfl
    refine ⟨fun i call version here returned => ?_, fun i call next source here requested failed following => ?_⟩
    · cases i with
      | zero =>
        obtain rfl := Option.some.inj here
        cases returned
      | succ i => cases here
    · cases following

/-- `GetVersion` is sound over exactly the runs in which nothing but a response without an object comes
before a profile with a version, or in which the request of the last call is the first to fail. -/
theorem soundVersions_iff (platform : Platform) (desturi : Text) (requests : List ProfileRequest) (profile : Json)
    (missing : profile.isObject = false) :
    SoundVersions (versionCalls platform desturi requests profile) ↔ ProfileAnswers requests := by
  induction requests generalizing profile with
  | nil =>
    exact iff_of_true ⟨fun i call version here => (by cases here), fun i call next source here =>
      (by cases here)⟩ trivial
  | cons asked rest ih =>
    by_cases object : (asked.document.getD (.object [])).isObject = true
    · have document : ¬∃ v, asked.document = some v ∧ v.isObject = false ∧ ProfileAnswers rest := by
        rintro ⟨v, known, other, -⟩
        rw [known, Option.getD_some, other] at object
        cases object
      rw [ProfileAnswers, or_iff_right document]
      by_cases has : asked.HasVersion
      · exact iff_of_true (sound_of_hasVersion missing has rest) (.inl has)
      · rw [or_iff_right has]
        by_cases completes : asked.Completes
        · exact iff_of_false (unsound_of_completes missing has completes object rest) fun fails =>
            fails.1 completes
        · rw [sound_of_fails missing completes object rest]
          exact (and_iff_right completes).symm
    · obtain ⟨v, document, other⟩ : ∃ v, asked.document = some v ∧ v.isObject = false := by
        cases known : asked.document with
        | none => simp [known, Json.isObject] at object
        | some v => exact ⟨v, rfl, by simpa [known] using object⟩
      have refused : ¬asked.Succeeds := by
        rintro ⟨members, -, known⟩
        rw [document, Option.some.injEq] at known
        rw [known] at other
        cases other
      have answers : ProfileAnswers (asked :: rest) ↔ ProfileAnswers rest := by
        constructor
        · rintro (⟨-, -, -, later⟩ | ⟨members, _, receives, -⟩ | ⟨-, rfl⟩)
          · exact later
          · exact absurd ⟨members, receives⟩ refused
          · trivial
        · exact fun later => .inl ⟨v, document, other, later⟩
      have thrown : ∃ e, (getVersion platform desturi asked profile).1 = .error e := by
        by_cases completes : asked.Completes
        · rw [getVersion_completes platform desturi missing completes, document]
          exact lookup_error other
        · exact getVersion_fails platform desturi missing completes
      obtain ⟨e, thrown⟩ := thrown
      have target := getVersion_target platform desturi asked missing
      rw [document, Option.getD_some] at target
      rw [answers, ← ih v other, versionCalls, thrown, target, missing]
      refine sound_cons rfl refused rfl fun next head => ?_
      cases rest with
      | nil => cases head
      | cons following rest =>
        obtain rfl := Option.mem_some_iff.mp head
        simp [other]

theorem soundVersions_iff_first :
    SoundVersions (versionCalls default [] [.failed .standard] .null) ↔
      ProfileAnswers [.failed .standard] :=
  soundVersions_iff default [] [.failed .standard] .null rfl

/-- After a transfer that failed the version is empty. -/
theorem version_made_up : ¬∀ (platform : Platform) (desturi : Text) (requests : List ProfileRequest),
    SoundVersions (versionCalls platform desturi requests .null) := by
  intro each
  have fails : ¬(ProfileRequest.failed .standard).Completes := id
  have sound :=
    (sound_of_fails rfl fails rfl [.failed .standard]).mp
      (each default [] [.failed .standard, .failed .standard])
  cases sound

end MujinClient
