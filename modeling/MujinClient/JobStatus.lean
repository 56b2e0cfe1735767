import MujinClient.JsonTypes

/-! The status of a job. A task, an optimization and the client each read it from the object that
the server describes the job with. -/
namespace MujinClient

open Loading

inductive JobStatusCode where
  | pending | active | preempted | succeeded | aborted | rejected | preempting | recalling | recalled | lost
  | unknown
  deriving DecidableEq

def getStatusCode (str : Text) : Except LoadError JobStatusCode :=
  if str = lit "pending" then .ok .pending
  else if str = lit "active" then .ok .active
  else if str = lit "preempted" then .ok .preempted
  else if str = lit "succeeded" then .ok .succeeded
  else if str = lit "aborted" then .ok .aborted
  else if str = lit "rejected" then .ok .rejected
  else if str = lit "preempting" then .ok .preempting
  else if str = lit "recalling" then .ok .recalling
  else if str = lit "recalled" then .ok .recalled
  else if str = lit "lost" then .ok .lost
  else if str = lit "unknown" then .ok .unknown
  else .error (.mujin ⟨lit "unknown staus " ++ str, .invalidArguments⟩)

structure JobStatus where
  code : JobStatusCode
  type : Text
  message : Text
  elapsedtime : Double
  pk : Text
  deriving DecidableEq

def JobStatus.initial : JobStatus := ⟨.unknown, [], [], Double.zero, []⟩

/-- `options & 1`. -/
def wantsStatusText (options : int32.Value) : Bool := options.val % 2 = 1

def jobUrl (jobpk : Text) (options : int32.Value) : Text :=
  lit "job/" ++ jobpk ++ lit "/?format=json&fields=pk,status,fnname,elapsedtime" ++
  (if wantsStatusText options then lit ",status_text" else [])

def jobsUrl (options : int32.Value) : Text :=
  lit "job/?format=json&fields=pk,status,fnname,elapsedtime" ++
  (if wantsStatusText options then lit ",status_text" else [])

/-- `GetJsonValueByKey<T>(v, key)` without a default. -/
def valueByKey (platform : Platform) (ty : Ty) (v : Json) (key : String) : Except LoadError ty.Val :=
  fresh ty.initial (loadJsonValueByKey (loadJsonValue platform ty) · key) v

section

variable (platform : Platform) (callGet : Text → Except LoadError Json) (options : int32.Value)

def loadPk (pt : Json) (key : String) : Loading LoadError JobStatus Unit :=
  zoom (·.pk) (fun x s => { s with pk := x }) (loadJsonValueByKey (loadJsonValue platform .string) pt key)

def loadElapsedtime (pt : Json) (key : String) : Loading LoadError JobStatus Unit :=
  zoom (·.elapsedtime) (fun x s => { s with elapsedtime := x })
    (loadJsonValueByKey (loadJsonValue platform .double) pt key)

def loadType (pt : Json) (key : String) : Loading LoadError JobStatus Unit :=
  zoom (·.type) (fun x s => { s with type := x }) (loadJsonValueByKey (loadJsonValue platform .string) pt key)

def loadMessage (pt : Json) (key : String) : Loading LoadError JobStatus Unit :=
  zoom (·.message) (fun x s => { s with message := x })
    (loadJsonValueByKey (loadJsonValue platform .string) pt key)

/-- `status.code = GetStatusCode(GetJsonValueByKey<std::string>(pt, "status"))`. -/
def loadCode (pt : Json) : Loading LoadError JobStatus Unit :=
  assign (fun x s => { s with code := x }) (valueByKey platform .string pt "status" >>= getStatusCode)

def TaskResource.getRunTimeStatus (jobpk : Text) : Loading LoadError JobStatus Unit := do
  update fun s => { s with code := .unknown }
  if jobpk.length > 0 then
    let pt ← lift (callGet (jobUrl jobpk options))
    loadPk platform pt "pk"
    loadCode platform pt
    loadElapsedtime platform pt "elapsedtime"
    loadType platform pt "fname"
    if wantsStatusText options then
      loadMessage platform pt "status_text"

def OptimizationResource.getRunTimeStatus (jobpk : Text) : Loading LoadError JobStatus Unit := do
  update fun s => { s with code := .unknown }
  if jobpk.length > 0 then
    let pt ← lift (callGet (jobUrl jobpk options))
    loadPk platform pt "pk"
    loadCode platform pt
    loadType platform pt "fname"
    loadElapsedtime platform pt "elpasedtime"
    if wantsStatusText options then
      loadMessage platform pt "status-text"

/-- One turn of the loop of `GetRunTimeStatuses`. -/
def ControllerClient.loadStatus (it : Json) : Loading LoadError JobStatus Unit := do
  assign (fun x s => { s with pk := x }) (valueByKey platform .string it "pk")
  loadCode platform it
  assign (fun x s => { s with type := x }) (valueByKey platform .string it "fnname")
  assign (fun x s => { s with elapsedtime := x }) (valueByKey platform .double it "elapsedtime")
  if wantsStatusText options then
    assign (fun x s => { s with message := x }) (valueByKey platform .string it "status_text")

/-- `GetRunTimeStatuses`. -/
def ControllerClient.runTimeStatuses : Loading LoadError (List JobStatus) Unit := do
  match ← lift (callGet (jobsUrl options)) with
  | .object members =>
    match Json.findMember members (lit "objects") with
    | some (.array objects) =>
      update fun statuses => statuses.take objects.length ++
        List.replicate (objects.length - statuses.length) .initial
      loadElements (ControllerClient.loadStatus platform options) objects
    | _ => throw .assertion
  | _ => throw .assertion

end

structure Job where
  pk : Text
  status : Text
  fnname : Text
  elapsedtime : Double
  status_text : Text
  code : JobStatusCode
  known : getStatusCode status = .ok code

namespace Job

/-- The names the client requests. -/
def fields (options : int32.Value) : List String :=
  ["pk", "status", "fnname", "elapsedtime"] ++ if wantsStatusText options then ["status_text"] else []

/-- The members of an object with the requested fields of the job, in any order. -/
structure Describes (job : Job) (options : int32.Value) (members : Json.Members) : Prop where
  pk : Json.findMember members (lit "pk") = some (.string job.pk)
  status : Json.findMember members (lit "status") = some (.string job.status)
  fnname : Json.findMember members (lit "fnname") = some (.string job.fnname)
  elapsedtime : ∃ v, Json.findMember members (lit "elapsedtime") = some v ∧ v.getDouble? = some job.elapsedtime
  status_text : wantsStatusText options = true → Json.findMember members (lit "status_text") =
    some (.string job.status_text)
  only : ∀ name ∈ Json.names members, ∃ field ∈ fields options, name = lit field

def status_of (job : Job) (options : int32.Value) : JobStatus :=
  ⟨job.code, job.fnname, if wantsStatusText options then job.status_text else [], job.elapsedtime, job.pk⟩

/-- What the readers of a task and of an optimization find under their keys is what the job has. -/
def Blank (job : Job) (options : int32.Value) : Prop :=
  job.fnname = [] ∧ job.elapsedtime = Double.zero ∧ (wantsStatusText options = true → job.status_text = [])

end Job

section

variable {platform : Platform} {members : Json.Members} {key : String}

theorem loadByKey_string (found : Json.findMember members (lit key) = some (.string t)) (s : Text) :
    loadJsonValueByKey (loadJsonValue platform .string) (.object members) key s = (.ok (), t) := by
  simp [loadJsonValueByKey, found, mapError, loadJsonValue, loadString, assign, bind_apply, Except.mapError]

theorem loadByKey_double (found : Json.findMember members (lit key) = some v)
    (number : v.getDouble? = some d) (s : Double) :
    loadJsonValueByKey (loadJsonValue platform .double) (.object members) key s = (.ok (), d) := by
  have loaded : loadDouble platform v = .ok d := by simp [loadDouble, number]
  unfold loadJsonValueByKey
  simp only [found]
  cases v with
  | null => simp [Json.getDouble?] at number
  | _ => simp [mapError, loadJsonValue, loaded, assign, bind_apply, Except.mapError]

theorem loadByKey_absent {load : Load α} (absent : Json.findMember members (lit key) = none) (s : α) :
    loadJsonValueByKey load (.object members) key s = (.ok (), s) := by
  simp [loadJsonValueByKey, absent]

theorem valueByKey_string (found : Json.findMember members (lit key) = some (.string t)) :
    valueByKey platform .string (.object members) key = .ok t := by
  rw [valueByKey, fresh, loadByKey_string found]

theorem valueByKey_double (found : Json.findMember members (lit key) = some v) (number : v.getDouble? = some d) :
    valueByKey platform .double (.object members) key = .ok d := by
  rw [valueByKey, fresh, loadByKey_double found number]

end

namespace Job

variable {platform : Platform} {callGet : Text → Except LoadError Json} {options : int32.Value} {job : Job}
    {members : Json.Members}

theorem Describes.absent (describes : job.Describes options members) (key : String)
    (unknown : ∀ field ∈ ["pk", "status", "fnname", "elapsedtime", "status_text"], lit key ≠ lit field) :
    Json.findMember members (lit key) = none := by
  refine Json.findMember_eq_none_iff.mpr fun inside => ?_
  obtain ⟨field, requested, same⟩ := describes.only _ inside
  refine unknown field ?_ same
  rcases List.mem_append.mp requested with always | text
  · exact List.mem_append_left ["status_text"] always
  · split at text
    · exact List.mem_append_right ["pk", "status", "fnname", "elapsedtime"] text
    · simp at text

theorem loadCode_describes (describes : job.Describes options members) (s : JobStatus) :
    loadCode platform (.object members) s = (.ok (), { s with code := job.code }) := by
  have status : valueByKey platform .string (.object members) "status" = .ok job.status :=
    valueByKey_string describes.status
  rw [loadCode, status]
  show assign _ (getStatusCode job.status) s = _
  rw [job.known]
  rfl

/-- The task's reader looks for the type under a key the client does not request. -/
theorem Describes.task (describes : job.Describes options members) (jobpk : job.pk ≠ [])
    (replies : callGet (jobUrl job.pk options) = .ok (.object members)) :
    TaskResource.getRunTimeStatus platform callGet options job.pk .initial =
      (.ok (), { job.status_of options with type := [] }) := by
  have positive : job.pk.length > 0 := List.length_pos_iff.mpr jobpk
  obtain ⟨v, elapsed, number⟩ := describes.elapsedtime
  have fname := describes.absent "fname" (by decide)
  simp only [TaskResource.getRunTimeStatus, bind_apply, update_apply, if_pos positive, lift_apply, replies,
    loadPk, zoom_apply,
    loadByKey_string describes.pk, loadCode_describes describes, loadElapsedtime, loadByKey_double elapsed number,
    loadType, loadByKey_absent fname]
  split
  · rename_i wanted
    simp [loadMessage, loadByKey_string (describes.status_text wanted), status_of, wanted, JobStatus.initial]
  · rename_i unwanted
    simp [status_of, unwanted, JobStatus.initial]

/-- The optimization's reader misses the elapsed time and the message as well. -/
theorem Describes.optimization (describes : job.Describes options members) (jobpk : job.pk ≠ [])
    (replies : callGet (jobUrl job.pk options) = .ok (.object members)) :
    OptimizationResource.getRunTimeStatus platform callGet options job.pk .initial =
      (.ok (), { JobStatus.initial with pk := job.pk, code := job.code }) := by
  have positive : job.pk.length > 0 := List.length_pos_iff.mpr jobpk
  have fname := describes.absent "fname" (by decide)
  have elapsed := describes.absent "elpasedtime" (by decide)
  have text := describes.absent "status-text" (by decide)
  simp only [OptimizationResource.getRunTimeStatus, bind_apply, update_apply, if_pos positive, lift_apply,
    replies, loadPk, zoom_apply,
    loadByKey_string describes.pk, loadCode_describes describes, loadElapsedtime, loadByKey_absent elapsed,
    loadType, loadByKey_absent fname]
  split
  · simp [loadMessage, loadByKey_absent text, JobStatus.initial]
  · simp [JobStatus.initial]

theorem Describes.client (describes : job.Describes options members) :
    ControllerClient.loadStatus platform options (.object members) .initial = (.ok (), job.status_of options) := by
  obtain ⟨v, elapsed, number⟩ := describes.elapsedtime
  simp only [ControllerClient.loadStatus, assign, bind_apply, lift_apply, update_apply,
    valueByKey_string describes.pk,
    loadCode_describes describes, valueByKey_string describes.fnname, valueByKey_double elapsed number]
  split
  · rename_i wanted
    simp [valueByKey_string (describes.status_text wanted), status_of, wanted, bind_apply, JobStatus.initial]
  · rename_i unwanted
    simp [status_of, unwanted, JobStatus.initial]

theorem loadElements_describes (platform : Platform) {jobs : List (Job × Json.Members)}
    (describe : ∀ j ∈ jobs, j.1.Describes options j.2) :
    loadElements (ControllerClient.loadStatus platform options) (jobs.map fun j => .object j.2)
      (List.replicate jobs.length .initial) = (.ok (), jobs.map fun j => j.1.status_of options) := by
  induction jobs with
  | nil => rfl
  | cons j jobs ih =>
    have rest := ih fun other inside => describe other (List.mem_cons_of_mem j inside)
    have first : ControllerClient.loadStatus platform options (.object j.2) .initial =
        (.ok (), j.1.status_of options) :=
      (describe j List.mem_cons_self).client
    simp only [List.map_cons, List.length_cons, List.replicate_succ, loadElements, first, rest]

structure Served (callGet : Text → Except LoadError Json) (options : int32.Value)
    (jobs : List (Job × Json.Members)) : Prop where
  describe : ∀ j ∈ jobs, j.1.Describes options j.2
  each : ∀ j ∈ jobs, j.1.pk ≠ [] ∧ callGet (jobUrl j.1.pk options) = .ok (.object j.2)
  all : ∃ reply, callGet (jobsUrl options) = .ok (.object reply) ∧
    Json.findMember reply (lit "objects") = some (.array (jobs.map fun j => .object j.2))

theorem Served.client {jobs : List (Job × Json.Members)} (served : Served callGet options jobs) :
    ControllerClient.runTimeStatuses platform callGet options [] =
      (.ok (), jobs.map fun j => j.1.status_of options) := by
  obtain ⟨reply, replies, objects⟩ := served.all
  have loaded := loadElements_describes platform served.describe
  simp only [ControllerClient.runTimeStatuses, bind_apply, lift_apply, replies, objects, update_apply,
    List.take_nil,
    List.nil_append, List.length_map, List.length_nil, Nat.sub_zero, loaded]

/-- The three readers reproduce the fields of every job exactly if what two of them miss is blank. -/
theorem readers_agree_iff {jobs : List (Job × Json.Members)} (served : Served callGet options jobs) :
    (∀ j ∈ jobs,
      TaskResource.getRunTimeStatus platform callGet options j.1.pk .initial = (.ok (), j.1.status_of options) ∧
      OptimizationResource.getRunTimeStatus platform callGet options j.1.pk .initial =
        (.ok (), j.1.status_of options)) ∧ ControllerClient.runTimeStatuses platform callGet options [] =
      (.ok (), jobs.map fun j => j.1.status_of options) ↔
      ∀ j ∈ jobs, j.1.Blank options := by
  rw [and_iff_left served.client]
  refine forall₂_congr fun j inside => ?_
  obtain ⟨pk, replies⟩ := served.each j inside
  rw [(served.describe j inside).task pk replies, (served.describe j inside).optimization pk replies]
  simp only [status_of, Blank, JobStatus.initial, Prod.mk.injEq, JobStatus.mk.injEq, true_and, and_true,
    eq_comm (a := ([] : Text)), eq_comm (a := Double.zero), ite_eq_right_iff, and_self_left, and_comm]

end Job

/-- A job that has not run yet, with this name of its function, and its object. -/
def pendingJob (fnname : Text) : Job := ⟨lit "1", lit "pending", fnname, Double.zero, [], .pending, rfl⟩

def pendingMembers (fnname : Text) : Json.Members :=
  [(lit "pk", .string (lit "1")), (lit "status", .string (lit "pending")),
  (lit "fnname", .string fnname), (lit "elapsedtime", .double Double.zero)]

def pendingServer (fnname url : Text) : Except LoadError Json :=
  if url = jobUrl (lit "1") ⟨0, by decide⟩ then .ok (.object (pendingMembers fnname))
  else .ok (.object [(lit "objects", .array [.object (pendingMembers fnname)])])

namespace Job

theorem pending_served (fnname : Text) :
    Served (pendingServer fnname) ⟨0, by decide⟩ [(pendingJob fnname, pendingMembers fnname)] := by
  have apart : jobsUrl ⟨0, by decide⟩ ≠ jobUrl (lit "1") ⟨0, by decide⟩ := fun same => by
    simpa [jobsUrl, jobUrl, lit, wantsStatusText] using congrArg (List.take 5) same
  refine ⟨?_, ?_, [(lit "objects", .array [.object (pendingMembers fnname)])], ?_, rfl⟩
  · rintro _ (_ | ⟨_, ⟨⟩⟩)
    exact ⟨rfl, rfl, rfl, ⟨_, rfl, rfl⟩, by simp [wantsStatusText], by simp [pendingMembers, Json.names, fields]⟩
  · rintro _ (_ | ⟨_, ⟨⟩⟩)
    have pk : lit "1" ≠ [] := by decide
    exact ⟨pk, by rw [pendingJob, pendingServer, if_pos rfl]⟩
  · rw [pendingServer, if_neg apart]

theorem readers_agree_iff_pending :
    (∀ j ∈ [(pendingJob [], pendingMembers [])],
      TaskResource.getRunTimeStatus default (pendingServer []) ⟨0, by decide⟩ j.1.pk .initial =
        (.ok (), j.1.status_of ⟨0, by decide⟩) ∧
      OptimizationResource.getRunTimeStatus default (pendingServer []) ⟨0, by decide⟩ j.1.pk .initial =
        (.ok (), j.1.status_of ⟨0, by decide⟩)) ∧
    ControllerClient.runTimeStatuses default (pendingServer []) ⟨0, by decide⟩ [] =
      (.ok (), [(pendingJob [], pendingMembers [])].map fun j => j.1.status_of ⟨0, by decide⟩) ↔
      ∀ j ∈ [(pendingJob [], pendingMembers [])], j.1.Blank ⟨0, by decide⟩ :=
  readers_agree_iff (pending_served [])

/-- The task has no type where the client has one. -/
theorem task_misses_type :
    ¬∀ (platform : Platform) (callGet : Text → Except LoadError Json) (options : int32.Value)
    (jobs : List (Job × Json.Members)), Served callGet options jobs → ∀ j ∈ jobs,
      TaskResource.getRunTimeStatus platform callGet options j.1.pk .initial = (.ok (), j.1.status_of options) ∧
      OptimizationResource.getRunTimeStatus platform callGet options j.1.pk .initial =
        (.ok (), j.1.status_of options) := by
  intro reproduce
  have served := pending_served (lit "f")
  have inside := List.mem_singleton_self (pendingJob (lit "f"), pendingMembers (lit "f"))
  have task := (reproduce default _ _ _ served _ inside).1
  rw [(served.describe _ inside).task (served.each _ inside).1 (served.each _ inside).2] at task
  exact absurd (congrArg (fun outcome => outcome.2.type) task) (by decide)

end Job

end MujinClient
