import MujinClient.Attempts
import MujinClient.PathSegments
import MujinClient.RequestBodies
import MujinClient.ServedRequests

/-! Named tasks of scenes and optimizations of tasks on a server: they are looked up by their name and
created if there is none. -/
namespace MujinClient

open Request

/-- A scene has tasks and a task has optimizations. -/
inductive Owner where
  | scene (pk : Text)
  | task (pk : Text)
  deriving DecidableEq

/-- What a server knows under a name. -/
structure NamedEntry where
  name : Text
  kind : Text
  pk : Text
  deriving DecidableEq

namespace Owner

def pk : Owner → Text
  | scene pk | task pk => pk

def listUri (client : ControllerClient) (name : Text) : Owner → Text
  | scene pk =>
    lit "scene/" ++ pk ++ lit "/task/?format=json&limit=1&name=" ++ client.escapeString name ++
      lit "&fields=pk,tasktype"
  | task pk => lit "task/" ++ pk ++ lit "/optimization/?format=json&limit=1&name=" ++ client.escapeString name ++
    lit "&fields=pk,optimizationtype"

def createUri : Owner → Text
  | scene pk => lit "scene/" ++ pk ++ lit "/task/?format=json&fields=pk"
  | task pk => lit "task/" ++ pk ++ lit "/optimization/?format=json&fields=pk"

def kindField : Owner → String
  | scene _ => "tasktype"
  | task _ => "optimizationtype"

def body (name kind : Text) : Owner → Text
  | scene pk =>
    lit "\x7b\"name\":\"" ++ name ++ lit "\", \"tasktype\":\"" ++ kind ++ lit "\", \"scenepk\":\"" ++
      pk ++ lit "\"\x7d"
  | task pk =>
    lit "\x7b\"name\":\"" ++ name ++ lit "\", \"optimizationtype\":\"" ++ kind ++
      lit "\", \"taskpk\":\"" ++ pk ++ lit "\"\x7d"

/-- An entry of the kind `current` is taken for one of the kind `kind`. -/
def Accepts (current kind : Text) : Owner → Prop
  | scene _ => current = kind ∨ current = lit "realtimeitlplanning" ∧ kind = lit "realtimeitlplanning3"
  | task _ => current = kind

theorem accepts_refl (kind : Text) (owner : Owner) : owner.Accepts kind kind := by
  cases owner with
  | scene pk => exact .inl rfl
  | task pk => rfl

variable (client : ControllerClient)

def existing (kind : Text) (object : Json) : Owner → Request Text
  | scene _ => SceneResource.existingTask client kind object
  | task _ => TaskResource.existingOptimization client kind object

def create (name kind : Text) : Owner → Request Text
  | scene pk => SceneResource.createTask client pk name kind
  | task pk => TaskResource.createOptimization client pk name kind

/-- What the two operations have in common. -/
def getOrCreate (name kind : Text) (owner : Owner) : Request Text := do
  let (_, pt) ← client.callGet (owner.listUri client name) (.object []) 200 ControllerClient.defaultTimeout
  match firstObject? pt with
  | some object => owner.existing client kind object
  | none => owner.create client name kind

theorem create_eq (name kind : Text) (owner : Owner) : owner.create client name kind = (do
    let (_, pt) ← client.callPost owner.createUri (owner.body name kind) 201 ControllerClient.defaultTimeout
    client.stringOf pt "pk") := by
  cases owner <;> rfl

theorem getOrCreate_task (pk taskname tasktype : Text) {options : int32.Value} (asked : options.val % 2 ≠ 1) :
    SceneResource.getOrCreateTaskFromName_UTF8 client pk taskname tasktype options =
      ((scene pk).getOrCreate client taskname (SceneResource.tasktype_internal tasktype) >>= fun found =>
        pure (if found = [] then none else
          some (SceneResource.taskOf pk found (SceneResource.tasktype_internal tasktype)))) := by
  unfold SceneResource.getOrCreateTaskFromName_UTF8 getOrCreate
  rw [if_neg asked, Program.bind_assoc]
  refine congrArg (client.callGet _ _ _ _ >>= ·) (funext fun x => ?_)
  obtain ⟨code, pt⟩ := x
  dsimp only
  cases firstObject? pt <;> rfl

theorem getOrCreate_optimization (pk name kind : Text) :
    TaskResource.getOrCreateOptimizationFromName_UTF8 client pk name kind = (task pk).getOrCreate client
      name kind := rfl

/-- The body of a POST as a server reads it. -/
def Describes (name kind : Text) (owner : Owner) (data : Text) : Prop :=
  ∃ members, readJson standardToken data = some (.object members) ∧
    Json.findMember members (lit "name") = some (.string name) ∧
    Json.findMember members (lit owner.kindField) = some (.string kind)

theorem body_describes {name kind : Text} {owner : Owner} (namePlain : Plain name) (kindPlain : Plain kind)
    (pkPlain : Plain owner.pk) :
    owner.Describes name kind (owner.body name kind) := by
  have template : ∀ field keyField : String, Plain (lit field) → Plain (lit keyField) → _ :=
    fun field keyField first second =>
    (TemplatedRequest.three_read "name" field keyField 0 (plain_lit _ (by decide)) first second).mpr
      ⟨namePlain, kindPlain, pkPlain⟩
  cases owner with
  | scene pk =>
    have found : Json.findMember [(lit "name", .string name), (lit "tasktype", .string kind),
        (lit "scenepk", .string pk)]
      (lit "tasktype") = some (.string kind) := by rfl
    refine ⟨_, ?_, by rfl, found⟩
    have read := template "tasktype" "scenepk" (plain_lit _ (by decide)) (plain_lit _ (by decide))
    refine Eq.trans (congrArg _ ?_) read
    simp only [body, templateMember, quoted, List.append_assoc, List.cons_append, List.nil_append]
    rfl
  | task pk =>
    have found : Json.findMember [(lit "name", .string name), (lit "optimizationtype", .string kind),
        (lit "taskpk", .string pk)]
      (lit "optimizationtype") = some (.string kind) := by rfl
    refine ⟨_, ?_, by rfl, found⟩
    have read := template "optimizationtype" "taskpk" (plain_lit _ (by decide)) (plain_lit _ (by decide))
    refine Eq.trans (congrArg _ ?_) read
    simp only [body, templateMember, quoted, List.append_assoc, List.cons_append, List.nil_append]
    rfl

/-- An object of a reply that shows the entry, with its key. -/
def Shows (entry : NamedEntry) (owner : Owner) (object : Json) : Prop :=
  entry.pk ≠ [] ∧ ∃ members, object = .object members ∧
    Json.findMember members (lit "pk") = some (.string entry.pk) ∧
    Json.findMember members (lit owner.kindField) = some (.string entry.kind)

theorem getStringByKey_string {platform : Platform} {members : Json.Members} {key : String} {t : Text}
    (found : Json.findMember members (lit key) = some (.string t)) :
    getStringByKey platform (.object members) key = .ok t := by
  have loads : loadString (.string t) = .ok t := rfl
  rw [getStringByKey_member platform found rfl, loads]
  rfl

theorem stringOf_string {members : Json.Members} {key : String} {t : Text}
    (found : Json.findMember members (lit key) = some (.string t)) :
    client.stringOf (.object members) key = pure t := by
  unfold ControllerClient.stringOf
  rw [getStringByKey_string found]
  rfl

theorem existing_demanded {P Q : Prop} [Decidable P] {entry : NamedEntry} {refusal : Thrown} (holds : P → Q) :
    ∃ outcome, (do demand P refusal; return entry.pk : Request Text) = Program.lift outcome ∧
      ∀ pk, outcome = .ok pk → pk = entry.pk ∧ Q := by
  by_cases accepted : P
  · refine ⟨.ok entry.pk, by rw [decide_eq_true accepted]; rfl, fun pk same =>
      ⟨(Except.ok.inj same).symm, holds accepted⟩⟩
  · exact ⟨.error refusal, by rw [decide_eq_false accepted]; rfl, fun pk impossible => by cases impossible⟩

/-- What the entry is found to be, when one of this kind is asked for. -/
theorem existing_shown {entry : NamedEntry} {owner : Owner} {object : Json} (kind : Text)
    (shows : owner.Shows entry object) :
    ∃ outcome, owner.existing client kind object = Program.lift outcome ∧
      ∀ pk, outcome = .ok pk → pk = entry.pk ∧ owner.Accepts entry.kind kind := by
  obtain ⟨-, members, rfl, hasPk, hasKind⟩ := shows
  cases owner with
  | scene scenepk =>
    have shown : existing client kind (.object members) (scene scenepk) = (do
        demand (entry.kind = kind ∨ entry.kind = lit "realtimeitlplanning" ∧
          kind = lit "realtimeitlplanning3") (.mujin
          ⟨lit "task pk " ++ entry.pk ++ lit " exists and has type " ++ entry.kind ++
            lit ", expected is " ++ kind, .invalidState⟩)
        return entry.pk) := by
      show SceneResource.existingTask client kind _ = _
      unfold SceneResource.existingTask
      rw [stringOf_string client hasPk]
      show (client.stringOf (.object members) "tasktype" >>= _) = _
      rw [show client.stringOf (.object members) "tasktype" = _ from stringOf_string client hasKind]
      rfl
    rw [shown]
    exact existing_demanded id
  | task taskpk =>
    have shown : existing client kind (.object members) (task taskpk) = (do
        demand (entry.kind = kind)
          (.mujin ⟨lit "optimization pk " ++ entry.pk ++ lit " exists and has type " ++ entry.kind ++
          lit ", expected is " ++ kind, .invalidState⟩)
        return entry.pk) := by
      show TaskResource.existingOptimization client kind _ = _
      unfold TaskResource.existingOptimization
      rw [stringOf_string client hasPk]
      show (client.stringOf (.object members) "optimizationtype" >>= _) = _
      rw [show client.stringOf (.object members) "optimizationtype" = _ from stringOf_string client hasKind]
      rfl
    rw [shown]
    exact existing_demanded id

/-- A reply about the first entry of this name. -/
def Answers (name : Text) (owner : Owner) (entries : Owner → List NamedEntry) (doc : Json) : Prop :=
  match (entries owner).find? (·.name = name) with
  | some entry => ∃ object, firstObject? doc = some object ∧ owner.Shows entry object
  | none => firstObject? doc = none

end Owner

/-- The server keeps the entries of the owners that it knows. Any call may fail; an entry may be
made by a POST that fails. -/
structure KeepsEntries {σ : Type} (client : ControllerClient) (known : Owner → Prop)
    (entries : σ → Owner → List NamedEntry) (server : WebServer σ) : Prop where
  lists : ∀ s (owner : Owner) name, known owner → Plain name →
    let done := server s (client.webCall "GET" (owner.listUri client name) [])
    entries done.2 = entries s ∧ ∀ reply, done.1 = some reply → reply.status = 200 →
      ∃ doc, parseJsonStream reply.body = .ok doc ∧ owner.Answers name (entries s) doc
  creates : ∀ s (owner : Owner) name kind data, known owner → owner.Describes name kind data →
    let done := server s (client.webCall "POST" owner.createUri data)
    (entries done.2 = entries s ∧ ∀ reply, done.1 = some reply → reply.status ≠ 201) ∨
    ∃ pk ≠ [], entries done.2 = Function.update (entries s) owner (entries s owner ++ [⟨name, kind, pk⟩]) ∧
      ∀ reply, done.1 = some reply → reply.status = 201 →
        ∃ members, parseJsonStream reply.body = .ok (.object members) ∧
          Json.findMember members (lit "pk") = some (.string pk)

/-- Nothing has changed, or the entry has been made because there was none of its name. -/
def Adds (owner : Owner) (name kind : Text) (before after : Owner → List NamedEntry) : Prop :=
  after = before ∨ ∃ pk, after = Function.update before owner (before owner ++ [⟨name, kind, pk⟩]) ∧
    ∀ entry ∈ before owner, entry.name ≠ name

/-- The key is that of the entry of this name. -/
def Finds (owner : Owner) (name kind pk : Text) (entries : Owner → List NamedEntry) : Prop :=
  ∃ entry ∈ entries owner, entry.name = name ∧ owner.Accepts entry.kind kind ∧ entry.pk = pk ∧ pk ≠ []

namespace KeepsEntries

variable {σ : Type} {client : ControllerClient} {known : Owner → Prop}
    {entries : σ → Owner → List NamedEntry} {server : WebServer σ}
  {owner : Owner} {name kind : Text} (keeps : KeepsEntries client known entries server)
include keeps

theorem relates_create (knows : known owner) (namePlain : Plain name) (kindPlain : Plain kind)
    (pkPlain : Plain owner.pk) :
    Loading.Relates Session.Ready (fun w => entries w.server)
      (fun before after => (∀ entry ∈ before owner, entry.name ≠ name) → Adds owner name kind before after)
      (fun _ after pk => Finds owner name kind pk after)
      (Session.run server (owner.create client name kind)) := by
  rw [Owner.create_eq, Session.run_bind]
  have creates :=
    fun s => keeps.creates s owner name kind _ knows (owner.body_describes namePlain kindPlain pkPlain)
  have posted : Loading.Relates Session.Ready (fun w => entries w.server)
      (fun before after => (∀ entry ∈ before owner, entry.name ≠ name) → Adds owner name kind before after)
      (fun _ after (x : Int × Json) => ∃ members pk, x.2 = .object members ∧
        Json.findMember members (lit "pk") = some (.string pk) ∧
        Finds owner name kind pk after)
      (Session.run server
        (client.callPost owner.createUri (owner.body name kind) 201 ControllerClient.defaultTimeout)) := by
    refine Session.relates_exchange (Session.serves_callPost client _ 201 ControllerClient.defaultTimeout _)
      (fun s => ?_)
      fun s reply x answered accepted => ?_
    · rcases creates s with ⟨kept, -⟩ | ⟨pk, -, made, -⟩
      · exact fun _ => .inl kept
      · exact fun free => .inr ⟨pk, made, free⟩
    · obtain ⟨status, -, parsed⟩ := (replyToPost_eq_ok (by decide)).mp accepted
      rcases creates s with ⟨-, refused⟩ | ⟨pk, keyed, made, shown⟩
      · exact absurd status (refused reply answered)
      · obtain ⟨members, known, found⟩ := shown reply answered status
        have inside : (⟨name, kind, pk⟩ : NamedEntry) ∈ entries
            (server s (client.webCall "POST" owner.createUri (owner.body name kind))).2 owner := by
          rw [made, Function.update_self]
          exact List.mem_append_right _ List.mem_cons_self
        refine ⟨members, pk, Session.parsed_eq known parsed, found, _, inside, rfl, owner.accepts_refl kind,
          rfl, keyed⟩
  have key : (fun x : Int × Json => Session.run server (client.stringOf x.2 "pk")) =
      fun x => Loading.lift ((getStringByKey client.platform x.2 "pk").mapError .load) :=
        funext fun x => Session.run_lift _
  show Loading.Relates _ _ _ _ (_ >>= fun x : Int × Json => Session.run server (client.stringOf x.2 "pk"))
  rw [key]
  refine posted.then_lift fun before after x pk known returned => ?_
  obtain ⟨members, made, document, found, finds⟩ := known
  rw [document, Owner.getStringByKey_string found] at returned
  rw [← Except.ok.inj returned]
  exact finds

theorem relates_getOrCreate (knows : known owner) (namePlain : Plain name) (kindPlain : Plain kind)
    (pkPlain : Plain owner.pk) :
    Loading.Relates Session.Ready (fun w => entries w.server) (Adds owner name kind)
    (fun _ after pk => Finds owner name kind pk after)
      (Session.run server (owner.getOrCreate client name kind)) := by
  unfold Owner.getOrCreate
  rw [Session.run_bind]
  have listed :=
    Session.observes_callGet client _ ControllerClient.defaultTimeout (.object []) fun s =>
      keeps.lists s owner name knows namePlain
  refine listed.bind_relates (fun t => .inl rfl) fun t x shown => ?_
  unfold Owner.Answers at shown
  cases found : (t owner).find? (·.name = name) with
  | none =>
    rw [found] at shown
    have none : ∀ entry ∈ t owner, entry.name ≠ name := by simpa using List.find?_eq_none.mp found
    dsimp only at shown ⊢
    rw [shown]
    refine (keeps.relates_create knows namePlain kindPlain pkPlain).mono (fun before after adds same => ?_)
      fun _ _ pk _ finds _ => finds
    subst same
    exact adds none
  | some entry =>
    rw [found] at shown
    obtain ⟨object, first, shows⟩ := shown
    obtain ⟨outcome, same, accepted⟩ := owner.existing_shown client kind shows
    dsimp only
    rw [first]
    dsimp only
    rw [same, Session.run_lift]
    have inside := List.mem_of_find?_eq_some found
    have named : entry.name = name := by simpa using List.find?_some found
    refine Loading.relates_lift (fun _ began => .inl began.symm) fun t' pk returned began => ?_
    subst began
    obtain ⟨rfl, accepts⟩ := accepted pk returned
    exact ⟨entry, inside, named, accepts, rfl, shows.1⟩

end KeepsEntries

inductive CreateOrder where
  | task (scenepk taskname tasktype : Text) (options : int32.Value)
  | optimization (taskpk optimizationname optimizationtype : Text)

inductive Created where
  | task (task : Option CreatedTask)
  | optimization (pk : Text)

namespace CreateOrder

def place (client : ControllerClient) : CreateOrder → Request Created
  | task scenepk taskname tasktype options => do
    return .task (← SceneResource.getOrCreateTaskFromName_UTF8 client scenepk taskname tasktype options)
  | optimization taskpk optimizationname optimizationtype => do
    return .optimization (← TaskResource.getOrCreateOptimizationFromName_UTF8 client taskpk optimizationname
      optimizationtype)

/-- The entry that is asked for, if the server is asked at all. -/
def Asks (owner : Owner) (name kind : Text) : CreateOrder → Prop
  | task scenepk taskname tasktype options =>
    options.val % 2 ≠ 1 ∧ owner = .scene scenepk ∧ name = taskname ∧
      kind = SceneResource.tasktype_internal tasktype
  | optimization taskpk optimizationname optimizationtype =>
    owner = .task taskpk ∧ name = optimizationname ∧ kind = optimizationtype

/-- The server knows the owner, and the strings stand for themselves in a body. -/
def Clear (known : Owner → Prop) (order : CreateOrder) : Prop :=
  ∀ owner name kind, order.Asks owner name kind → known owner ∧ Plain owner.pk ∧ Plain name ∧ Plain kind

/-- What is returned stands for the entry of the name. -/
def Made (entries : Owner → List NamedEntry) : CreateOrder → Created → Prop
  | task scenepk taskname tasktype options, created =>
    let kind := SceneResource.tasktype_internal tasktype
    if options.val % 2 = 1 then created = .task (some (SceneResource.localTask scenepk kind))
    else ∃ pk, Finds (.scene scenepk) taskname kind pk entries ∧
      created = .task (some (SceneResource.taskOf scenepk pk kind))
  | optimization taskpk optimizationname optimizationtype, created =>
    ∃ pk, Finds (.task taskpk) optimizationname optimizationtype pk entries ∧ created = .optimization pk

/-- Entries are made at the end, for an order and with a name that is free. -/
def Grows (orders : List CreateOrder) (before after : Owner → List NamedEntry) : Prop :=
  ∀ owner, ∃ more, after owner = before owner ++ more ∧
    (∀ entry ∈ more, ∃ order ∈ orders, order.Asks owner entry.name entry.kind) ∧
    (((before owner).map (·.name)).Nodup → ((after owner).map (·.name)).Nodup)

variable {orders : List CreateOrder} {order : CreateOrder} {before after later : Owner → List NamedEntry}

theorem grows_refl : Grows orders before before := fun owner => ⟨[], by simp, by simp, id⟩

theorem Grows.trans (first : Grows orders before after) (second : Grows orders after later) :
    Grows orders before later := by
  intro owner
  obtain ⟨some, began, asked, unique⟩ := first owner
  obtain ⟨more, ended, askedLater, uniqueLater⟩ := second owner
  refine ⟨some ++ more, by rw [ended, began, List.append_assoc], fun entry inside => ?_, uniqueLater ∘ unique⟩
  rcases List.mem_append.mp inside with early | late
  · exact asked entry early
  · exact askedLater entry late

theorem grows_of_adds {owner : Owner} {name kind : Text} (listed : order ∈ orders)
    (asks : order.Asks owner name kind)
    (adds : Adds owner name kind before after) : Grows orders before after := by
  rcases adds with rfl | ⟨pk, rfl, free⟩
  · exact grows_refl
  · intro other
    by_cases same : other = owner
    · subst same
      rw [Function.update_self]
      refine ⟨_, rfl, fun entry inside => ?_, fun unique => ?_⟩
      · obtain rfl := List.mem_singleton.mp inside
        exact ⟨order, listed, asks⟩
      · rw [List.map_append, List.map_singleton, List.nodup_append]
        refine ⟨unique, List.nodup_singleton _, fun first early second late => ?_⟩
        obtain ⟨entry, inside, rfl⟩ := List.mem_map.mp early
        rw [List.mem_singleton.mp late]
        exact free entry inside
    · rw [Function.update_of_ne same]
      exact ⟨[], by simp, by simp, id⟩

theorem finds_stable {owner : Owner} {name kind pk : Text} (grows : Grows orders before after)
    (finds : Finds owner name kind pk before) : Finds owner name kind pk after := by
  obtain ⟨entry, inside, holds⟩ := finds
  obtain ⟨more, ended, -⟩ := grows owner
  exact ⟨entry, ended ▸ List.mem_append_left more inside, holds⟩

theorem made_stable {created : Created} (grows : Grows orders before after)
    (made : order.Made before created) : order.Made after created := by
  cases order with
  | task scenepk taskname tasktype options =>
    unfold Made at made ⊢
    dsimp only at made ⊢
    split
    · rename_i mine
      rwa [if_pos mine] at made
    · rename_i asked
      rw [if_neg asked] at made
      obtain ⟨pk, finds, same⟩ := made
      exact ⟨pk, finds_stable grows finds, same⟩
  | optimization taskpk optimizationname optimizationtype =>
    obtain ⟨pk, finds, same⟩ := made
    exact ⟨pk, finds_stable grows finds, same⟩

/-- Where names are unique, a name has one key. -/
theorem finds_unique {owner : Owner} {name kind other pk qk : Text} (unique : ((before owner).map (·.name)).Nodup)
    (first : Finds owner name kind pk before) (second : Finds owner name other qk before) : pk = qk := by
  obtain ⟨entry, inside, named, -, rfl, -⟩ := first
  obtain ⟨entry', inside', named', -, rfl, -⟩ := second
  rw [List.inj_on_of_nodup_map unique inside inside' (named.trans named'.symm)]

theorem made_unique {x y : Created} (unique : ∀ owner, ((before owner).map (·.name)).Nodup)
    (first : order.Made before x) (second : order.Made before y) : x = y := by
  cases order with
  | task scenepk taskname tasktype options =>
    unfold Made at first second
    dsimp only at first second
    split at first
    · rename_i mine
      rw [if_pos mine] at second
      rw [first, second]
    · rename_i asked
      rw [if_neg asked] at second
      obtain ⟨pk, finds, rfl⟩ := first
      obtain ⟨qk, found, rfl⟩ := second
      rw [finds_unique (unique _) finds found]
  | optimization taskpk optimizationname optimizationtype =>
    obtain ⟨pk, finds, rfl⟩ := first
    obtain ⟨qk, found, rfl⟩ := second
    rw [finds_unique (unique _) finds found]

variable {σ : Type} {client : ControllerClient} {known : Owner → Prop}
    {entries : σ → Owner → List NamedEntry} {server : WebServer σ}

theorem relates_task (keeps : KeepsEntries client known entries server) {scenepk taskname tasktype : Text}
    {options : int32.Value} (clear : (task scenepk taskname tasktype options).Clear known)
    (listed : task scenepk taskname tasktype options ∈ orders) :
    Loading.Relates Session.Ready (fun w => entries w.server) (Grows orders)
      (fun _ after created => (task scenepk taskname tasktype options).Made after (.task created))
      (Session.run server
        (SceneResource.getOrCreateTaskFromName_UTF8 client scenepk taskname tasktype options)) := by
  unfold Made
  dsimp only
  by_cases mine : options.val % 2 = 1
  · unfold SceneResource.getOrCreateTaskFromName_UTF8
    simp only [if_pos mine]
    refine Loading.relates_lift (fun _ => grows_refl) fun _ created same => ?_
    rw [← Except.ok.inj same]
  · have asks : (task scenepk taskname tasktype options).Asks (.scene scenepk) taskname
        (SceneResource.tasktype_internal tasktype) :=
      ⟨mine, rfl, rfl, rfl⟩
    obtain ⟨knows, pkPlain, namePlain, kindPlain⟩ := clear _ _ _ asks
    have one := keeps.relates_getOrCreate knows namePlain kindPlain pkPlain
    rw [Owner.getOrCreate_task client scenepk taskname tasktype mine, Session.run_bind]
    simp only [if_neg mine]
    refine Loading.Relates.then_lift
      (one.mono (fun _ _ adds => grows_of_adds listed asks adds) fun _ _ _ _ finds => finds) ?_
    intro _ after pk created finds same
    have keyed : pk ≠ [] := by
      obtain ⟨_, _, _, _, _, keyed⟩ := finds
      exact keyed
    refine ⟨pk, finds, ?_⟩
    rw [← Except.ok.inj same, if_neg keyed]

theorem run_place_task (scenepk taskname tasktype : Text) (options : int32.Value) :
    Session.run server ((task scenepk taskname tasktype options).place client) =
      Session.run server
        (SceneResource.getOrCreateTaskFromName_UTF8 client scenepk taskname tasktype options) >>= fun x =>
        Loading.lift (.ok (Created.task x)) :=
  Session.run_bind _ _

theorem run_place_optimization (taskpk optimizationname optimizationtype : Text) :
    Session.run server ((optimization taskpk optimizationname optimizationtype).place client) =
      Session.run server ((Owner.task taskpk).getOrCreate client optimizationname optimizationtype) >>= fun pk =>
        Loading.lift (.ok (Created.optimization pk)) :=
  Session.run_bind _ _

theorem relates_place (keeps : KeepsEntries client known entries server) (clear : order.Clear known)
    (listed : order ∈ orders) :
    Loading.Relates Session.Ready (fun w => entries w.server) (Grows orders)
    (fun _ after created => order.Made after created)
      (Session.run server (order.place client)) := by
  cases order with
  | task scenepk taskname tasktype options =>
    rw [run_place_task]
    refine (relates_task keeps clear listed).then_lift fun _ after x created made same => ?_
    rwa [← Except.ok.inj same]
  | optimization taskpk optimizationname optimizationtype =>
    have asks : (optimization taskpk optimizationname optimizationtype).Asks (.task taskpk) optimizationname
        optimizationtype :=
      ⟨rfl, rfl, rfl⟩
    obtain ⟨knows, pkPlain, namePlain, kindPlain⟩ := clear _ _ _ asks
    have one := keeps.relates_getOrCreate knows namePlain kindPlain pkPlain
    rw [run_place_optimization]
    refine Loading.Relates.then_lift
      (one.mono (fun _ _ adds => grows_of_adds listed asks adds) fun _ _ _ _ finds => finds) ?_
    intro _ after pk created finds same
    exact ⟨pk, finds, (Except.ok.inj same).symm⟩

/-- However many orders are placed and whatever becomes of them: entries are only added, no name
twice, each for one of the orders. All that was returned stands for entries that are there, and for
equal orders it is equal. -/
theorem orders_settle (keeps : KeepsEntries client known entries server)
    (clear : ∀ order ∈ orders, order.Clear known) {w : Session σ}
    (ready : w.Ready) (unique : ∀ owner, ((entries w.server owner).map (·.name)).Nodup) :
    let done := Loading.attempts (orders.map fun order => Session.run server (order.place client)) w
    (∀ owner, ((entries done.2.server owner).map (·.name)).Nodup ∧
      ∃ more, entries done.2.server owner = entries w.server owner ++ more ∧
      ∀ entry ∈ more, ∃ order ∈ orders, order.Asks owner entry.name entry.kind) ∧
    List.Forall₂ (fun order outcome => ∀ created, outcome = .ok created →
      order.Made (entries done.2.server) created) orders done.1 ∧
    ∀ order x y, (order, .ok x) ∈ orders.zip done.1 → (order, .ok y) ∈ orders.zip done.1 → x = y := by
  have each : ∀ order ∈ orders, Loading.Relates Session.Ready (fun w => entries w.server) (Grows orders)
      (fun _ after created => order.Made after created) (Session.run server (order.place client)) :=
    fun order listed => relates_place keeps (clear order listed) listed
  have settled := fun refl trans stable => Loading.attempts_relate refl trans stable each ready
  obtain ⟨-, grows, made⟩ :=
    settled (fun _ => grows_refl) (fun _ _ _ => Grows.trans) fun _ _ _ _ grows => made_stable grows
  have names : ∀ owner,
      ((entries (Loading.attempts (orders.map fun order => Session.run server (order.place client))
        w).2.server owner).map (·.name)).Nodup :=
    fun owner => (grows owner).choose_spec.2.2 (unique owner)
  refine ⟨fun owner => ⟨names owner, ?_⟩, made, fun order x y first second => ?_⟩
  · obtain ⟨more, ended, asked, -⟩ := grows owner
    exact ⟨more, ended, asked⟩
  · have zipped := List.forall₂_iff_zip.mp made
    exact made_unique names (zipped.2 first x rfl) (zipped.2 second y rfl)

def deskClient : ControllerClient := { (default : ControllerClient) with escapeString := percentEncode }

def deskScene : Owner := .scene (lit "s")

/-- Names and types of the tasks; a key is made from the name. -/
def deskEntries (tasks : List (Text × Text)) (owner : Owner) : List NamedEntry :=
  if owner = deskScene then tasks.map fun made => ⟨made.1, made.2, byte 'k' :: made.1⟩ else []

def describedIn (data : Text) : Option (Text × Text) :=
  match readJson standardToken data with
  | some (.object members) =>
    match Json.findMember members (lit "name"), Json.findMember members (lit "tasktype") with
    | some (.string name), some (.string kind) => some (name, kind)
    | _, _ => none
  | _ => none

def deskObject (entry : NamedEntry) : Json :=
  .object [(lit "pk", .string entry.pk), (lit "tasktype", .string entry.kind)]

def deskList (tasks : List (Text × Text)) (call : WebCall) : List Json :=
  ((deskEntries tasks deskScene).find? fun entry =>
    deskClient.webCall "GET" (deskScene.listUri deskClient entry.name) [] = call).toList.map deskObject

def desk : WebServer (List (Text × Text)) := fun tasks call =>
  if call.method = lit "GET" then
    (some ⟨200, dumpJson default (.object [(lit "objects", .array (deskList tasks call))])⟩, tasks)
  else
    match describedIn call.data with
    | some made =>
      (some ⟨201, dumpJson default (.object [(lit "pk", .string (byte 'k' :: made.1))])⟩, tasks ++ [made])
    | none => (some ⟨400, []⟩, tasks)

theorem listUri_desk (name : Text) : cString (deskClient.baseapiuri ++ deskScene.listUri deskClient name) =
    lit "scene/s/task/?format=json&limit=1&name=" ++ percentEncode name ++ lit "&fields=pk,tasktype" := by
  show cString (lit "scene/s/task/?format=json&limit=1&name=" ++ percentEncode name ++
      lit "&fields=pk,tasktype") = _
  have front : NulFree (lit "scene/s/task/?format=json&limit=1&name=") := by decide
  have back : NulFree (lit "&fields=pk,tasktype") := by decide
  exact cString_of_nulFree _
    (nulFree_append.mpr ⟨nulFree_append.mpr ⟨front, not_mem_percentEncode (.inr rfl) name⟩, back⟩)

theorem webCall_desk {name other : Text} : deskClient.webCall "GET" (deskScene.listUri deskClient name) [] =
    deskClient.webCall "GET" (deskScene.listUri deskClient other) [] ↔ name = other := by
  refine ⟨fun same => ?_, fun same => same ▸ rfl⟩
  have urls := congrArg WebCall.url same
  simp only [ControllerClient.webCall, listUri_desk] at urls
  exact percentEncode_injective (List.append_cancel_left (List.append_cancel_right urls))

theorem describedIn_of_describes {name kind data : Text} (describes : deskScene.Describes name kind data) :
    describedIn data = some (name, kind) := by
  obtain ⟨members, read, named, kinded⟩ := describes
  have kinded : Json.findMember members (lit "tasktype") = some (.string kind) := kinded
  simp only [describedIn, read, named, kinded]

theorem desk_keeps : KeepsEntries deskClient (· = deskScene) deskEntries desk := by
  refine ⟨fun tasks owner name knows plain => ?_, fun tasks owner name kind data knows describes => ?_⟩
  · subst knows
    refine ⟨rfl, fun reply answered _ => ?_⟩
    obtain rfl := Option.some.inj answered
    have asked : deskList tasks (deskClient.webCall "GET" (deskScene.listUri deskClient name) []) =
        ((deskEntries tasks deskScene).find? (·.name = name)).toList.map deskObject := by
      unfold deskList
      simp only [webCall_desk]
    rw [asked]
    unfold Owner.Answers
    cases found : (deskEntries tasks deskScene).find? (·.name = name) with
    | none => exact ⟨_, parseJsonStream_dumpJson default ⟨trivial, trivial⟩, rfl⟩
    | some entry =>
      have keyed : entry.pk ≠ [] := by
        obtain ⟨made, -, rfl⟩ := List.mem_map.mp (List.mem_of_find?_eq_some found)
        exact List.cons_ne_nil _ _
      exact ⟨_, parseJsonStream_dumpJson default ⟨⟨⟨trivial, trivial, trivial⟩, trivial⟩, trivial⟩, _, rfl,
        keyed, _, rfl, by rfl, by rfl⟩
  · subst knows
    have answered : desk tasks (deskClient.webCall "POST" deskScene.createUri data) =
        (some ⟨201, dumpJson default (.object [(lit "pk", .string (byte 'k' :: name))])⟩, tasks ++
          [(name, kind)]) := by
      have put : lit "POST" ≠ lit "GET" := by decide
      simp only [desk, ControllerClient.webCall, if_neg put, describedIn_of_describes describes]
    rw [answered]
    refine .inr ⟨byte 'k' :: name, List.cons_ne_nil _ _, ?_, fun reply same _ => ?_⟩
    · funext other
      by_cases same : other = deskScene
      · subst same
        rw [Function.update_self]
        simp [deskEntries]
      · rw [Function.update_of_ne same]
        simp [deskEntries, same]
    · obtain rfl := Option.some.inj same
      exact ⟨_, parseJsonStream_dumpJson default ⟨trivial, trivial⟩, by rfl⟩

theorem int32_zero : int32.Holds 0 := by decide

/-- The same task is asked for twice. -/
def deskOrders : List CreateOrder :=
  [task (lit "s") (lit "pick") (lit "binpicking") ⟨0, int32_zero⟩,
    task (lit "s") (lit "pick") (lit "binpicking") ⟨0, int32_zero⟩]

def beforeDesk : Session (List (Text × Text)) := ⟨CurlHandle.constructed fun _ => .null, [], ⟨0, []⟩⟩

theorem desk_settles :
    let done := Loading.attempts (deskOrders.map fun order => Session.run desk (order.place deskClient)) beforeDesk
    (∀ owner, ((deskEntries done.2.server owner).map (·.name)).Nodup ∧ ∃ more,
      deskEntries done.2.server owner = deskEntries beforeDesk.server owner ++ more ∧
      ∀ entry ∈ more, ∃ order ∈ deskOrders, order.Asks owner entry.name entry.kind) ∧
    List.Forall₂ (fun order outcome => ∀ created, outcome = .ok created →
      order.Made (deskEntries done.2.server) created) deskOrders done.1 ∧
    ∀ order x y, (order, .ok x) ∈ deskOrders.zip done.1 → (order, .ok y) ∈ deskOrders.zip done.1 → x = y := by
  have ready : beforeDesk.Ready := CurlHandle.constructed_unset _
  refine orders_settle desk_keeps (fun order listed => ?_) ready fun owner => ?_
  · have same : order = task (lit "s") (lit "pick") (lit "binpicking") ⟨0, int32_zero⟩ := by
      simpa [deskOrders] using listed
    rintro owner name kind asks
    rw [same] at asks
    obtain ⟨-, rfl, rfl, rfl⟩ := asks
    exact ⟨rfl, plain_lit _ (by decide), plain_lit _ (by decide),
      TemplatedRequest.plain_tasktype_internal.mpr (plain_lit _ (by decide))⟩
  · have none : deskEntries beforeDesk.server owner = [] := by simp [deskEntries, beforeDesk]
    rw [none]
    exact List.nodup_nil

end CreateOrder

end MujinClient
