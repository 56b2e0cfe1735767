import MujinClient.SentRequests
import MujinClient.SubscriptionStream

/-! The JSON texts that the client writes from a value and sends: the body of a graph query, the
start message of a subscription and the entries of a log. Their writer stops at a number that is
not finite. -/
namespace MujinClient

open Transition (run run_nil run_cons run_append)

mutual
/-- Every double of the document satisfies it. -/
def Doubles (P : Double → Prop) : Json → Prop
  | .double d => P d
  | .array xs => DoublesElements P xs
  | .object xs => DoublesMembers P xs
  | _ => True

def DoublesElements (P : Double → Prop) : List Json → Prop
  | [] => True
  | x :: xs => Doubles P x ∧ DoublesElements P xs

def DoublesMembers (P : Double → Prop) : Json.Members → Prop
  | [] => True
  | (_, value) :: xs => Doubles P value ∧ DoublesMembers P xs
end

/-- There is neither a NaN nor an infinity in the document. -/
def Json.AllFinite (v : Json) : Prop := Doubles (fun d => Json.isFinite (.double d) = true) v

/-- The library prints the finite doubles of the document so that they read back. -/
def Json.Legible (platform : Platform) (v : Json) : Prop :=
  Doubles (fun d => Json.isFinite (.double d) = true → platform.Prints d) v

variable {platform : Platform} {token : Text → Option Json}

mutual
theorem printable_of_finite : (v : Json) → v.AllFinite → v.Legible platform → Printable platform v
  | .double _, finite, legible => ⟨finite, legible finite⟩
  | .array xs, finite, legible => printableElements_of_finite xs finite legible
  | .object xs, finite, legible => printableMembers_of_finite xs finite legible
  | .null, _, _ | .bool _, _, _ | .int _, _, _ | .string _, _, _ => trivial

theorem printableElements_of_finite : (xs : List Json) →
    DoublesElements (fun d => Json.isFinite (.double d) = true) xs →
    DoublesElements (fun d => Json.isFinite (.double d) = true → platform.Prints d) xs →
      PrintableElements platform xs
  | [], _, _ => trivial
  | x :: xs, finite, legible =>
    ⟨printable_of_finite x finite.1 legible.1, printableElements_of_finite xs finite.2 legible.2⟩

theorem printableMembers_of_finite : (xs : Json.Members) →
    DoublesMembers (fun d => Json.isFinite (.double d) = true) xs →
    DoublesMembers (fun d => Json.isFinite (.double d) = true → platform.Prints d) xs →
      PrintableMembers platform xs
  | [], _, _ => trivial
  | (_, x) :: xs, finite, legible =>
    ⟨printable_of_finite x finite.1 legible.1, printableMembers_of_finite xs finite.2 legible.2⟩
end

/-- What stands before an element or a member. -/
def comma (first : Bool) : Text := if first then [] else [byte ',']

/-- The texts as the writer puts them one after the other. -/
def joined : Bool → List Text → Text
  | _, [] => []
  | first, t :: ts => comma first ++ t ++ joined false ts

theorem joined_first (ts : List Text) : joined true ts = separated [byte ','] ts := by
  induction ts with
  | nil => rfl
  | cons t ts ih =>
    cases ts with
    | nil => simp [joined, comma, separated]
    | cons u us => simpa [joined, comma, separated] using ih

mutual
/-- A document of finite numbers is written whole. -/
theorem writeJson_finite : (v : Json) → v.AllFinite → writeJson platform v = (dumpJson platform v, true)
  | .null, _ | .bool _, _ | .int _, _ | .string _, _ => rfl
  | .double d, finite => by
    cases d with
    | finite x => rfl
    | nan | infinite => simp [Json.AllFinite, Doubles, Json.isFinite] at finite
  | .array xs, finite => by
    simp only [writeJson, writeElements_finite xs finite true, joined_first, dumpJson, if_true]
  | .object xs, finite => by
    simp only [writeJson, writeMembers_finite xs finite true, joined_first, dumpJson, if_true]

theorem writeElements_finite : (xs : List Json) → DoublesElements (fun d => Json.isFinite (.double d) = true) xs →
    (first : Bool) → writeElements platform first xs = (joined first (dumpElements platform xs), true)
  | [], _, _ => rfl
  | x :: xs, finite, first => by
    simp only [writeElements, writeJson_finite x finite.1, writeElements_finite xs finite.2 false,
      dumpElements, joined, comma, if_true]

theorem writeMembers_finite : (xs : Json.Members) → DoublesMembers (fun d => Json.isFinite (.double d) = true) xs →
    (first : Bool) → writeMembers platform first xs = (joined first (dumpMembers platform xs), true)
  | [], _, _ => rfl
  | (name, x) :: xs, finite, first => by
    simp [writeMembers, writeJson_finite x finite.1, writeMembers_finite xs finite.2 false, dumpMembers,
      joined, comma]
end

/-- The reader takes the text up to a place where a value has to start. -/
def Expects (token : Text → Option Json) (t : Text) (p : Position) : Prop :=
  ∃ closable stack, run (feed token) p t = some (.start closable, stack)

theorem Expects.readJson (expects : Expects token t (.start false, [])) : readJson token t = none := by
  obtain ⟨closable, stack, ran⟩ := expects
  rw [MujinClient.readJson, ran, Option.bind_some]
  rfl

theorem Expects.append {u : Text} (reached : run (feed token) p t = some q) (expects : Expects token u q) :
    Expects token (t ++ u) p := by
  obtain ⟨closable, stack, ran⟩ := expects
  exact ⟨closable, stack, by rw [run_append, reached, Option.bind_some, ran]⟩

theorem run_dumpName (name : Text) :
    run (feed token) (.name before closable, stack) (dumpString name ++ [byte ':']) =
    some (.start false, .member before name :: stack) := by
  have opens : beforeName before closable stack (byte '\"') = some (.string (some before) [] [], stack) := rfl
  have colon : feed token (.colon before name, stack) (byte ':') =
      some (.start false, .member before name :: stack) := rfl
  rw [dumpString, quoted, List.cons_append, List.cons_append, run_cons, feed_name, opens, Option.bind_some,
    List.append_assoc,
    run_append, unescapes_dump, Option.bind_some, List.singleton_append, run_cons, feed_quote,
      Option.bind_some, List.nil_append, closeString, run_cons, colon]
  rfl

mutual
theorem writeJson_stops (reader : TokenReader token) : (v : Json) → v.Legible platform → ¬v.AllFinite →
    (writeJson platform v).2 = false ∧ ∀ closable stack, Expects token (writeJson platform v).1
      (.start closable, stack)
  | .null, _, stops | .bool _, _, stops | .int _, _, stops | .string _, _, stops => absurd trivial stops
  | .double d, _, stops => by
    have infinite : Json.isFinite (.double d) = false := by simpa [Json.AllFinite, Doubles] using stops
    simp only [writeJson, infinite, Bool.false_eq_true, if_false, true_and]
    exact fun closable stack => ⟨closable, stack, rfl⟩
  | .array xs, legible, stops => by
    obtain ⟨stopped, expects⟩ := writeElements_stops reader xs legible stops true
    simp only [writeJson, stopped, Bool.false_eq_true, if_false, List.append_nil, true_and]
    intro closable stack
    exact Expects.append (t := [byte '[']) rfl (expects _ ⟨true, [], stack, rfl⟩)
  | .object xs, legible, stops => by
    obtain ⟨stopped, expects⟩ := writeMembers_stops reader xs legible stops true
    simp only [writeJson, stopped, Bool.false_eq_true, if_false, List.append_nil, true_and]
    intro closable stack
    exact Expects.append (t := [byte '\x7b']) rfl (expects _ ⟨[], true, stack, rfl⟩)

theorem writeElements_stops (reader : TokenReader token) : (xs : List Json) →
    DoublesElements (fun d => Json.isFinite (.double d) = true → platform.Prints d) xs →
    ¬DoublesElements (fun d => Json.isFinite (.double d) = true) xs → (first : Bool) →
    (writeElements platform first xs).2 = false ∧ ∀ p,
      (∃ closable before stack, run (feed token) p (comma first) =
        some (.start closable, .element before :: stack)) →
      Expects token (writeElements platform first xs).1 p
  | [], _, stops, _ => absurd trivial stops
  | x :: xs, legible, stops, first => by
    by_cases finite : x.AllFinite
    · have later : ¬DoublesElements (fun d => Json.isFinite (.double d) = true) xs :=
        fun rest => stops ⟨finite, rest⟩
      obtain ⟨stopped, expects⟩ := writeElements_stops reader xs legible.2 later false
      rw [writeElements, writeJson_finite x finite]
      refine ⟨stopped, ?_⟩
      rintro p ⟨closable, before, stack, ready⟩
      obtain ⟨q, ran, complete⟩ :=
        yields_dumpJson reader platform x (printable_of_finite x finite legible.1) closable
          (.element before :: stack)
      refine Expects.append (q := q) ?_ (expects q ⟨false, before ++ [x], stack, ?_⟩)
      · rw [← comma, run_append, ready, Option.bind_some, ran]
      · rw [comma, if_neg (by decide), run_cons, complete.next (by decide), afterValue_comma_element]
        rfl
    · obtain ⟨stopped, expects⟩ := writeJson_stops reader x legible.1 finite
      simp only [writeElements, stopped, Bool.false_eq_true, if_false, true_and]
      rintro p ⟨closable, before, stack, ready⟩
      exact Expects.append ready (expects closable _)

theorem writeMembers_stops (reader : TokenReader token) : (xs : Json.Members) →
    DoublesMembers (fun d => Json.isFinite (.double d) = true → platform.Prints d) xs →
    ¬DoublesMembers (fun d => Json.isFinite (.double d) = true) xs → (first : Bool) →
    (writeMembers platform first xs).2 = false ∧ ∀ p,
      (∃ before closable stack, run (feed token) p (comma first) = some (.name before closable, stack)) →
      Expects token (writeMembers platform first xs).1 p
  | [], _, stops, _ => absurd trivial stops
  | (name, x) :: xs, legible, stops, first => by
    by_cases finite : x.AllFinite
    · have later : ¬DoublesMembers (fun d => Json.isFinite (.double d) = true) xs :=
        fun rest => stops ⟨finite, rest⟩
      obtain ⟨stopped, expects⟩ := writeMembers_stops reader xs legible.2 later false
      rw [writeMembers, writeJson_finite x finite]
      refine ⟨stopped, ?_⟩
      rintro p ⟨before, closable, stack, ready⟩
      obtain ⟨q, ran, complete⟩ :=
        yields_dumpJson reader platform x (printable_of_finite x finite legible.1) false
          (.member before name :: stack)
      refine Expects.append (q := q) ?_ (expects q ⟨before ++ [(name, x)], false, stack, ?_⟩)
      · rw [← comma, List.append_assoc, List.append_assoc, run_append, ready, Option.bind_some,
          ← List.append_assoc, run_append,
          run_dumpName, Option.bind_some, ran]
      · rw [comma, if_neg (by decide), run_cons, complete.next (by decide), afterValue_comma_member]
        rfl
    · obtain ⟨stopped, expects⟩ := writeJson_stops reader x legible.1 finite
      simp only [writeMembers, stopped, Bool.false_eq_true, if_false, true_and]
      rintro p ⟨before, closable, stack, ready⟩
      rw [← comma, List.append_assoc, List.append_assoc, ← List.append_assoc (dumpString name)]
      exact Expects.append ready (Expects.append (run_dumpName name) (expects false _))
end

theorem nulFree_dumpString (s : Text) : NulFree (dumpString s) := by
  have digits : ∀ d < 16, hexDigit d ≠ 0 := by decide
  have each (b : Byte) : NulFree (escapeByte b) := by
    unfold escapeByte
    split_ifs with quote plain
    · rcases quote with rfl | rfl <;> decide
    · simpa [NulFree] using fun zero : 0 = b => absurd plain (zero ▸ by decide)
    all_goals try decide
    have high := digits (b.val / 16) (by omega)
    have low := digits (b.val % 16) (by omega)
    have front : NulFree (lit "\\u00") := by decide
    simp [NulFree, eq_comm, high, low]
    exact front
  rw [dumpString, quoted, nulFree_append, nulFree_cons]
  refine ⟨⟨by decide, fun zero => ?_⟩, by decide⟩
  obtain ⟨b, -, inside⟩ := List.mem_flatMap.mp zero
  exact each b inside

mutual
theorem nulFree_writeJson : (v : Json) → v.Legible platform → NulFree (writeJson platform v).1
  | .null, _ => (by decide : NulFree (lit "null"))
  | .bool true, _ => (by decide : NulFree (lit "true"))
  | .bool false, _ => (by decide : NulFree (lit "false"))
  | .int z, _ => intText_nulFree z.value
  | .string s, _ => nulFree_dumpString s
  | .double d, legible => by
    by_cases finite : Json.isFinite (.double d) = true
    · obtain ⟨decimal, read, -⟩ := legible finite
      rw [writeJson, if_pos finite]
      exact fun zero => absurd (allTokenBytes_number? read 0 zero) (by decide)
    · rw [writeJson, if_neg finite]
      decide
  | .array xs, legible => by
    have elements := nulFree_writeElements xs legible true
    simp only [writeJson, List.cons_append, nulFree_cons, nulFree_append, elements]
    exact ⟨by decide, trivial, by split <;> decide⟩
  | .object xs, legible => by
    have members := nulFree_writeMembers xs legible true
    simp only [writeJson, List.cons_append, nulFree_cons, nulFree_append, members]
    exact ⟨by decide, trivial, by split <;> decide⟩

theorem nulFree_writeElements : (xs : List Json) →
    DoublesElements (fun d => Json.isFinite (.double d) = true → platform.Prints d) xs → (first : Bool) →
    NulFree (writeElements platform first xs).1
  | [], _, _ => (by decide : NulFree [])
  | x :: xs, legible, first => by
    have value := nulFree_writeJson x legible.1
    have rest := nulFree_writeElements xs legible.2 false
    have start : NulFree (comma first) := by cases first <;> decide
    rw [writeElements, ← comma]
    split <;> simp [nulFree_append, start, value, rest]

theorem nulFree_writeMembers : (xs : Json.Members) →
    DoublesMembers (fun d => Json.isFinite (.double d) = true → platform.Prints d) xs → (first : Bool) →
    NulFree (writeMembers platform first xs).1
  | [], _, _ => (by decide : NulFree [])
  | (name, x) :: xs, legible, first => by
    have value := nulFree_writeJson x legible.1
    have rest := nulFree_writeMembers xs legible.2 false
    have start : NulFree (comma first) := by cases first <;> decide
    have colon : byte ':' ≠ 0 := by decide
    rw [writeMembers, ← comma]
    split <;> simp [nulFree_append, nulFree_cons, nulFree_dumpString, start, value, rest, colon]
end

/-- What is sent of a document reads back as the document exactly where it has no number that is
not finite, and as nothing elsewhere. -/
theorem read_written {v w : Json} (reader : TokenReader token) (legible : v.Legible platform) :
    readJson token (cString (writeJson platform v).1) = some w ↔ v.AllFinite ∧ v = w := by
  rw [cString_of_nulFree _ (nulFree_writeJson v legible)]
  by_cases finite : v.AllFinite
  · rw [writeJson_finite v finite, readJson_dumpJson reader platform v (printable_of_finite v finite legible)]
    simp [finite]
  · rw [((writeJson_stops reader v legible finite).2 false []).readJson]
    simp [finite]

inductive WrittenText where
  | graphQuery (operationName query : Text) (rVariables : Json) (timeout : Double)
    (checkForErrors returnRawResponse : Bool)
  | subscription (operationName query : Text) (rVariables : Json)
  | entries (logEntries : List LogEntry) (timeout : Double)

namespace WrittenText

def values : WrittenText → List Json
  | .graphQuery _ _ rVariables _ _ _ | .subscription _ _ rVariables => [rVariables]
  | .entries logEntries _ => logEntries.map (·.rEntry)

/-- The documents in the parts of a form. -/
def entryDocuments (parts : List FormPart) : List (Option Json) :=
  (parts.filter (·.contentType = some (lit "application/json"))).map fun part =>
    match part.contents with
    | .bytes t => readJson clientToken t
    | _ => none

def queryDocument (operationName query : Text) (rVariables : Json) : Json :=
  .object [(lit "operationName", .string operationName), (lit "query", .string query),
    (lit "variables", rVariables)]

def startDocument (query : Json) (subscriptionId : Text) : Json :=
  .object [(lit "type", .string (lit "start")), (lit "payload", query), (lit "id", .string subscriptionId)]

/-- Whatever is sent reads back as the document that is meant. -/
def Whole (client : ControllerClient) : WrittenText → Prop
  | .graphQuery operationName query rVariables timeout checkForErrors returnRawResponse =>
    ∀ (h : CurlHandle) trace q,
    (client.script (.executeGraphQuery_ operationName query rVariables timeout checkForErrors
      returnRawResponse)).Reaches trace q →
      ∀ request ∈ h.requests trace, ∃ body, request.body = [.long body.length, .data body] ∧
        readJson clientToken body = some (queryDocument operationName query rVariables)
  | .subscription operationName query rVariables =>
    ∀ (Callback : Type) (s t : GraphSubscriptionWebSocketHandler Callback)
    (subscriptionId : Uuid) (onReadHandler : Option Callback) (writes : Bool),
    s.step client.platform
      (.startSubscription operationName query rVariables subscriptionId onReadHandler writes) = some t →
      ∀ message, t.sent = s.sent ++ [message] → readJson clientToken message =
        some (startDocument (queryDocument operationName query rVariables) subscriptionId.toText)
  | .entries logEntries timeout => ∀ (h : CurlHandle) trace q,
    (client.script (.createLogEntries logEntries timeout)).Reaches trace q → ∀ request ∈ h.requests trace,
      ∃ parts, request.body = [.form parts] ∧ entryDocuments parts = logEntries.map fun logEntry =>
        some logEntry.rEntry

/-- There is no number that the writer stops at, and no zero byte in the strings, which come from C
strings. -/
def Writable : WrittenText → Prop
  | .graphQuery operationName query rVariables _ _ _ | .subscription operationName query rVariables =>
    NulFree operationName ∧ NulFree query ∧ rVariables.AllFinite
  | .entries logEntries _ => ∀ logEntry ∈ logEntries, logEntry.rEntry.AllFinite

variable {client : ControllerClient} {h : CurlHandle} {ok : SentRequest → Prop}

theorem sends_logEntriesForm {α : Type} {logEntries : List LogEntry} {f : List FormPart → Request α} :
    Sends ok h (client.logEntriesForm logEntries >>= f) ↔
      Sends ok h (f (logEntries.flatMap client.logEntryParts)) := by
  induction logEntries generalizing f with
  | nil => exact Iff.rfl
  | cons logEntry logEntries ih =>
    show Sends ok h (do
      Request.act (.access .requestStringBufferCache)
      (client.logEntriesForm logEntries >>= fun rest => pure (client.logEntryParts logEntry ++ rest)) >>= f) ↔ _
    rw [sends_access, Program.bind_assoc, ih]
    exact Iff.rfl

theorem entryDocuments_logEntryParts (logEntries : List LogEntry) :
    entryDocuments (logEntries.flatMap client.logEntryParts) =
    logEntries.map fun logEntry =>
      readJson clientToken (cString (writeJson client.platform logEntry.rEntry).1) := by
  induction logEntries with
  | nil => rfl
  | cons logEntry logEntries ih =>
    have attached : (logEntry.attachments.map fun attachment =>
        (⟨lit "attachment", some (cString attachment.filename), none, .bytes attachment.data⟩ : FormPart)).filter
          (·.contentType = some (lit "application/json")) = [] := by simp
    simp only [entryDocuments, List.filter_append, List.map_append, List.flatMap_cons] at ih ⊢
    rw [ih, ControllerClient.logEntryParts, List.filter_cons_of_pos (by simp), attached]
    rfl

theorem sends_createLogEntries {logEntries : List LogEntry} {timeout : Double} :
    Sends ok h (client.script (.createLogEntries logEntries timeout)) ↔
      (logEntries ≠ [] →
        ok (ControllerClient.formOf h (client.baseuri ++ lit "api/v2/logEntry")
          (logEntries.flatMap client.logEntryParts))) := by
  rw [ControllerClient.script, sends_bind fun _ _ => sends_pure, ControllerClient.createLogEntries]
  cases logEntries with
  | nil => exact iff_of_true trivial fun impossible => absurd rfl impossible
  | cons logEntry logEntries =>
    rw [if_neg (by simp), sends_locked, sends_logEntriesForm, sends_access, sends_bind fun _ _ => sends_lift,
      ControllerClient.sends_callPostForm]
    simp

theorem sends_executeGraphQuery {operationName query : Text} {rVariables : Json} {timeout : Double}
    {checkForErrors returnRawResponse : Bool} :
    Sends ok h (client.script
      (.executeGraphQuery_ operationName query rVariables timeout checkForErrors returnRawResponse)) ↔
      ok (ControllerClient.postOf h (client.baseuri ++ lit "api/v2/graphql")
        (cString (writeJson client.platform
          (ControllerClient.graphRequest operationName query rVariables)).1)) := by
  rw [ControllerClient.script, sends_bind fun _ _ => sends_pure, ControllerClient.executeGraphQuery_,
    sends_bind fun _ _ => sends_lift, sends_locked, sends_access, sends_access,
      ControllerClient.sends_callPostData]

/-- The document of a query is the one that is meant where no C string ends early. -/
theorem queryDocument_eq_iff {operationName query : Text} {rVariables : Json} :
    queryDocument (cString operationName)
    (cString query) rVariables = queryDocument operationName query rVariables ↔
      NulFree operationName ∧ NulFree query := by
  simp [queryDocument, cString_eq_self_iff]

theorem doubles_queryDocument {P : Double → Prop} {operationName query : Text} {rVariables : Json} :
    Doubles P (queryDocument operationName query rVariables) ↔ Doubles P rVariables := by
  simp [queryDocument, Doubles, DoublesMembers]

theorem doubles_startDocument {P : Double → Prop} {query : Json} {subscriptionId : Text} :
    Doubles P (startDocument query subscriptionId) ↔ Doubles P query := by
  simp [startDocument, Doubles, DoublesMembers]

theorem startDocument_inj {query other : Json} {subscriptionId : Text} :
    startDocument query subscriptionId = startDocument other subscriptionId ↔ query = other := by
  simp [startDocument]

theorem written_nonempty (members : Json.Members) : cString (writeJson platform (.object members)).1 ≠ [] := by
  have brace : byte '\x7b' ≠ 0 := by decide
  simp [writeJson, cString, brace]

theorem whole_graphQuery {operationName query : Text} {rVariables : Json} {timeout : Double}
    {checkForErrors returnRawResponse : Bool} (legible : rVariables.Legible client.platform) :
    Whole client (.graphQuery operationName query rVariables timeout checkForErrors returnRawResponse) ↔
      NulFree operationName ∧ NulFree query ∧ rVariables.AllFinite := by
  let body := cString
    (writeJson client.platform (queryDocument (cString operationName) (cString query) rVariables)).1
  have nonempty : body ≠ [] := written_nonempty _
  have sent : Whole client (.graphQuery operationName query rVariables timeout checkForErrors returnRawResponse) ↔
      readJson clientToken body = some (queryDocument operationName query rVariables) := by
    constructor
    · intro whole
      obtain ⟨text, shape, read⟩ := sends_executeGraphQuery.mp (sends_iff.mpr (whole ⟨fun _ => .null, .get⟩))
      have same : (if body ≠ [] then OptionValue.data body else .null) = .data text :=
        (List.cons.inj (List.cons.inj shape).2).1
      rw [if_pos nonempty] at same
      exact OptionValue.data.inj same ▸ read
    · intro read h
      refine sends_iff.mp (sends_executeGraphQuery.mpr ⟨body, ?_, read⟩)
      show [_, if body ≠ [] then OptionValue.data body else .null] = _
      rw [if_pos nonempty]
      rfl
  rw [sent, read_written clientToken_reader (doubles_queryDocument.mpr legible), queryDocument_eq_iff,
    Json.AllFinite,
    doubles_queryDocument]
  tauto

theorem whole_subscription {operationName query : Text} {rVariables : Json}
    (legible : rVariables.Legible client.platform) :
    Whole client (.subscription operationName query rVariables) ↔ NulFree operationName ∧ NulFree query ∧
      rVariables.AllFinite := by
  have read (subscriptionId : Uuid) : readJson clientToken
      (GraphSubscriptionWebSocketHandler.subscriptionMessage client.platform
      operationName query rVariables subscriptionId.toText) =
        some (startDocument (queryDocument operationName query rVariables) subscriptionId.toText) ↔
      NulFree operationName ∧ NulFree query ∧ rVariables.AllFinite := by
    have document : GraphSubscriptionWebSocketHandler.subscriptionMessage client.platform operationName
        query rVariables subscriptionId.toText =
        cString (writeJson client.platform
          (startDocument (queryDocument (cString operationName) (cString query) rVariables)
          (cString subscriptionId.toText))).1 := rfl
    rw [document, cString_of_nulFree _ subscriptionId.toText_nulFree,
      read_written clientToken_reader (doubles_startDocument.mpr (doubles_queryDocument.mpr legible)),
        startDocument_inj,
      queryDocument_eq_iff, Json.AllFinite, doubles_startDocument, doubles_queryDocument]
    tauto
  constructor
  · intro whole
    let subscriptionId : Uuid := ⟨List.replicate 16 0, rfl⟩
    exact (read subscriptionId).mp (whole Unit .connected _ subscriptionId none true rfl _ rfl)
  · intro writable Callback s t subscriptionId onReadHandler writes taken message sent
    obtain rfl := Option.some.inj taken
    cases writes with
    | false =>
      exact absurd sent
        (by simp [GraphSubscriptionWebSocketHandler.startSubscription,
          GraphSubscriptionWebSocketHandler.sendMessage])
    | true =>
      obtain rfl := (List.cons.inj (List.append_cancel_left sent)).1
      exact (read subscriptionId).mpr writable

theorem whole_entries {logEntries : List LogEntry} {timeout : Double}
    (legible : ∀ logEntry ∈ logEntries, logEntry.rEntry.Legible client.platform) :
    Whole client (.entries logEntries timeout) ↔ ∀ logEntry ∈ logEntries, logEntry.rEntry.AllFinite := by
  have read : entryDocuments (logEntries.flatMap client.logEntryParts) =
      (logEntries.map fun logEntry => some logEntry.rEntry) ↔
      ∀ logEntry ∈ logEntries, logEntry.rEntry.AllFinite := by
    rw [entryDocuments_logEntryParts, List.map_inj_left]
    refine forall₂_congr fun logEntry member => ?_
    simp [read_written clientToken_reader (legible logEntry member)]
  rw [← read]
  constructor
  · intro whole
    cases logEntries with
    | nil => rfl
    | cons logEntry logEntries =>
      obtain ⟨parts, shape, documents⟩ :=
        sends_createLogEntries.mp (sends_iff.mpr (whole ⟨fun _ => .null, .get⟩)) (by simp)
      obtain rfl := OptionValue.form.inj (List.cons.inj shape).1
      exact documents
  · intro documents h
    exact sends_iff.mp (sends_createLogEntries.mpr fun _ => ⟨_, rfl, documents⟩)

/-- Whatever is sent is whole exactly where the caller's values have no number that is not finite and
its strings no zero byte. -/
theorem whole_iff (client : ControllerClient) (text : WrittenText)
    (legible : ∀ v ∈ text.values, v.Legible client.platform) :
    text.Whole client ↔ text.Writable := by
  cases text with
  | graphQuery => exact whole_graphQuery (legible _ (by simp [values]))
  | subscription => exact whole_subscription (legible _ (by simp [values]))
  | entries logEntries => exact whole_entries fun logEntry member => legible _ (List.mem_map_of_mem member)

def halvesClient : ControllerClient := { (default : ControllerClient) with
  platform := { (default : Platform) with
    dtoa := fun d => if d = Double.nearest false 3 2 then lit "1.5" else lit "0.0" } }

/-- A query with the number 1.5 is sent whole. -/
theorem whole_halves : Whole halvesClient
    (.graphQuery (lit "q") (lit "query q") (.object [(lit "x", .double (Double.nearest false 3 2))])
      ControllerClient.defaultTimeout true false) := by
  refine (whole_iff halvesClient _ fun v member => ?_).mpr ⟨by decide, by decide, rfl, trivial⟩
  obtain rfl := List.mem_singleton.mp member
  exact ⟨fun _ => ⟨⟨false, [digit 1], some [digit 5], none⟩, rfl, rfl⟩, trivial⟩

/-- The body of a query whose variables are not a number ends before them. -/
theorem graphQuery_truncated : ¬∀ (client : ControllerClient) (text : WrittenText),
    (∀ v ∈ text.values, v.Legible client.platform) → text.Whole client := by
  intro whole
  have legible : (Json.double .nan).Legible (default : ControllerClient).platform :=
    fun impossible => Bool.noConfusion impossible
  have sent :=
    whole default (.graphQuery [] [] (.double .nan) ControllerClient.defaultTimeout true false)
      (by simpa [values] using legible)
  exact Bool.noConfusion ((whole_graphQuery legible).mp sent).2.2

end WrittenText

end MujinClient
