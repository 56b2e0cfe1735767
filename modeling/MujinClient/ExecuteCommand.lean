import MujinClient.CommandText
import MujinClient.JsonFaithful

/-! The two `ExecuteCommand` overloads of `BinPickingTaskZmqResource`. One streams the
message from the stored texts, the other builds it as a document from the parsed copies. -/
namespace MujinClient

open Transition

/-- What the constructor, `SetCallerId` and `Initialize` leave in a task resource. -/
structure TaskResource where
  tasktype : Text
  callerid : Text
  slaverequestid : Text
  /-- `MUJIN_MEDIA_ROOT_DIR`, the user name and the name of the scene. -/
  mediaRoot : Text
  userName : Text
  scenebasename : Text
  userinfo_json : Text
  rUserInfo : Json
  /-- `Initialize` throws for other texts. -/
  parsed : parseJson userinfo_json = some rUserInfo

namespace TaskResource

def fnname (r : TaskResource) : Text :=
  if r.tasktype = lit "binpicking" then lit "binpicking.RunCommand" else lit "RunCommand"

def rSceneParams (r : TaskResource) : Json := .object [
  (lit "scenetype", .string (lit "mujin")),
  (lit "sceneuri", saveString (lit "mujin:/" ++ r.scenebasename)),
  (lit "scenefilename", saveString (r.mediaRoot ++ lit "/" ++ r.userName ++ lit "/" ++ r.scenebasename))]

variable (platform : Platform)

def sceneparams_json (r : TaskResource) : Text := dumpJson platform r.rSceneParams

/-- The message `ExecuteCommand` sends for a text. `stamp` is the clock's value in seconds. -/
def messageText (r : TaskResource) (stamp : Double) (taskparameters : Text) : Text :=
  lit "\x7b\"fnname\": \"" ++
  (if r.tasktype = lit "binpicking" then lit "binpicking.RunCommand\", " else lit "RunCommand\", ") ++
  lit "\"stamp\": " ++ printDouble 16 stamp ++ lit ", " ++
  lit "\"callerid\": \"" ++ r.callerid ++ lit "\", " ++
  lit "\"taskparams\": \x7b\"tasktype\": \"" ++ r.tasktype ++ lit "\", " ++
  lit "\"taskparameters\": " ++ taskparameters ++ lit ", " ++
  lit "\"sceneparams\": " ++ r.sceneparams_json platform ++ lit "\x7d, " ++
  lit "\"userinfo\": " ++ r.userinfo_json ++
  streamIf (r.slaverequestid ≠ []) (lit ", " ++ getJsonStringValue "slaverequestid" r.slaverequestid) ++ [byte '}']

def taskParams (r : TaskResource) (rTaskParameters : Json) : Json := .object [
  (lit "tasktype", saveString r.tasktype), (lit "taskparameters", rTaskParameters),
    (lit "sceneparams", r.rSceneParams)]

def commandDocument (r : TaskResource) (stamp : Double) (rTaskParameters : Json) : Json := .object (
  [(lit "fnname", .string r.fnname), (lit "stamp", .double stamp), (lit "callerid", saveString r.callerid),
    (lit "taskparams", r.taskParams rTaskParameters), (lit "userinfo", r.rUserInfo)] ++
  memberIf (r.slaverequestid ≠ []) "slaverequestid" (saveString r.slaverequestid))

end TaskResource

/-- The document without the time it was built at. -/
def exceptStamp : Json → Json
  | .object members => .object (members.filter fun member => member.1 ≠ lit "stamp")
  | v => v

def IsStamp (stamp : Double) : Prop := ∃ v, clientToken (printDouble 16 stamp) = some v

/-- The text parses, and up to the stamps to the document built from the parsed parameters. -/
def Agrees (platform : Platform) (r : TaskResource) (textStamp documentStamp : Double) (taskparameters : Text)
    (rTaskParameters : Json) : Prop :=
  ∃ d, readJson clientToken (r.messageText platform textStamp taskparameters) = some d ∧
    exceptStamp d = exceptStamp (r.commandDocument documentStamp rTaskParameters)

/-- Parsing the text uses all of it, without a mark in front and up to no zero byte. -/
def Direct (t : Text) : Prop := cString (skipByte 0xBF (skipByte 0xBB (skipByte 0xEF t))) = t

instance : DecidablePred Direct := fun t =>
  inferInstanceAs (Decidable (cString (skipByte 0xBF (skipByte 0xBB (skipByte 0xEF t))) = t))

/-- Caller id and task type are streamed without escapes, the slave request id with its
quotes escaped, and the user info as it was given. -/
structure TaskResource.Faithful (r : TaskResource) : Prop where
  callerid : ∀ b ∈ r.callerid, isPlain b = true
  tasktype : ∀ b ∈ r.tasktype, isPlain b = true
  slaverequestid : Clean r.slaverequestid
  userinfo : Direct r.userinfo_json

namespace TaskResource

variable {platform : Platform}

def headerText (r : TaskResource) (stamp : Double) : Text :=
  [byte '{'] ++ (keyed "fnname" (quoted r.fnname) ++ lit ", ") ++
    (keyed "stamp" (printDouble 16 stamp) ++ lit ", ")

def sceneText (platform : Platform) (r : TaskResource) (taskparameters : Text) : Text :=
  keyed "taskparameters" taskparameters ++ lit ", " ++ keyed "sceneparams" (r.sceneparams_json platform)

def taskParamsText (platform : Platform) (r : TaskResource) (taskparameters : Text) : Text :=
  [byte '{'] ++ (keyed "tasktype" (quoted r.tasktype) ++ lit ", ") ++ sceneText platform r taskparameters ++
    [byte '}']

def slaveText (r : TaskResource) : Text :=
  streamIf (r.slaverequestid ≠ []) (lit ", " ++ getJsonStringValue "slaverequestid" r.slaverequestid) ++ [byte '}']

theorem fnname_text (r : TaskResource) : lit "\x7b\"fnname\": \"" ++
    (if r.tasktype = lit "binpicking" then lit "binpicking.RunCommand\", " else lit "RunCommand\", ") =
      [byte '{'] ++ (keyed "fnname" (quoted r.fnname) ++ lit ", ") := by
  unfold fnname
  split <;> decide +kernel

/-- The literals in front of the values, as the keys they spell. -/
theorem lit_key : ∀ spelled ∈ [("\"stamp\": ", "stamp"), ("\"taskparameters\": ", "taskparameters"),
    ("\"sceneparams\": ", "sceneparams"), ("\"userinfo\": ", "userinfo")],
    lit spelled.1 = getJsonString (lit spelled.2) ++ lit ": " := by
  decide +kernel

theorem lit_callerid : lit "\"callerid\": \"" = getJsonString (lit "callerid") ++ lit ": " ++ [byte '"'] := by
  decide +kernel

theorem lit_taskparams :
    lit "\"taskparams\": \x7b\"tasktype\": \"" = getJsonString (lit "taskparams") ++ lit ": " ++
    [byte '{'] ++ getJsonString (lit "tasktype") ++ lit ": " ++ [byte '"'] := by
  decide +kernel

theorem messageText_eq (r : TaskResource) (stamp : Double) (taskparameters : Text) :
    r.messageText platform stamp taskparameters = r.headerText stamp ++
      ((keyed "callerid" (quoted r.callerid) ++ lit ", ") ++
        ((keyed "taskparams" (taskParamsText platform r taskparameters) ++ lit ", ") ++
          (keyed "userinfo" r.userinfo_json ++ r.slaveText))) := by
  have quoteComma : lit "\", " = [byte '"'] ++ lit ", " := by decide +kernel
  have braceComma : lit "\x7d, " = [byte '}'] ++ lit ", " := by decide +kernel
  have stampKey : lit "\"stamp\": " = getJsonString (lit "stamp") ++ lit ": " :=
    lit_key ("\"stamp\": ", "stamp") (by simp)
  have parametersKey : lit "\"taskparameters\": " = getJsonString (lit "taskparameters") ++ lit ": " :=
    lit_key ("\"taskparameters\": ", "taskparameters") (by simp)
  have sceneKey : lit "\"sceneparams\": " = getJsonString (lit "sceneparams") ++ lit ": " :=
    lit_key ("\"sceneparams\": ", "sceneparams") (by simp)
  have userinfoKey : lit "\"userinfo\": " = getJsonString (lit "userinfo") ++ lit ": " :=
    lit_key ("\"userinfo\": ", "userinfo") (by simp)
  delta messageText
  simp only [fnname_text, stampKey, lit_callerid, quoteComma, lit_taskparams, parametersKey, sceneKey,
    braceComma, userinfoKey, headerText, taskParamsText, sceneText, slaveText, keyed, quoted, List.append_assoc,
    List.cons_append, List.nil_append]

theorem yields_plain (token : Text → Option Json) (plain : ∀ b ∈ s, isPlain b = true) :
    Yields token (quoted s) (.string s) := by
  have each : Unescapes token (s.flatMap fun b => [b]) s :=
    unescapes_flatMap fun b inside => unescapes_plain (plain b inside)
  rw [List.flatMap_singleton'] at each
  exact yields_string each

theorem yields_fnname (r : TaskResource) : Yields clientToken (quoted r.fnname) (.string r.fnname) := by
  refine yields_plain clientToken ?_
  unfold fnname
  split <;> decide +kernel

theorem reads_stamp (known : clientToken (printDouble 16 stamp) = some v) :
    ReadsMember clientToken (keyed "stamp" (printDouble 16 stamp)) (lit "stamp") v := by
  have bare := printDouble_bare 16 stamp
  exact readsMember_keyed _ (yields_token known bare.1 bare.2) (clean_lit _ (by decide))

theorem opens_header (r : TaskResource) (known : clientToken (printDouble 16 stamp) = some v) :
    Opens clientToken (r.headerText stamp) [(lit "fnname", .string r.fnname), (lit "stamp", v)] := by
  have fnname := readsMember_keyed "fnname" (yields_fnname r) (clean_lit _ (by decide))
  exact (opens_brace.next fnname).next (reads_stamp known)

theorem printable_sceneParams (r : TaskResource) : Printable platform r.rSceneParams := by
  simp [rSceneParams, Printable, PrintableMembers, saveString]

theorem reads_sceneParams (platform : Platform) (r : TaskResource) :
    ReadsMember clientToken (keyed "sceneparams" (r.sceneparams_json platform))
    (lit "sceneparams") r.rSceneParams :=
  readsMember_keyed _ (yields_dumpJson clientToken_reader platform _ r.printable_sceneParams)
    (clean_lit _ (by decide))

theorem saveString_plain (plain : ∀ b ∈ s, isPlain b = true) : saveString s = .string s := by
  have nulFree : NulFree s := fun zero => absurd (plain 0 zero) (by decide)
  rw [saveString, cString_of_nulFree s nulFree]

theorem saveString_clean (clean : Clean s) : saveString s = .string s := by
  have nulFree : NulFree s := fun zero => absurd (clean 0 zero).1 (by decide)
  rw [saveString, cString_of_nulFree s nulFree]

theorem yields_taskParams (platform : Platform) (r : TaskResource) (tasktype : ∀ b ∈ r.tasktype, isPlain b = true)
    (read : readJson clientToken t = some p) :
    Yields clientToken (taskParamsText platform r t) (r.taskParams p) := by
  have opens := opens_brace.next (readsMember_keyed "tasktype" (yields_plain clientToken tasktype)
    (clean_lit _ (by decide)))
  have parameters := opens.next (readsMember_keyed "taskparameters" (yields_iff_readJson.mpr read)
    (clean_lit _ (by decide)))
  have all := parameters.close (r.reads_sceneParams platform)
  simpa [taskParamsText, sceneText, taskParams, saveString_plain tasktype] using all

theorem yields_userinfo (r : TaskResource) (direct : Direct r.userinfo_json) :
    Yields clientToken r.userinfo_json r.rUserInfo := by
  have read := r.parsed
  rw [parseJson, direct] at read
  exact yields_iff_readJson.mpr read

theorem yields_messageText (r : TaskResource) (faithful : r.Faithful)
    (known : clientToken (printDouble 16 stamp) = some v)
    (read : readJson clientToken t = some p) : Yields clientToken (r.messageText platform stamp t) (.object (
      [(lit "fnname", .string r.fnname), (lit "stamp", v), (lit "callerid", .string r.callerid),
        (lit "taskparams", r.taskParams p), (lit "userinfo", r.rUserInfo)] ++
      memberIf (r.slaverequestid ≠ []) "slaverequestid" (.string r.slaverequestid))) := by
  have callerid :=
    (r.opens_header known).next (readsMember_keyed "callerid" (yields_plain clientToken faithful.callerid)
    (clean_lit _ (by decide)))
  have opens := callerid.next (readsMember_keyed "taskparams"
    (r.yields_taskParams platform faithful.tasktype read) (clean_lit _ (by decide)))
  have userinfo := readsMember_keyed "userinfo" (r.yields_userinfo faithful.userinfo) (clean_lit _ (by decide))
  rw [messageText_eq, slaveText]
  by_cases empty : r.slaverequestid = []
  · have all := opens.close userinfo
    simpa [streamIf, memberIf, empty] using all
  · have all := (opens.next userinfo).close (readsMember_value "slaverequestid"
      (clean_lit _ (by decide)) faithful.slaverequestid)
    simpa [streamIf, memberIf, empty] using all

/-- The name of the stamp is none of the others'. -/
theorem stamp_apart : ∀ name ∈ ["fnname", "callerid", "taskparams", "userinfo", "slaverequestid"],
    lit name ≠ lit "stamp" := by
  decide +kernel

theorem exceptStamp_command (name caller params user : Json) (v : Json) (slave : Bool) (id : Json) :
    exceptStamp (.object
      ([(lit "fnname", name), (lit "stamp", v), (lit "callerid", caller), (lit "taskparams", params),
      (lit "userinfo", user)] ++ memberIf slave "slaverequestid" id)) =
    .object ([(lit "fnname", name), (lit "callerid", caller), (lit "taskparams", params),
      (lit "userinfo", user)] ++
      memberIf slave "slaverequestid" id) := by
  cases slave <;> simp [exceptStamp, memberIf, stamp_apart]

theorem agrees_of_faithful (r : TaskResource) (faithful : r.Faithful) (clock : IsStamp textStamp)
    (read : readJson clientToken t = some p) : Agrees platform r textStamp documentStamp t p := by
  obtain ⟨v, known⟩ := clock
  refine ⟨_, (r.yields_messageText faithful known read).readJson, ?_⟩
  rw [commandDocument, exceptStamp_command, exceptStamp_command, saveString_plain faithful.callerid,
    saveString_clean faithful.slaverequestid]

section

variable {token : Text → Option Json}

theorem run_key (clean : Clean (lit key)) (t : Text) :
    run (feed token) (.name before closable, stack) (keyed key t) =
    run (feed token) (.start false, .member before (lit key) :: stack) t := by
  have spaces : Spaces [32] := by simp [Spaces, isSpace]
  have opens : beforeName before closable stack (byte '"') = some (.string (some before) [] [], stack) := rfl
  have colon : feed token (.colon before (lit key), stack) (byte ':') =
      some (.start false, .member before (lit key) :: stack) := rfl
  rw [keyed, getJsonString, quoted, lit_colon, List.append_assoc, List.cons_append, List.cons_append,
    run_cons, feed_name,
    opens, Option.bind_some, List.append_assoc, run_append, unescapes_escapeQuote clean, Option.bind_some,
      List.cons_append, run_cons, feed_quote, Option.bind_some, List.nil_append, List.nil_append,
        closeString,
    List.cons_append, run_cons, colon, Option.bind_some, run_append, run_start_spaces spaces, Option.bind_some]

theorem read_from (opens : Opens token t members) (read : readJson token (t ++ u) = some d) :
    ∃ closable, (run (feed token) (.name members closable, []) u).bind (finish token) = some d := by
  obtain ⟨closable, opened⟩ := opens false []
  rw [readJson, run_append, opened, Option.bind_some] at read
  exact ⟨closable, read⟩

/-- A member whose string is streamed between quotes has what the string's reading ends with. -/
theorem content_of_read (clean : Clean (lit key)) (read : (run (feed token) (.name before closable, stack)
    (keyed key (quoted body) ++ tail)).bind (finish token) = some d) :
    ∃ x rest more, closes [] [] (body ++ byte '"' :: tail) = some (x, rest) ∧
      Fill stack (.object (before ++ (lit key, .string x) :: more)) d := by
  have text : keyed key (quoted body) ++ tail = keyed key (byte '"' :: (body ++ byte '"' :: tail)) := by
    simp [keyed, quoted]
  have opens : beforeValue false (.member before (lit key) :: stack) (byte '"') =
      some (.string none [] [], .member before (lit key) :: stack) := rfl
  rw [text, run_key clean, run_cons, feed_start, opens, Option.bind_some] at read
  obtain ⟨x, rest, closed, later⟩ := closes_of_read read
  obtain ⟨more, fills⟩ := leads_of_read later
  exact ⟨x, rest, more, closed, fills⟩

theorem quoting_plain : Quoting fun b => [b] := fun _ => .inl rfl

theorem quoting_escapeQuote : Quoting escapeQuote := by
  intro b
  unfold escapeQuote
  split
  · rename_i quote
    exact .inr ⟨quote, rfl⟩
  · exact .inl rfl

/-- A string without escapes that is read back, before one that starts after plain bytes. -/
theorem plain_of_closes (plain : ∀ b ∈ separator, isPlain b = true) (some : separator ≠ [])
    (closed : closes [] [] (s ++ byte '"' :: (separator ++ byte '"' :: tail)) = .some (cString s, rest)) :
    ∀ b ∈ s, isPlain b = true := by
  rw [← List.flatMap_singleton' s] at closed
  have nulFree : NulFree s := by
    apply nulFree_of_closes quoting_plain rfl
    rwa [List.flatMap_singleton' s] at closed ⊢
  rw [List.flatMap_singleton', cString_of_nulFree s nulFree] at closed
  have ends : ∀ front x rest, closes (front ++ [byte '"']) [] (separator ++ byte '"' :: tail) = .some (x, rest) →
      x.getLast? ≠ .some (byte '\\') := fun front x rest later => plain_ends plain some later
  have text : closes [] [] (s.flatMap (fun b => [b]) ++ byte '"' :: (separator ++ byte '"' :: tail)) = .some
      ([] ++ s, rest) := by
    rwa [List.flatMap_singleton']
  have safe : ∀ b ∈ s, Safe (fun b => [b]) b := safe_of_closes quoting_plain ends text
  intro b inside
  obtain ⟨printable, backslash, quote⟩ := safe b inside
  have apart : b ≠ byte '"' := fun same => quote same rfl
  simp [isPlain, printable, apart, backslash]

/-- A string with escaped quotes that is read back as the last one of the text. -/
theorem clean_of_closes
    (closed : closes [] [] (s.flatMap escapeQuote ++ byte '"' :: [byte '}']) = some (cString s, rest)) :
    Clean s := by
  have nulFree := nulFree_of_closes quoting_escapeQuote rfl closed
  rw [cString_of_nulFree s nulFree] at closed
  have safe : ∀ b ∈ s, Safe escapeQuote b := by
    refine safe_of_closes quoting_escapeQuote (fun front x rest later => ?_)
      (show closes [] [] _ = some ([] ++ s, rest) from closed)
    have brace : stringByte (front ++ [byte '"']) [] (byte '}') =
        some (front ++ [byte '"'] ++ [byte '}'], []) := rfl
    rw [closes, if_neg (by decide), brace, Option.bind_some] at later
    simp [closes] at later
  exact fun b inside => ⟨(safe b inside).1, (safe b inside).2.1⟩

/-- A text that is accepted for its own sake and stands in the document as it is. -/
theorem direct_of_read (parsed : parseJson t = some w) (read : (run (feed clientToken) (.start false, stack)
    (t ++ tail)).bind (finish clientToken) = some d) : Direct t := by
  have mark : ∀ b ∈ [(0xEF : Byte), 0xBB, 0xBF], t.head? ≠ some b := by
    intro b listed first
    obtain ⟨rest, rfl⟩ := List.head?_eq_some_iff.mp first
    have refused : beforeValue false stack b = none := by
      fin_cases listed <;> rfl
    rw [List.cons_append, run_cons, feed_start, refused] at read
    simp at read
  have whole : skipByte 0xBF (skipByte 0xBB (skipByte 0xEF t)) = t := by
    rw [skipByte, skipByte, skipByte, if_neg (mark 0xEF (by simp)), if_neg (mark 0xBB (by simp)),
      if_neg (mark 0xBF (by simp))]
  rw [Direct, whole]
  rw [parseJson, whole] at parsed
  by_contra cut
  obtain ⟨rest, split⟩ := cString_zero cut
  have zero : afterValue w stack 0 = none := by
    cases stack with
    | nil => rfl
    | cons frame _ => cases frame <;> rfl
  rw [split, List.append_assoc, List.cons_append, run_value (yields_iff_readJson.mpr parsed) (by decide),
    zero] at read
  simp at read

end

/-- The value of the first member after the stamp. -/
theorem caller_of_same {stamp : Json} (same : exceptStamp (.object ([(lit "fnname", name), (lit "stamp", stamp)] ++
    (lit "callerid", c) :: more)) = .object
      ([(lit "fnname", name'), (lit "callerid", c'), (lit "taskparams", params),
      (lit "userinfo", user)] ++ others)) : c = c' := by
  have fnname := stamp_apart "fnname" (by simp)
  have callerid := stamp_apart "callerid" (by simp)
  simp [exceptStamp, fnname, callerid] at same
  exact same.2.1

theorem params_of_same {stamp : Json} (same : exceptStamp (.object ([(lit "fnname", name), (lit "stamp", stamp),
    (lit "callerid", c)] ++ (lit "taskparams", p) :: more)) = .object
      ([(lit "fnname", name'), (lit "callerid", c'),
      (lit "taskparams", p'), (lit "userinfo", user)] ++ others)) : p = p' := by
  simp [exceptStamp, stamp_apart] at same
  exact same.2.2.1

theorem slave_of_same {stamp id id' : Json}
    (same : exceptStamp (.object ([(lit "fnname", name), (lit "stamp", stamp),
    (lit "callerid", c), (lit "taskparams", p), (lit "userinfo", u)] ++ (lit "slaverequestid", id) :: more)) =
    .object ([(lit "fnname", name'), (lit "callerid", c'), (lit "taskparams", p'), (lit "userinfo", u')] ++
      memberIf true "slaverequestid" id')) : id = id' := by
  simp [exceptStamp, memberIf, stamp_apart] at same
  exact same.2.2.2.2.1

theorem lit_comma_plain : ∀ b ∈ lit ", ", isPlain b = true := by decide +kernel

variable {r : TaskResource} {stamp : Double} {v d p : Json} {t : Text}

/-- What follows a member is a comma and the quote of the next name. -/
theorem keyed_quote (key : String) (value : Text) : ∃ rest, keyed key value = byte '"' :: rest :=
  ⟨_, rfl⟩

theorem plain_callerid (known : clientToken (printDouble 16 stamp) = some v)
    (parsed : readJson clientToken (r.messageText platform stamp t) = some d)
    (same : exceptStamp d = exceptStamp (r.commandDocument documentStamp p)) :
    ∀ b ∈ r.callerid, isPlain b = true := by
  rw [messageText_eq] at parsed
  obtain ⟨closable, rest⟩ := read_from (r.opens_header known) parsed
  obtain ⟨more, next⟩ := keyed_quote "taskparams" (taskParamsText platform r t)
  rw [next, List.append_assoc] at rest
  obtain ⟨x, left, others, closed, rfl⟩ := content_of_read (clean_lit _ (by decide)) rest
  rw [commandDocument, exceptStamp_command] at same
  obtain rfl := Json.string.inj (caller_of_same same)
  rw [List.append_assoc, List.cons_append] at closed
  exact plain_of_closes lit_comma_plain (by simp [lit_comma]) closed

theorem opens_callerid (known : clientToken (printDouble 16 stamp) = some v)
    (callerid : ∀ b ∈ r.callerid, isPlain b = true) :
    Opens clientToken (r.headerText stamp ++ (keyed "callerid" (quoted r.callerid) ++ lit ", "))
      [(lit "fnname", .string r.fnname), (lit "stamp", v), (lit "callerid", .string r.callerid)] :=
  (r.opens_header known).next
    (readsMember_keyed "callerid" (yields_plain clientToken callerid) (clean_lit _ (by decide)))

theorem plain_tasktype (known : clientToken (printDouble 16 stamp) = some v)
    (callerid : ∀ b ∈ r.callerid, isPlain b = true)
    (parsed : readJson clientToken (r.messageText platform stamp t) = some d)
    (same : exceptStamp d = exceptStamp (r.commandDocument documentStamp p)) :
    ∀ b ∈ r.tasktype, isPlain b = true := by
  rw [messageText_eq, ← List.append_assoc] at parsed
  obtain ⟨closable, rest⟩ := read_from (opens_callerid known callerid) parsed
  obtain ⟨more, next⟩ := keyed_quote "taskparameters" t
  have text : keyed "taskparams" (taskParamsText platform r t) ++ lit ", " ++
      (keyed "userinfo" r.userinfo_json ++ r.slaveText) =
      keyed "taskparams" ([byte '{'] ++ (keyed "tasktype" (quoted r.tasktype) ++ (lit ", " ++ byte '"' :: (more ++
        (lit ", " ++ keyed "sceneparams" (r.sceneparams_json platform) ++ [byte '}'] ++ lit ", " ++
          (keyed "userinfo" r.userinfo_json ++ r.slaveText)))))) := by
    simp only [taskParamsText, sceneText, next]
    simp [keyed]
  rw [text, run_key (clean_lit _ (by decide)), run_append] at rest
  have brace : Opens clientToken [byte '{'] [] := opens_brace
  obtain ⟨first, opened⟩ := brace false [.member _ (lit "taskparams")]
  rw [opened, Option.bind_some] at rest
  obtain ⟨x, left, others, closed, later, rfl⟩ := content_of_read (clean_lit _ (by decide)) rest
  rw [commandDocument, exceptStamp_command] at same
  have params := params_of_same same
  simp only [taskParams, saveString, List.nil_append, Json.object.injEq, List.cons.injEq, Prod.mk.injEq,
    true_and] at params
  obtain rfl := Json.string.inj params.1
  exact plain_of_closes lit_comma_plain (by simp [lit_comma]) closed

theorem opens_taskParams (platform : Platform) (known : clientToken (printDouble 16 stamp) = some v)
    (callerid : ∀ b ∈ r.callerid, isPlain b = true) (tasktype : ∀ b ∈ r.tasktype, isPlain b = true)
    (read : readJson clientToken t = some p) : Opens clientToken (r.headerText stamp ++
      (keyed "callerid" (quoted r.callerid) ++ lit ", ") ++
        (keyed "taskparams" (taskParamsText platform r t) ++ lit ", "))
      [(lit "fnname", .string r.fnname), (lit "stamp", v), (lit "callerid", .string r.callerid),
        (lit "taskparams", r.taskParams p)] :=
  (opens_callerid known callerid).next (readsMember_keyed "taskparams" (r.yields_taskParams platform tasktype read)
    (clean_lit _ (by decide)))

theorem clean_slaverequestid {text : Text} {stamp : Json}
    (opens : Opens clientToken text [(lit "fnname", name), (lit "stamp", stamp), (lit "callerid", c),
      (lit "taskparams", params), (lit "userinfo", user)])
    (parsed : readJson clientToken
      (text ++ (getJsonStringValue "slaverequestid" r.slaverequestid ++ [byte '}'])) = some d)
    (some : r.slaverequestid ≠ [])
    (same : exceptStamp d = exceptStamp (r.commandDocument documentStamp p)) : Clean r.slaverequestid := by
  obtain ⟨closable, rest⟩ := read_from opens parsed
  obtain ⟨x, left, others, closed, rfl⟩ := content_of_read (clean_lit _ (by decide)) rest
  have present : decide (r.slaverequestid ≠ []) = true := by simpa using some
  rw [commandDocument, exceptStamp_command, present] at same
  obtain rfl := Json.string.inj (slave_of_same same)
  exact clean_of_closes closed

theorem faithful_of_agrees (clock : IsStamp textStamp) (read : readJson clientToken t = some p)
    (agrees : Agrees platform r textStamp documentStamp t p) : r.Faithful := by
  obtain ⟨v, known⟩ := clock
  obtain ⟨d, parsed, same⟩ := agrees
  have callerid := plain_callerid known parsed same
  have tasktype := plain_tasktype known callerid parsed same
  have opens := opens_taskParams platform known callerid tasktype read
  rw [messageText_eq, ← List.append_assoc, ← List.append_assoc] at parsed
  obtain ⟨closable, rest⟩ := read_from opens parsed
  have userinfoText : keyed "userinfo" r.userinfo_json ++ r.slaveText = keyed "userinfo"
      (r.userinfo_json ++ r.slaveText) := by
    simp [keyed]
  rw [userinfoText, run_key (clean_lit _ (by decide))] at rest
  have direct := direct_of_read r.parsed rest
  refine ⟨callerid, tasktype, ?_, direct⟩
  by_cases empty : r.slaverequestid = []
  · simp [empty, Clean]
  · have userinfo := opens.next (readsMember_keyed "userinfo" (r.yields_userinfo direct) (clean_lit _ (by decide)))
    refine clean_slaverequestid userinfo ?_ empty same
    simpa [slaveText, streamIf, empty] using parsed

/-- The overloads agree on every well-formed text exactly where the stored strings need no
escapes beyond those for the quotes of the slave request id. -/
theorem executeCommand_agrees_iff (platform : Platform) (r : TaskResource) (documentStamp : Double)
    (clock : IsStamp textStamp) (read : readJson clientToken t = some p) :
    Agrees platform r textStamp documentStamp t p ↔ r.Faithful :=
  ⟨faithful_of_agrees clock read, fun faithful => r.agrees_of_faithful faithful clock read⟩

def ofNames (tasktype callerid : Text) : TaskResource where
  tasktype := tasktype
  callerid := callerid
  slaverequestid := []
  mediaRoot := lit "/var/www/media/u"
  userName := lit "mujin"
  scenebasename := lit "cell.mujin.dae"
  userinfo_json := lit "\x7b\x7d"
  rUserInfo := .object []
  parsed := by decide +kernel

theorem executeCommand_agrees_iff_plain :
    Agrees default (ofNames (lit "binpicking") (lit "client1")) (Double.ofInt 5) (Double.ofInt 6) (lit "[]")
    (.array []) ↔
      (ofNames (lit "binpicking") (lit "client1")).Faithful :=
  executeCommand_agrees_iff _ _ _ ⟨.int ⟨5, by decide⟩, by decide +kernel⟩ (by decide +kernel)

/-- A quote in the caller id ends its string early. -/
theorem quotedCaller_disagrees :
    ¬∀ (platform : Platform) (r : TaskResource) (documentStamp textStamp : Double) (t : Text)
    (p : Json), IsStamp textStamp → readJson clientToken t = some p →
      Agrees platform r textStamp documentStamp t p := by
  intro all
  have agrees :=
    all default (ofNames (lit "binpicking") (lit "cell \"A\"")) (Double.ofInt 5) (Double.ofInt 5) (lit "[]")
      (.array [])
    ⟨.int ⟨5, by decide⟩, by decide +kernel⟩ (by decide +kernel)
  obtain ⟨d, parsed, -⟩ := agrees
  have unreadable : readJson clientToken ((ofNames (lit "binpicking") (lit "cell \"A\"")).messageText default
      (Double.ofInt 5) (lit "[]")) = none := by decide +kernel
  simp [unreadable] at parsed

end TaskResource
end MujinClient
