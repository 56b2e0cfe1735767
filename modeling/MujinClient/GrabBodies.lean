import MujinClient.Grabs
import MujinClient.RequestBodies

/-! What the lists of grabs that are PUT are read as. Every grab of a release is followed by a comma,
the last one too, and the strings stand between their quotes as they are. -/
namespace MujinClient

open Transition

def grabPuts (grabs : List Grab) (grab : Grab) : List Text :=
  if grab ∈ grabs then [] else [grabBody grabs grab]

theorem removeBehind_length (value : Grab) (rest : List Grab) :
    (removeBehind value rest).length ≤ rest.length := by
  induction rest with
  | nil => exact le_rfl
  | cons g rest ih =>
    have kept := List.length_filter_le (fun x => decide (x ≠ g)) rest
    rw [removeBehind]
    split
    · simp only [List.length_cons]
      omega
    · simp only [List.length_cons]
      omega

theorem eraseGrab_length {grabs : List Grab} (found : igrab < grabs.length) (value : Grab) :
    (eraseGrab grabs igrab value).length < grabs.length := by
  have behind := removeBehind_length value (grabs.drop (igrab + 1))
  rw [List.length_drop] at behind
  rw [eraseGrab, List.length_append, List.length_take]
  omega

/-- The loop of `ReleaseObject` from an index on. A PUT that does not succeed throws out of it. -/
def releasePuts (succeeds : Nat → Bool) (grab : Grab) (grabs : List Grab) (igrab : Nat) : List Text :=
  if found : igrab < grabs.length then
    if grabs[igrab] = grab then
      let left := eraseGrab grabs igrab grab
      releaseBody left igrab :: if succeeds igrab then releasePuts succeeds grab left (igrab + 1) else []
    else releasePuts succeeds grab grabs (igrab + 1)
  else []
termination_by grabs.length - igrab
decreasing_by
  · have shorter := eraseGrab_length found grab
    omega
  · omega

def stringMember? (members : Json.Members) (name : String) : Option Text :=
  match Json.findMember members (lit name) with
  | some (.string t) => some t
  | _ => none

namespace Grab

def decode : Json → Option Grab
  | .object members => do
    let instobjectpk ← stringMember? members "instobjectpk"
    let grabbed_linkpk ← stringMember? members "grabbed_linkpk"
    let grabbing_linkpk ← stringMember? members "grabbing_linkpk"
    some ⟨instobjectpk, grabbed_linkpk, grabbing_linkpk⟩
  | _ => none

def IsPlain (g : Grab) : Prop := Plain g.instobjectpk ∧ Plain g.grabbed_linkpk ∧ Plain g.grabbing_linkpk

instance : DecidablePred IsPlain :=
  fun g => inferInstanceAs (Decidable (Plain g.instobjectpk ∧ Plain g.grabbed_linkpk ∧ Plain g.grabbing_linkpk))

def json (g : Grab) : Json :=
  .object [(lit "instobjectpk", .string g.instobjectpk), (lit "grabbed_linkpk", .string g.grabbed_linkpk),
    (lit "grabbing_linkpk", .string g.grabbing_linkpk)]

end Grab

def decodeGrabs (body : Text) : Option (List Grab) :=
  match readJson standardToken body with
  | some (.object members) =>
    match Json.findMember members (lit "grabs") with
    | some (.array elements) => elements.mapM Grab.decode
    | _ => none
  | _ => none

/-- Every body of a grab lists the cached grabs and the new one. -/
def GrabsList (grabs : List Grab) (grab : Grab) : Prop :=
  ∀ body ∈ grabPuts grabs grab, decodeGrabs body = some (grabs ++ [grab])

/-- Every body of a release lists the other grabs, and there is one exactly for a grab in the list. -/
def ReleasesList (succeeds : Nat → Bool) (grabs : List Grab) (grab : Grab) : Prop :=
  (∀ body ∈ releasePuts succeeds grab grabs 0, decodeGrabs body = some (grabs.filter (· ≠ grab))) ∧
    ((releasePuts succeeds grab grabs 0).length = 1 ↔ grab ∈ grabs)

section Trailing

variable {token : Text → Option Json}

/-- Without a quote a string does not end. -/
theorem run_inside (t : Text) (unquoted : ∀ b ∈ t, b ≠ byte '"') (names : Option Json.Members)
    (seen pending : Text) (stack : List Frame) :
    (run (feed token) (.string names seen pending, stack) t).bind (finish token) = none := by
  induction t generalizing seen pending with
  | nil => rfl
  | cons b rest ih =>
    have other : ¬(pending = [] ∧ b = byte '"') := fun both => unquoted b List.mem_cons_self both.2
    rw [run_cons, feed_inside other]
    cases stringByte seen pending b with
    | none => rfl
    | some parts => exact ih (fun c member => unquoted c (List.mem_cons_of_mem _ member)) parts.1 parts.2

/-- Behind the comma after a member value, nothing but a value or a name is accepted. -/
theorem comma_refused (v : Json) (stack : List Frame) (b : Byte) (rest : Text)
    (punctuation : b = byte ',' ∨ b = byte ']') :
    run (feed token) (.done v, stack) (byte '}' :: byte ',' :: 32 :: b :: rest) = none := by
  have noValue (stack : List Frame) : beforeValue false stack b = none := by
    rcases punctuation with rfl | rfl <;> rfl
  have noName (members : Json.Members) (stack : List Frame) : beforeName members false stack b = none := by
    rcases punctuation with rfl | rfl <;> rfl
  cases stack with
  | nil => rfl
  | cons frame stack =>
    cases frame with
    | element before => rfl
    | member before name =>
      cases stack with
      | nil => rfl
      | cons outer stack =>
        cases outer with
        | element elements =>
          have space : run (feed token) (.done v, .member before name :: .element elements :: stack)
              [byte '}', byte ',', 32] =
            some (.start false, .element (elements ++ [.object (before ++ [(name, v)])]) :: stack) := rfl
          rw [show byte '}' :: byte ',' :: 32 :: b :: rest = [byte '}', byte ',', 32] ++ b :: rest from rfl,
            run_append, space,
            Option.bind_some, run_cons, feed_start, noValue]
          rfl
        | member members key =>
          have space : run (feed token) (.done v, .member before name :: .member members key :: stack)
              [byte '}', byte ',', 32] =
            some (.name (members ++ [(key, .object (before ++ [(name, v)]))]) false, stack) := rfl
          rw [show byte '}' :: byte ',' :: 32 :: b :: rest = [byte '}', byte ',', 32] ++ b :: rest from rfl,
            run_append, space,
            Option.bind_some, run_cons, feed_name, noName]
          rfl

/-- Wherever the quote stands, the comma behind it is followed by no value. -/
theorem trailing_refused (p : Position) (b : Byte) (rest : Text) (punctuation : b = byte ',' ∨ b = byte ']')
    (unquoted : ∀ c ∈ rest, c ≠ byte '"') :
    (run (feed token) p (byte '"' :: byte '}' :: byte ',' :: 32 :: b :: rest)).bind (finish token) = none := by
  have inside (names : Option Json.Members) (seen pending : Text) (stack : List Frame) :
      (run (feed token) (.string names seen pending, stack) (byte '}' :: byte ',' :: 32 :: b :: rest)).bind
        (finish token) = none := by
    refine run_inside _ ?_ names seen pending stack
    simp only [List.forall_mem_cons]
    refine ⟨by decide, by decide, by decide, ?_, unquoted⟩
    rcases punctuation with rfl | rfl <;> decide
  have noQuote (v : Json) (stack : List Frame) : afterValue v stack (byte '"') = none := by
    cases stack with
    | nil => rfl
    | cons frame stack => cases frame <;> rfl
  obtain ⟨mode, stack⟩ := p
  rw [run_cons]
  cases mode with
  | start closable => exact inside none [] [] stack
  | name before closable => exact inside (some before) [] [] stack
  | token seen =>
    rw [feed_token_end (by decide)]
    cases token seen with
    | none => rfl
    | some v => rw [Option.bind_some, noQuote]; rfl
  | colon before name => rfl
  | done v =>
    rw [show feed token (.done v, stack) (byte '"') = afterValue v stack (byte '"') from rfl, noQuote]; rfl
  | string names seen pending =>
    by_cases closes : pending = []
    · subst closes
      rw [feed_quote, Option.bind_some]
      cases names with
      | none => rw [closeString, comma_refused _ _ b rest punctuation]; rfl
      | some before => rfl
    · rw [feed_inside fun both => closes both.1]
      cases stringByte seen pending (byte '"') with
      | none => rfl
      | some parts => exact inside names parts.1 parts.2 stack

end Trailing

theorem serialize_ends (g : Grab) : ∃ front, g.serialize = front ++ [byte '"', byte '}'] := by
  have spelled : lit "\"\x7d" = [byte '"', byte '}'] := lit_ofList ['"', '}']
  unfold Grab.serialize
  rw [spelled]
  exact ⟨_, rfl⟩

theorem serializeEach_append (grabs others : List Grab) :
    serializeEach (grabs ++ others) = serializeEach grabs ++ serializeEach others := by
  simp [serializeEach]

theorem releaseBody_refused (token : Text → Option Json) {left : List Grab} (some : left ≠ []) (igrab : Nat) :
    readJson token (releaseBody left igrab) = none := by
  obtain ⟨kept, last, rfl⟩ := (List.eq_nil_or_concat' left).resolve_left some
  obtain ⟨inside, ends⟩ := serialize_ends last
  have comma : lit ", " = [byte ',', 32] := lit_ofList [',', ' ']
  have closing : lit "]\x7d" = [byte ']', byte '}'] := lit_ofList [']', '}']
  have each : serializeEach (kept ++ [last]) = serializeEach kept ++ inside ++
      [byte '"', byte '}', byte ',', 32] := by
    rw [serializeEach_append]
    simp [serializeEach, ends, comma]
  have spaced : ∀ c ∈ [32, byte ']', byte '}'], c ≠ byte '"' := by
    simp only [List.forall_mem_cons, List.not_mem_nil, IsEmpty.forall_iff, implies_true, and_true]
    exact ⟨by decide, by decide, by decide⟩
  have body : ∃ front b rest, releaseBody (kept ++ [last]) igrab = front ++
      byte '"' :: byte '}' :: byte ',' :: 32 :: b :: rest ∧
      (b = byte ',' ∨ b = byte ']') ∧ ∀ c ∈ rest, c ≠ byte '"' := by
    unfold releaseBody
    rw [if_pos (by simp), each, comma, closing]
    generalize lit "\x7b\"grabs\":" ++ lit "[" = opening
    split
    · exact ⟨opening ++ (serializeEach kept ++ inside), byte ',', [32, byte ']', byte '}'],
        by simp only [List.append_assoc, List.cons_append, List.nil_append], .inl rfl, spaced⟩
    · exact ⟨opening ++ (serializeEach kept ++ inside), byte ']', [byte '}'],
        by simp only [List.append_assoc, List.cons_append, List.nil_append], .inr rfl,
          List.forall_mem_singleton.mpr (by decide)⟩
  obtain ⟨front, b, rest, shape, punctuation, unquoted⟩ := body
  rw [readJson, shape, run_append]
  cases ran : run (feed token) (.start false, []) front with
  | none => rfl
  | some p => exact trailing_refused p b rest punctuation unquoted

theorem releasePuts_absent (succeeds : Nat → Bool) (grab : Grab) (grabs : List Grab) (igrab : Nat)
    (absent : grab ∉ grabs.drop igrab) :
    releasePuts succeeds grab grabs igrab = [] := by
  induction remaining : grabs.length - igrab generalizing igrab with
  | zero =>
    rw [releasePuts, dif_neg (by omega)]
  | succ n ih =>
    have found : igrab < grabs.length := by omega
    rw [List.drop_eq_getElem_cons found, List.mem_cons, not_or] at absent
    rw [releasePuts, dif_pos found, if_neg (Ne.symm absent.1)]
    exact ih (igrab + 1) absent.2 (by omega)

/-- The first PUT of a release is made where the grab stands first. -/
theorem releasePuts_first (succeeds : Nat → Bool) (grab : Grab) (grabs : List Grab) (igrab : Nat)
    (member : grab ∈ grabs.drop igrab) :
    ∃ i, ∃ found : i < grabs.length, grabs[i] = grab ∧
      (releasePuts succeeds grab grabs igrab).head? = some (releaseBody (eraseGrab grabs i grab) i) := by
  induction remaining : grabs.length - igrab generalizing igrab with
  | zero => rw [List.drop_eq_nil_of_le (by omega)] at member; simp at member
  | succ n ih =>
    have found : igrab < grabs.length := by omega
    by_cases here : grabs[igrab] = grab
    · refine ⟨igrab, found, here, ?_⟩
      rw [releasePuts, dif_pos found, if_pos here]
      rfl
    · rw [List.drop_eq_getElem_cons found] at member
      rw [releasePuts, dif_pos found, if_neg here]
      exact ih (igrab + 1) ((List.mem_cons.mp member).resolve_left (Ne.symm here)) (by omega)

/-- A session PUTs the same bodies, one at a time. -/
theorem releaseFrom_put (succeeds : Nat → Bool) (s : GrabSession) (idle : s.pending = none) (grab : Grab)
    (igrab : Nat) :
    (s.releaseFrom grab igrab).pending.map GrabPut.body = (releasePuts succeeds grab s.grabs igrab).head? := by
  induction remaining : s.grabs.length - igrab generalizing igrab with
  | zero =>
    have nothing : s.grabs.drop igrab = [] := List.drop_eq_nil_of_le (by omega)
    rw [releasePuts, dif_neg (by omega)]
    simp [GrabSession.releaseFrom, nothing, idle]
  | succ n ih =>
    have found : igrab < s.grabs.length := by omega
    have later := ih (igrab + 1) (by omega)
    rw [releasePuts, dif_pos found]
    unfold GrabSession.releaseFrom at later ⊢
    rw [List.drop_eq_getElem_cons found, List.findIdx?_cons]
    by_cases here : s.grabs[igrab] = grab
    · simp [here]
    · rw [if_neg here, ← later]
      cases (s.grabs.drop (igrab + 1)).findIdx? (fun g => decide (g = grab)) with
      | none => simp [here]
      | some i => simp [here, Nat.add_assoc, Nat.add_comm 1]

theorem removeBehind_kept {rest : List Grab} (other : ∃ g ∈ rest, g ≠ value) : removeBehind value rest ≠ [] := by
  induction rest with
  | nil => simp at other
  | cons g rest ih =>
    rw [removeBehind]
    split
    · rename_i same
      refine ih ?_
      obtain ⟨x, member, apart⟩ := other
      exact ⟨x, (List.mem_cons.mp member).resolve_left fun first => apart (first.trans same), apart⟩
    · simp

theorem removeBehind_all {rest : List Grab} (all : ∀ g ∈ rest, g = value) : removeBehind value rest = [] := by
  induction rest with
  | nil => rfl
  | cons g rest ih =>
    rw [removeBehind, if_pos (all g List.mem_cons_self)]
    exact ih fun x member => all x (List.mem_cons_of_mem _ member)

/-- The others are not erased with the grab. -/
theorem eraseGrab_kept {grabs : List Grab} (found : i < grabs.length) (here : grabs[i] = grab)
    (other : ∃ g ∈ grabs, g ≠ grab) : eraseGrab grabs i grab ≠ [] := by
  obtain ⟨g, member, apart⟩ := other
  have split : grabs = grabs.take i ++ grabs[i] :: grabs.drop (i + 1) := by simp
  rw [split] at member
  intro none
  obtain ⟨front, behind⟩ := List.append_eq_nil_iff.mp none
  rcases List.mem_append.mp member with inside | inside
  · simp [front] at inside
  · rcases List.mem_cons.mp inside with same | inside
    · exact apart (same.trans here)
    · exact removeBehind_kept ⟨g, inside, apart⟩ behind

theorem decodeGrabs_released (igrab : Nat) : decodeGrabs (releaseBody [] igrab) = some [] := by
  have body : releaseBody [] igrab = lit "\x7b\"grabs\":[]\x7d" := rfl
  have read : readJson standardToken (lit "\x7b\"grabs\":[]\x7d") =
      some (.object [(lit "grabs", .array [])]) := rfl
  rw [decodeGrabs, body, read]
  rfl

/-- A list of one grab, however often it is in it, is emptied with one PUT. -/
theorem releasePuts_all (succeeds : Nat → Bool) {grabs : List Grab} (member : grab ∈ grabs)
    (all : ∀ g ∈ grabs, g = grab) :
    releasePuts succeeds grab grabs 0 = [releaseBody [] 0] := by
  cases grabs with
  | nil => simp at member
  | cons first rest =>
    obtain ⟨same, later⟩ := List.forall_mem_cons.mp all
    have left : eraseGrab (first :: rest) 0 grab = [] := by
      rw [eraseGrab, List.take_zero, List.nil_append]
      exact removeBehind_all later
    have here : (first :: rest)[0] = grab := same
    have found : 0 < (first :: rest).length := Nat.zero_lt_succ _
    rw [releasePuts, dif_pos found, if_pos here, left]
    dsimp only
    rw [releasePuts_absent succeeds grab [] (0 + 1) (by simp), ite_self]

theorem releasesList_iff (succeeds : Nat → Bool) (grabs : List Grab) (grab : Grab) :
    ReleasesList succeeds grabs grab ↔ grab ∉ grabs ∨ ∀ g ∈ grabs, g = grab := by
  by_cases member : grab ∈ grabs
  · by_cases all : ∀ g ∈ grabs, g = grab
    · refine iff_of_true ?_ (.inr all)
      have none : grabs.filter (· ≠ grab) = [] := List.filter_eq_nil_iff.mpr fun g inside => by simp [all g inside]
      rw [ReleasesList, releasePuts_all succeeds member all, none]
      refine ⟨fun body inside => ?_, by simp [member]⟩
      rw [List.mem_singleton.mp inside]
      exact decodeGrabs_released 0
    · have other : ∃ g ∈ grabs, g ≠ grab := by simpa using all
      obtain ⟨i, found, here, first⟩ := releasePuts_first succeeds grab grabs 0 member
      refine iff_of_false (fun lists => ?_) (not_or.mpr ⟨not_not.mpr member, all⟩)
      have decoded := lists.1 _ (List.mem_of_head? first)
      rw [decodeGrabs, releaseBody_refused standardToken (eraseGrab_kept found here other)] at decoded
      cases decoded
  · refine iff_of_true ?_ (.inl member)
    have none := releasePuts_absent succeeds grab grabs 0 member
    exact ⟨by simp [none], by simp [none, member]⟩

section Each

variable {token : Text → Option Json}

/-- The member with this name is the one that is read first, so that its string has to be plain. -/
theorem Reads.named {tail : Text}
    (reads : Reads token (.name before closable, stack) (templateMember key gap (quoted s) ++ tail) d)
    (plain : Plain (lit key)) (guarded : Guarded tail) (fills : Fill stack (.object members) d)
    (given : Json.findMember members (lit key) = some (.string s)) (earlier : lit key ∉ Json.names before) :
    Plain s ∧ ∃ more, members = before ++ (lit key, .string s) :: more := by
  rw [templateMember, List.append_assoc] at reads
  have value := reads.after (run_templateMember plain gap)
  obtain ⟨w, more, placed⟩ : ∃ w, Fill (.member before (lit key) :: stack) w d := value.leads
  obtain rfl : members = before ++ (lit key, w) :: more := Json.object.inj (fill_inj fills placed)
  rw [Json.findMember_append, Json.findMember_eq_none_iff.mpr earlier, Option.none_or,
    Json.findMember_cons_same] at given
  obtain rfl := Option.some.inj given
  have filled : Fill (.member before (lit key) :: stack) (.string s) d := ⟨more, placed⟩
  exact ⟨(exact_quoted token s).needs _ tail d guarded filled value, more, rfl⟩

/-- The members of a grab, one after the other. -/
theorem serialize_eq (g : Grab) :
    g.serialize = byte '{' :: (templateMember "instobjectpk" 1 (quoted g.instobjectpk) ++
    (byte ',' :: blanks 1 ++
    (templateMember "grabbed_linkpk" 1 (quoted g.grabbed_linkpk) ++ (byte ',' :: blanks 2 ++
      (templateMember "grabbing_linkpk" 1 (quoted g.grabbing_linkpk) ++ [byte '}']))))) := by
  have first : lit "\x7b\"instobjectpk\": \"" =
      byte '{' :: (quoted (lit "instobjectpk") ++ byte ':' :: blanks 1) ++ [byte '"'] := rfl
  have second : lit "\", \"grabbed_linkpk\": \"" =
    byte '"' :: byte ',' :: blanks 1 ++ (quoted (lit "grabbed_linkpk") ++ byte ':' :: blanks 1) ++
      [byte '"'] := rfl
  have third : lit "\",  \"grabbing_linkpk\": \"" =
    byte '"' :: byte ',' :: blanks 2 ++ (quoted (lit "grabbing_linkpk") ++ byte ':' :: blanks 1) ++
      [byte '"'] := rfl
  have last : lit "\"\x7d" = [byte '"', byte '}'] := rfl
  rw [Grab.serialize, first, second, third, last]
  unfold templateMember
  generalize quoted (lit "instobjectpk") ++ byte ':' :: blanks 1 = firstName
  generalize quoted (lit "grabbed_linkpk") ++ byte ':' :: blanks 1 = secondName
  generalize quoted (lit "grabbing_linkpk") ++ byte ':' :: blanks 1 = thirdName
  unfold quoted
  simp only [List.append_assoc, List.cons_append, List.nil_append]

/-- Behind a plain string and a comma the next name is read. -/
theorem Reads.behind {tail : Text} (reads : Reads token (.name before closable, stack)
      (templateMember key gap (quoted s) ++ (byte ',' :: blanks n ++ tail)) d) (known : Plain (lit key))
        (plain : Plain s) :
    Reads token (.name (before ++ [(lit key, .string s)]) false, stack) tail d := by
  have member : ReadsMember token (templateMember key gap (quoted s)) (lit key) (.string s) :=
    (exact_named token key s known gap).reads plain
  have ran : run (feed token) (.name before closable, stack)
      (templateMember key gap (quoted s) ++ byte ',' :: blanks n) =
      some (.name (before ++ [(lit key, .string s)]) false, stack) := by
    rw [run_member member (by decide), afterValue_comma_member, Option.bind_some,
      run_name_spaces (spaces_blanks n)]
  rw [← List.append_assoc] at reads
  exact reads.after ran

theorem guarded_next (n : Nat) (key : String) (gap : Nat) (value tail : Text) :
    Guarded (byte ',' :: blanks n ++ (templateMember key gap value ++ tail)) := by
  have plain : Plain (byte ',' :: blanks n) := plain_cons.mpr ⟨rfl, plain_blanks n⟩
  exact Guarded.append (guarded_quote _) plain

theorem stringMember?_eq_some :
    stringMember? members name = some t ↔ Json.findMember members (lit name) = some (.string t) := by
  unfold stringMember?
  split
  · rename_i found
    simp [found]
  · rename_i other
    simpa using other t

theorem decode_object (decodes : Grab.decode v = some g) : ∃ members, v = .object members ∧
    Json.findMember members (lit "instobjectpk") = some (.string g.instobjectpk) ∧
    Json.findMember members (lit "grabbed_linkpk") = some (.string g.grabbed_linkpk) ∧
    Json.findMember members (lit "grabbing_linkpk") = some (.string g.grabbing_linkpk) := by
  cases v with
  | object members =>
    refine ⟨members, rfl, ?_⟩
    simp only [Grab.decode, Option.bind_eq_bind, Option.bind_eq_some_iff, stringMember?_eq_some] at decodes
    obtain ⟨instobjectpk, first, grabbed_linkpk, second, grabbing_linkpk, third, same⟩ := decodes
    obtain rfl := Option.some.inj same
    exact ⟨first, second, third⟩
  | _ => simp [Grab.decode] at decodes

/-- A grab is read as itself only if its identifiers are plain. -/
theorem plain_of_decode {g : Grab} {tail : Text}
    (reads : Reads token (.start closable, stack) (g.serialize ++ tail) d) (guarded : Guarded tail)
    (fills : Fill stack v d) (decodes : Grab.decode v = some g) : g.IsPlain := by
  obtain ⟨members, rfl, first, second, third⟩ := decode_object decodes
  have opens : run (feed token) (.start closable, stack) [byte '{'] = some (.name [] true, stack) := rfl
  have one : Plain (lit "instobjectpk") := plain_lit _ (by decide)
  have two : Plain (lit "grabbed_linkpk") := plain_lit _ (by decide)
  have three : Plain (lit "grabbing_linkpk") := plain_lit _ (by decide)
  have secondApart : lit "grabbed_linkpk" ≠ lit "instobjectpk" := by decide
  have thirdApart : lit "grabbing_linkpk" ≠ lit "instobjectpk" ∧
      lit "grabbing_linkpk" ≠ lit "grabbed_linkpk" := by decide
  rw [serialize_eq, ← List.singleton_append] at reads
  simp only [List.append_assoc] at reads
  have names := reads.after opens
  obtain ⟨plainFirst, -⟩ := names.named one (guarded_next _ _ _ _ _) fills first (by simp [Json.names])
  have names := names.behind one plainFirst
  obtain ⟨plainSecond, -⟩ :=
    names.named two (guarded_next _ _ _ _ _) fills second (by simpa [Json.names] using secondApart)
  have names := names.behind two plainSecond
  have closing : Guarded ([byte '}'] ++ tail) := guarded.append (plain_cons.mpr ⟨rfl, plain_nil⟩)
  obtain ⟨plainThird, -⟩ := names.named three closing fills third (by simpa [Json.names] using thirdApart)
  exact ⟨plainFirst, plainSecond, plainThird⟩

theorem yields_grab {g : Grab} (plain : g.IsPlain) : Yields token g.serialize g.json := by
  obtain ⟨first, second, third⟩ := plain
  have template := (exact_named token "instobjectpk" g.instobjectpk (plain_lit _ (by decide)) 1).first 0 1
    |>.next (exact_named token "grabbed_linkpk" g.grabbed_linkpk (plain_lit _ (by decide)) 1) 2
    |>.close (exact_named token "grabbing_linkpk" g.grabbing_linkpk (plain_lit _ (by decide)) 1) 0
  have yields := template.yields ⟨⟨first, second⟩, third⟩
  rw [serialize_eq, Grab.json]
  simpa only [blanks, List.replicate_zero, List.nil_append, List.append_assoc, List.cons_append] using yields

/-- The cached grabs are read one by one, each with the comma behind it. -/
theorem run_grab {g : Grab} (plain : g.IsPlain) :
    run (feed token) (.start closable, .element before :: stack) (g.serialize ++ lit ", ") =
    some (.start false, .element (before ++ [g.json]) :: stack) := by
  have comma : lit ", " = [byte ',', 32] := lit_ofList [',', ' ']
  rw [comma, run_value (yields_grab plain) (by decide), afterValue_comma_element, Option.bind_some]
  rfl

theorem run_serializeEach {grabs : List Grab} (plain : ∀ g ∈ grabs, g.IsPlain) (before : List Json)
    (closable : Bool) :
    ∃ closable', run (feed token) (.start closable, .element before :: stack) (serializeEach grabs) =
      some (.start closable', .element (before ++ grabs.map Grab.json) :: stack) := by
  induction grabs generalizing before closable with
  | nil => exact ⟨closable, by simp [serializeEach]⟩
  | cons g grabs ih =>
    obtain ⟨first, later⟩ := List.forall_mem_cons.mp plain
    obtain ⟨closable', ran⟩ := ih later (before ++ [g.json]) false
    refine ⟨closable', ?_⟩
    have each : serializeEach (g :: grabs) = g.serialize ++ lit ", " ++ serializeEach grabs := rfl
    rw [each, run_append, run_grab first, Option.bind_some, ran]
    simp

theorem guarded_serialize (g : Grab) (tail : Text) : Guarded (lit ", " ++ (g.serialize ++ tail)) := by
  have comma : lit ", " = [byte ',', 32] := lit_ofList [',', ' ']
  have plain : Plain [byte ',', 32, byte '{'] :=
    plain_cons.mpr ⟨rfl, plain_cons.mpr ⟨rfl, plain_cons.mpr ⟨rfl, plain_nil⟩⟩⟩
  rw [serialize_eq, comma]
  exact Guarded.append (s := [byte ',', 32, byte '{']) (guarded_quote _) plain

theorem decodes_cons {elements : List Json} (decodes : elements.mapM Grab.decode = some (g :: grabs)) :
    ∃ v rest, elements = v :: rest ∧ Grab.decode v = some g ∧ rest.mapM Grab.decode = some grabs := by
  cases elements with
  | nil => simp at decodes
  | cons v rest =>
    simp only [List.mapM_cons, Option.bind_eq_bind, Option.bind_eq_some_iff] at decodes
    obtain ⟨first, found, others, later, same⟩ := decodes
    obtain ⟨rfl, rfl⟩ := List.cons.inj (Option.some.inj same)
    exact ⟨v, rest, rfl, found, later⟩

/-- The elements are the grabs of the list only if all their identifiers are plain. -/
theorem plain_of_each {grabs : List Grab} {last : Grab} {tail : Text}
    (reads : Reads token (.start closable, .element before :: stack)
      (serializeEach grabs ++ (last.serialize ++ tail)) d)
    (guarded : Guarded tail) (fills : Fill stack (.array (before ++ elements)) d)
    (decodes : elements.mapM Grab.decode = some (grabs ++ [last])) : ∀ g ∈ grabs ++ [last], g.IsPlain := by
  induction grabs generalizing before elements closable with
  | nil =>
    obtain ⟨v, rest, rfl, found, -⟩ := decodes_cons decodes
    have filled : Fill (.element before :: stack) v d := ⟨rest, fills⟩
    have plain := plain_of_decode reads guarded filled found
    simpa using plain
  | cons g grabs ih =>
    obtain ⟨v, rest, rfl, found, later⟩ := decodes_cons decodes
    have each : serializeEach (g :: grabs) ++ (last.serialize ++ tail) =
        g.serialize ++ (lit ", " ++ (serializeEach grabs ++ (last.serialize ++ tail))) := by
      rw [serializeEach, List.flatMap_cons, ← serializeEach]
      simp only [List.append_assoc]
    have comma : Guarded (lit ", " ++ (serializeEach grabs ++ (last.serialize ++ tail))) := by
      cases grabs with
      | nil => exact guarded_serialize last tail
      | cons next grabs =>
        have more := guarded_serialize next (lit ", " ++ (serializeEach grabs ++ (last.serialize ++ tail)))
        rw [serializeEach, List.flatMap_cons, ← serializeEach]
        simpa only [List.append_assoc] using more
    rw [each] at reads
    have filled : Fill (.element before :: stack) v d := ⟨rest, fills⟩
    have plain : g.IsPlain := plain_of_decode reads comma filled found
    rw [← List.append_assoc] at reads
    have behind := reads.after (run_grab plain)
    obtain ⟨w, more, placed⟩ : ∃ w, Fill (.element (before ++ [g.json]) :: stack) w d := behind.leads
    have same := Json.array.inj (fill_inj fills placed)
    rw [List.append_assoc] at same
    obtain ⟨rfl, -⟩ := List.cons.inj (List.append_cancel_left same)
    have others := ih behind (by simpa using fills) later
    simpa using ⟨plain, by simpa using others⟩

theorem grabBody_eq (grabs : List Grab) (grab : Grab) : grabBody grabs grab =
    byte '{' :: (quoted (lit "grabs") ++ byte ':' :: blanks 0) ++
      (byte '[' :: (serializeEach grabs ++ (grab.serialize ++ [byte ']', byte '}']))) := by
  have opening : lit "\x7b\"grabs\":" ++
      lit "[" = byte '{' :: (quoted (lit "grabs") ++ byte ':' :: blanks 0) ++ [byte '['] := rfl
  have closing : lit "]\x7d" = [byte ']', byte '}'] := lit_ofList [']', '}']
  rw [grabBody, opening, closing]
  generalize byte '{' :: (quoted (lit "grabs") ++ byte ':' :: blanks 0) = opens
  simp only [List.append_assoc, List.cons_append, List.nil_append]

theorem run_opening :
    run (feed token) (.start false, []) (byte '{' :: (quoted (lit "grabs") ++ byte ':' :: blanks 0)) =
    some (.start false, [.member [] (lit "grabs")]) := by
  have opens : beforeValue false [] (byte '{') = some (.name [] true, []) := rfl
  have known : Plain (lit "grabs") := plain_lit _ (by decide)
  rw [run_cons, feed_start, opens, Option.bind_some, run_templateMember known]

theorem decodeGrabs_eq_some {body : Text} : decodeGrabs body = some grabs ↔ ∃ members elements,
    readJson standardToken body = some (.object members) ∧
      Json.findMember members (lit "grabs") = some (.array elements) ∧
      elements.mapM Grab.decode = some grabs := by
  unfold decodeGrabs
  constructor
  · intro decoded
    split at decoded
    · rename_i members read
      split at decoded
      · rename_i elements found
        exact ⟨members, elements, read, found, decoded⟩
      · cases decoded
    · cases decoded
  · rintro ⟨members, elements, read, found, decoded⟩
    rw [read]
    dsimp only
    rw [found]
    exact decoded

theorem decode_json (g : Grab) : Grab.decode g.json = some g := by
  have secondApart : lit "instobjectpk" ≠ lit "grabbed_linkpk" := by decide
  have thirdApart : lit "instobjectpk" ≠ lit "grabbing_linkpk" ∧
      lit "grabbed_linkpk" ≠ lit "grabbing_linkpk" := by decide
  simp [Grab.decode, Grab.json, stringMember?, Json.findMember, secondApart, thirdApart]

theorem mapM_decode (grabs : List Grab) : (grabs.map Grab.json).mapM Grab.decode = some grabs := by
  induction grabs with
  | nil => rfl
  | cons g grabs ih => rw [List.map_cons, List.mapM_cons, decode_json, ih]; rfl

theorem readJson_grabBody {grabs : List Grab} {grab : Grab} (plain : ∀ g ∈ grabs ++ [grab], g.IsPlain) :
    readJson token (grabBody grabs grab) =
      some (.object [(lit "grabs", .array ((grabs ++ [grab]).map Grab.json))]) := by
  have cached : ∀ g ∈ grabs, g.IsPlain := fun g member => plain g (List.mem_append_left _ member)
  obtain ⟨closable, ran⟩ : ∃ closable',
      run (feed token) (.start true, [.element [], .member [] (lit "grabs")]) (serializeEach grabs) =
    some (.start closable', [.element ([] ++ grabs.map Grab.json), .member [] (lit "grabs")]) :=
      run_serializeEach cached [] true
  have opens : beforeValue false [.member [] (lit "grabs")] (byte '[') =
      some (.start true, [.element [], .member [] (lit "grabs")]) := rfl
  rw [readJson, grabBody_eq, run_append, run_opening, Option.bind_some, run_cons, feed_start, opens,
    Option.bind_some, run_append, ran,
    Option.bind_some, run_value (yields_grab (plain grab (by simp))) (by decide), afterValue_close_element,
      Option.bind_some]
  simp [run_cons, feed, afterValue_close_member]
  rfl

theorem decodeGrabs_grabBody_iff (grabs : List Grab) (grab : Grab) :
    decodeGrabs (grabBody grabs grab) = some (grabs ++ [grab]) ↔ ∀ g ∈ grabs ++ [grab], g.IsPlain := by
  rw [decodeGrabs_eq_some]
  constructor
  · rintro ⟨members, elements, read, found, decoded⟩
    have whole := readJson_eq_some.mp read
    rw [grabBody_eq] at whole
    have value := whole.after run_opening
    obtain ⟨w, more, placed⟩ : ∃ w, Fill [.member [] (lit "grabs")] w (.object members) := value.leads
    obtain rfl : members = (lit "grabs", w) :: more := Json.object.inj placed
    rw [Json.findMember_cons_same] at found
    obtain rfl := Option.some.inj found
    have opens : run (feed standardToken) (.start false, [.member [] (lit "grabs")]) [byte '['] =
      some (.start true, [.element [], .member [] (lit "grabs")]) := rfl
    have inner : Reads standardToken (.start true, [.element [], .member [] (lit "grabs")])
      (serializeEach grabs ++ (grab.serialize ++ [byte ']', byte '}']))
        (.object ((lit "grabs", .array elements) :: more)) := Reads.after (t := [byte '[']) value opens
    have closing : Guarded [byte ']', byte '}'] := by
      have plain : Plain [byte ']', byte '}'] := plain_cons.mpr ⟨rfl, plain_cons.mpr ⟨rfl, plain_nil⟩⟩
      exact Guarded.append guarded_nil plain
    have filled : Fill [.member [] (lit "grabs")] (.array ([] ++ elements))
        (.object ((lit "grabs", .array elements) :: more)) := ⟨more, rfl⟩
    exact plain_of_each inner closing filled decoded
  · intro plain
    exact ⟨_, _, readJson_grabBody plain, Json.findMember_cons_same, mapM_decode _⟩

end Each

theorem grabsList_iff (grabs : List Grab) (grab : Grab) :
    GrabsList grabs grab ↔ grab ∈ grabs ∨ ∀ g ∈ grabs ++ [grab], g.IsPlain := by
  rw [← decodeGrabs_grabBody_iff, GrabsList, grabPuts]
  split
  · rename_i cached
    simp [cached]
  · rename_i absent
    simp [absent]

/-- The new list is what a body says, for a grab of plain identifiers only; of a release only where
the body is empty. -/
theorem grabsList_releasesList_iff (succeeds : Nat → Bool) (grabs : List Grab) (grab : Grab) :
    (GrabsList grabs grab ↔ grab ∈ grabs ∨ ∀ g ∈ grabs ++ [grab], g.IsPlain) ∧
      (ReleasesList succeeds grabs grab ↔ grab ∉ grabs ∨ ∀ g ∈ grabs, g = grab) :=
  ⟨grabsList_iff grabs grab, releasesList_iff succeeds grabs grab⟩

/-- The one that is left is PUT with a comma behind it. -/
theorem first_of_two_released :
    ¬ReleasesList (fun _ => true)
      [⟨lit "1", lit "a", lit "b"⟩, ⟨lit "2", lit "a", lit "b"⟩] ⟨lit "1", lit "a", lit "b"⟩ := by
  rw [releasesList_iff]
  decide

end MujinClient
