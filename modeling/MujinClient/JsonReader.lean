import MujinClient.Json
import MujinClient.LoadScalar
import MujinClient.Transition

/-! Reading a JSON text byte by byte. The reader's whole position is its state, so the
reading of a text put together from parts is the readings of the parts in turn. -/
namespace MujinClient

open Transition

structure Decimal where
  negative : Bool
  whole : Text
  fraction : Option Text
  exponent : Option Int

def Decimal.integer (d : Decimal) : Int :=
  if d.negative then -digitsValue d.whole else digitsValue d.whole

def Decimal.double (d : Decimal) : Double :=
  let fraction := d.fraction.getD []
  Double.ofDecimal d.negative (digitsValue (d.whole ++ fraction)) (d.exponent.getD 0 - fraction.length)

/-- Integers that fit in 64 bits are kept exactly. -/
def Decimal.value (d : Decimal) : Json :=
  if d.fraction.isNone && d.exponent.isNone then
    if range : -2 ^ 63 ≤ d.integer ∧ d.integer < 2 ^ 64 then .int ⟨d.integer, range⟩ else .double d.double
  else .double d.double

def exponent? : Text → Option (Option Int)
  | [] => some none
  | b :: rest =>
    if b = byte 'e' ∨ b = byte 'E' then
      (decimal? rest).map fun (negative, magnitude) => some (if negative then -magnitude else magnitude)
    else none

def fraction? : Text → Option (Option Text × Option Int)
  | [] => some (none, none)
  | b :: rest =>
    if b = byte '.' then
      if rest.takeWhile isDigit = [] then none
      else (exponent? (rest.dropWhile isDigit)).map (some (rest.takeWhile isDigit), ·)
    else (exponent? (b :: rest)).map (none, ·)

/-- The whole part has no leading zeros. -/
def unsigned? (negative : Bool) (t : Text) : Option Decimal :=
  let whole := t.takeWhile isDigit
  if whole = [] ∨ (whole.head? = some (digit 0) ∧ whole.length ≠ 1) then none
  else (fraction? (t.dropWhile isDigit)).map fun (fraction, exponent) => ⟨negative, whole, fraction, exponent⟩

def number? : Text → Option Decimal
  | [] => none
  | b :: rest => if b = byte '-' then unsigned? true rest else unsigned? false (b :: rest)

def keyword? (t : Text) : Option Json :=
  if t = lit "null" then some .null
  else if t = lit "true" then some (.bool true)
  else if t = lit "false" then some (.bool false)
  else none

/-- The tokens of the JSON standard. -/
def standardToken (t : Text) : Option Json := (keyword? t).or ((number? t).map Decimal.value)

def unsignedNonFinite? (negative : Bool) (t : Text) : Option Json :=
  if t = lit "NaN" then some (.double .nan)
  else if t = lit "Inf" ∨ t = lit "Infinity" then some (.double (.infinite negative))
  else none

def nonFinite? : Text → Option Json
  | [] => none
  | b :: rest => if b = byte '-' then unsignedNonFinite? true rest else unsignedNonFinite? false (b :: rest)

/-- The tokens `ParseJson` accepts: `kParseNanAndInfFlag` adds three spellings, and a
number beyond the doubles is an error. -/
def clientToken (t : Text) : Option Json :=
  (nonFinite? t).or ((standardToken t).filter fun v => v ≠ .double (.infinite true) ∧
    v ≠ .double (.infinite false))

def isSpace (b : Byte) : Bool := b = 32 || b = 9 || b = 10 || b = 13

def hexValue? (b : Byte) : Option Nat :=
  if isDigit b then some (b.val - 48)
  else if 65 ≤ b.val ∧ b.val ≤ 70 then some (b.val - 55)
  else if 97 ≤ b.val ∧ b.val ≤ 102 then some (b.val - 87)
  else none

/-- A UTF-16 code unit from four hexadecimal digits. -/
def codeUnit? (digits : Text) : Option Nat :=
  (digits.mapM hexValue?).map fun ds => ds.foldl (fun value d => 16 * value + d) 0

def utf8 (code : Nat) : Text :=
  (if code < 0x80 then [code]
  else if code < 0x800 then [0xC0 + code / 0x40, 0x80 + code % 0x40]
  else if code < 0x10000 then [0xE0 + code / 0x1000, 0x80 + code / 0x40 % 0x40, 0x80 + code % 0x40]
  else [0xF0 + code / 0x40000, 0x80 + code / 0x1000 % 0x40, 0x80 + code / 0x40 % 0x40,
    0x80 + code % 0x40]).map (Fin.ofNat 256)

inductive Escape where
  | more
  | bytes (t : Text)
  | bad

def simpleEscape (b : Byte) : Escape :=
  if b = byte '"' ∨ b = byte '\\' ∨ b = byte '/' then .bytes [b]
  else if b = byte 'b' then .bytes [8]
  else if b = byte 'f' then .bytes [12]
  else if b = byte 'n' then .bytes [10]
  else if b = byte 'r' then .bytes [13]
  else if b = byte 't' then .bytes [9]
  else .bad

/-- What follows `\u`: four digits, and for a high surrogate the low one after it. -/
def unicodeEscape (digits : Text) : Escape :=
  match codeUnit? (digits.take 4) with
  | none => .bad
  | some unit =>
    if digits.length < 4 then .more
    else if unit < 0xD800 ∨ 0xDFFF < unit then .bytes (utf8 unit)
    else if 0xDBFF < unit ∨ ¬digits.drop 4 <+: lit "\\u" ∧ ¬lit "\\u" <+: digits.drop 4 then .bad
    else match codeUnit? (digits.drop 6) with
      | none => .bad
      | some low =>
        if digits.length < 10 then .more
        else if low < 0xDC00 ∨ 0xDFFF < low then .bad
        else .bytes (utf8 (0x10000 + (unit - 0xD800) * 0x400 + (low - 0xDC00)))

/-- An escape sequence from its backslash on. -/
def escape : Text → Escape
  | [] | [_] => .more
  | [_, b] => if b = byte 'u' then .more else simpleEscape b
  | _ :: _ :: digits => unicodeEscape digits

/-- One byte inside a string: what is read so far and the escape sequence that is open. -/
def stringByte (seen pending : Text) (b : Byte) : Option (Text × Text) :=
  if pending = [] then
    if b = byte '\\' then some (seen, [b])
    else if b.val < 32 then none
    else some (seen ++ [b], [])
  else match escape (pending ++ [b]) with
    | .more => some (seen, pending ++ [b])
    | .bytes t => some (seen ++ t, [])
    | .bad => none

/-- An unfinished array or object around the value that is read. -/
inductive Frame where
  | element (before : List Json)
  | member (before : Json.Members) (name : Text)

inductive Mode where
  /-- Before a value; a bracket may close the array if nothing is in it. -/
  | start (closable : Bool)
  | token (seen : Text)
  /-- Inside a value, or inside a member name if `names` has the members before it. -/
  | string (names : Option Json.Members) (seen pending : Text)
  | name (before : Json.Members) (closable : Bool)
  | colon (before : Json.Members) (name : Text)
  | done (v : Json)

abbrev Position := Mode × List Frame

def isTokenByte (b : Byte) : Bool :=
  isDigit b || (65 ≤ b.val && b.val ≤ 90) || (97 ≤ b.val && b.val ≤ 122) ||
    b = byte '+' || b = byte '-' || b = byte '.'

/-- The byte after a complete value. -/
def afterValue (v : Json) (stack : List Frame) (b : Byte) : Option Position :=
  if isSpace b then some (.done v, stack)
  else match stack with
    | [] => none
    | .element before :: rest =>
      if b = byte ',' then some (.start false, .element (before ++ [v]) :: rest)
      else if b = byte ']' then some (.done (.array (before ++ [v])), rest)
      else none
    | .member before name :: rest =>
      if b = byte ',' then some (.name (before ++ [(name, v)]) false, rest)
      else if b = byte '}' then some (.done (.object (before ++ [(name, v)])), rest)
      else none

def beforeValue (closable : Bool) (stack : List Frame) (b : Byte) : Option Position :=
  if isSpace b then some (.start closable, stack)
  else if b = byte '"' then some (.string none [] [], stack)
  else if b = byte '[' then some (.start true, .element [] :: stack)
  else if b = byte '{' then some (.name [] true, stack)
  else if isTokenByte b then some (.token [b], stack)
  else match closable, stack with
    | true, .element [] :: rest => if b = byte ']' then some (.done (.array []), rest) else none
    | _, _ => none

def beforeName (before : Json.Members) (closable : Bool) (stack : List Frame) (b : Byte) : Option Position :=
  if isSpace b then some (.name before closable, stack)
  else if b = byte '"' then some (.string (some before) [] [], stack)
  else if b = byte '}' ∧ closable = true then some (.done (.object before), stack)
  else none

def closeString (names : Option Json.Members) (seen : Text) : Mode :=
  match names with
  | none => .done (.string seen)
  | some before => .colon before seen

/-- One byte of the text. `token` gives the values of bare tokens. -/
def feed (token : Text → Option Json) : Position → Byte → Option Position
  | (.start closable, stack), b => beforeValue closable stack b
  | (.token seen, stack), b =>
    if isTokenByte b then some (.token (seen ++ [b]), stack)
    else (token seen).bind fun v => afterValue v stack b
  | (.string names seen pending, stack), b =>
    if pending = [] ∧ b = byte '"' then some (closeString names seen, stack)
    else (stringByte seen pending b).map fun (seen, pending) => (.string names seen pending, stack)
  | (.name before closable, stack), b => beforeName before closable stack b
  | (.colon before name, stack), b =>
    if isSpace b then some (.colon before name, stack)
    else if b = byte ':' then some (.start false, .member before name :: stack)
    else none
  | (.done v, stack), b => afterValue v stack b

def finish (token : Text → Option Json) : Position → Option Json
  | (.done v, []) => some v
  | (.token seen, []) => token seen
  | _ => none

def readJson (token : Text → Option Json) (t : Text) : Option Json :=
  (run (feed token) (.start false, []) t).bind (finish token)

def skipByte (b : Byte) (t : Text) : Text := if t.head? = some b then t.tail else t

/-- `ParseJson`: its stream skips the bytes of a byte order mark and ends at a zero byte. -/
def parseJson (t : Text) : Option Json :=
  readJson clientToken (cString (skipByte 0xBF (skipByte 0xBB (skipByte 0xEF t))))

example : readJson standardToken (lit "\x7b\"a\": [1, -2.5e1, \"x\\u00e9\\n\"], \"b\":\x7b\x7d\x7d") =
    some (.object [(lit "a", .array [.int ⟨1, by decide⟩, .double (Double.ofInt (-25)),
      .string (byte 'x' :: 0xC3 :: 0xA9 :: 10 :: [])]), (lit "b", .object [])]) := by
  decide +kernel

variable {token : Text → Option Json}

@[simp] theorem feed_start : feed token (.start closable, stack) b = beforeValue closable stack b := rfl
@[simp] theorem feed_name :
    feed token (.name before closable, stack) b = beforeName before closable stack b := rfl
@[simp] theorem feed_done : feed token (.done v, stack) b = afterValue v stack b := rfl

theorem feed_token_byte (more : isTokenByte b = true) :
    feed token (.token seen, stack) b = some (.token (seen ++ [b]), stack) := by
  simp [feed, more]

theorem feed_token_end (ends : isTokenByte b = false) :
    feed token (.token seen, stack) b = (token seen).bind fun v => afterValue v stack b := by
  simp [feed, ends]

theorem feed_quote :
    feed token (.string names seen [], stack) (byte '"') = some (closeString names seen, stack) := by
  simp [feed]

theorem feed_inside (inside : ¬(pending = [] ∧ b = byte '"')) :
    feed token (.string names seen pending, stack) b =
      (stringByte seen pending b).map fun (seen, pending) => (.string names seen pending, stack) := by
  simp only [feed, if_neg inside]

/-- The same position with more unfinished values around it. -/
def under (around : List Frame) (p : Position) : Position := (p.1, p.2 ++ around)

theorem afterValue_under (around : List Frame) (taken : afterValue v stack b = some next) :
    afterValue v (stack ++ around) b = some (under around next) := by
  rcases stack with _ | ⟨frame, rest⟩
  · by_cases space : isSpace b = true
    · simp only [afterValue, space, ↓reduceIte, Option.some.injEq] at taken ⊢
      exact taken ▸ rfl
    · simp [afterValue, space] at taken
  · cases frame <;> simp only [afterValue, List.cons_append] at taken ⊢ <;> repeat' split at taken
    all_goals simp_all [under]
    all_goals subst next; simp

theorem beforeValue_under (around : List Frame) (taken : beforeValue closable stack b = some next) :
    beforeValue closable (stack ++ around) b = some (under around next) := by
  unfold beforeValue at taken ⊢
  repeat' split at taken
  all_goals simp_all [under]
  all_goals subst next; simp

theorem feed_under (around : List Frame) (taken : feed token p b = some next) :
    feed token (under around p) b = some (under around next) := by
  obtain ⟨mode, stack⟩ := p
  cases mode with
  | start closable => exact beforeValue_under around taken
  | token seen =>
    cases more : isTokenByte b with
    | true =>
      rw [feed_token_byte more, Option.some.injEq] at taken
      exact taken ▸ feed_token_byte more
    | false =>
      rw [feed_token_end more] at taken
      obtain ⟨v, known, taken⟩ := Option.bind_eq_some_iff.mp taken
      rw [under, feed_token_end more, known]
      exact afterValue_under around taken
  | string names seen pending =>
    by_cases closes : pending = [] ∧ b = byte '"'
    · obtain ⟨rfl, rfl⟩ := closes
      rw [feed_quote, Option.some.injEq] at taken
      exact taken ▸ feed_quote
    · rw [feed_inside closes] at taken
      obtain ⟨parts, known, rfl⟩ := Option.map_eq_some_iff.mp taken
      rw [under, feed_inside closes, known]
      rfl
  | name before closable =>
    simp only [feed, under, beforeName] at taken ⊢
    repeat' split at taken
    all_goals simp_all
    all_goals subst next; simp
  | colon before name =>
    simp only [feed, under] at taken ⊢
    repeat' split at taken
    all_goals simp_all
    all_goals subst next; simp
  | done v => exact afterValue_under around taken

theorem run_under (around : List Frame) (t : Text) (ran : run (feed token) p t = some final) :
    run (feed token) (under around p) t = some (under around final) := by
  induction t generalizing p with
  | nil =>
    obtain rfl := Option.some.inj ran
    rfl
  | cons b rest ih =>
    obtain ⟨next, taken, ran⟩ := Option.bind_eq_some_iff.mp ran
    rw [run_cons, feed_under around taken]
    exact ih ran

/-- `v` has been read. A bare token stays open until the byte after it. -/
def Complete (token : Text → Option Json) (v : Json) (stack : List Frame) (p : Position) : Prop :=
  p = (.done v, stack) ∨ ∃ seen, p = (.token seen, stack) ∧ token seen = some v

/-- Wherever a value may start, reading `t` reads `v`. -/
def Yields (token : Text → Option Json) (t : Text) (v : Json) : Prop :=
  ∀ closable stack, ∃ p, run (feed token) (.start closable, stack) t = some p ∧ Complete token v stack p

theorem Complete.next (complete : Complete token v stack p) (ends : isTokenByte b = false) :
    feed token p b = afterValue v stack b := by
  rcases complete with rfl | ⟨seen, rfl, known⟩
  · rfl
  · rw [feed_token_end ends, known, Option.bind_some]

theorem Complete.finish (complete : Complete token v [] p) : finish token p = some v := by
  rcases complete with rfl | ⟨seen, rfl, known⟩
  · rfl
  · exact known

theorem complete_of_finish (read : finish token p = some v) : Complete token v [] p := by
  obtain ⟨mode, _ | ⟨frame, stack⟩⟩ := p
  · cases mode with
    | token seen => exact .inr ⟨seen, rfl, read⟩
    | done w =>
      obtain rfl := Option.some.inj read
      exact .inl rfl
    | _ => simp [MujinClient.finish] at read
  · cases mode <;> simp [MujinClient.finish] at read

theorem Complete.under (complete : Complete token v stack p) (around : List Frame) :
    Complete token v (stack ++ around) (MujinClient.under around p) := by
  rcases complete with rfl | ⟨seen, rfl, known⟩
  · exact .inl rfl
  · exact .inr ⟨seen, rfl, known⟩

/-- A value may start wherever an array may also end. -/
theorem run_closable (ran : run (feed token) (.start false, stack) t = some p)
    (complete : Complete token v stack p) : run (feed token) (.start true, stack) t = some p := by
  induction t with
  | nil =>
    obtain rfl := Option.some.inj ran
    rcases complete with same | ⟨seen, same, -⟩ <;> simp at same
  | cons b rest ih =>
    rw [run_cons, feed_start] at ran ⊢
    by_cases space : isSpace b = true
    · simp only [beforeValue, space, ↓reduceIte, Option.bind_some] at ran ⊢
      exact ih ran
    · have alike : ∀ next, beforeValue false stack b = some next → beforeValue true stack b = some next := by
        intro next taken
        unfold beforeValue at taken ⊢
        repeat' split at taken
        all_goals simp_all
      obtain ⟨next, taken, ran⟩ := Option.bind_eq_some_iff.mp ran
      rw [alike next taken]
      exact ran

theorem yields_iff_readJson : Yields token t v ↔ readJson token t = some v := by
  constructor
  · intro yields
    obtain ⟨p, ran, complete⟩ := yields false []
    rw [readJson, ran, Option.bind_some, complete.finish]
  · intro read closable stack
    obtain ⟨p, ran, finished⟩ := Option.bind_eq_some_iff.mp read
    have complete := (complete_of_finish finished).under stack
    have inside := run_under stack t ran
    cases closable with
    | false => exact ⟨_, inside, complete⟩
    | true => exact ⟨_, run_closable inside complete, complete⟩

theorem Yields.readJson (yields : Yields token t v) : readJson token t = some v :=
  yields_iff_readJson.mp yields

theorem run_value (yields : Yields token t v) (ends : isTokenByte b = false) (rest : Text) :
    run (feed token) (.start closable, stack) (t ++ b :: rest) =
      (afterValue v stack b).bind fun p => run (feed token) p rest := by
  obtain ⟨p, ran, complete⟩ := yields closable stack
  rw [run_append, ran, Option.bind_some, run_cons, complete.next ends]

theorem readJson_comma (read : readJson token t = some v) (rest : Text) :
    readJson token (t ++ byte ',' :: rest) = none := by
  have past : afterValue v [] (byte ',') = none := rfl
  rw [readJson, run_value (yields_iff_readJson.mpr read) (by decide), past, Option.bind_none, Option.bind_none]

/-- Spaces stand before a value, before a name and around a colon. -/
def Spaces (t : Text) : Prop := ∀ b ∈ t, isSpace b = true

instance : DecidablePred Spaces := fun t => inferInstanceAs (Decidable (∀ b ∈ t, isSpace b = true))

theorem beforeValue_space (space : isSpace b = true) :
    beforeValue closable stack b = some (.start closable, stack) := by
  simp [beforeValue, space]

theorem afterValue_space (space : isSpace b = true) : afterValue v stack b = some (.done v, stack) := by
  simp [afterValue, space]

/-- A position that a space does not move. -/
theorem run_spaces (still : ∀ b, isSpace b = true → feed token p b = some p) (spaces : Spaces t) :
    run (feed token) p t = some p := by
  induction t with
  | nil => rfl
  | cons b rest ih =>
    rw [run_cons, still b (spaces b List.mem_cons_self)]
    exact ih fun c later => spaces c (List.mem_cons_of_mem _ later)

theorem run_start_spaces (spaces : Spaces t) :
    run (feed token) (.start closable, stack) t = some (.start closable, stack) :=
  run_spaces (fun _ space => beforeValue_space space) spaces

theorem run_name_spaces (spaces : Spaces t) :
    run (feed token) (.name before closable, stack) t = some (.name before closable, stack) :=
  run_spaces (fun _ space => by simp [beforeName, space]) spaces

theorem spaces_nil : Spaces [] := by simp [Spaces]

theorem run_token_bytes (all : ∀ b ∈ t, isTokenByte b = true) :
    run (feed token) (.token seen, stack) t = some (.token (seen ++ t), stack) := by
  induction t generalizing seen with
  | nil => simp
  | cons b rest ih =>
    rw [run_cons, feed_token_byte (all b List.mem_cons_self), Option.bind_some,
      ih fun c later => all c (List.mem_cons_of_mem _ later)]
    simp

theorem beforeValue_token (first : isTokenByte b = true) :
    beforeValue closable stack b = some (.token [b], stack) := by
  have apart : ∀ b : Byte, isTokenByte b = true →
      isSpace b = false ∧ b ≠ byte '"' ∧ b ≠ byte '[' ∧ b ≠ byte '{' := by
    decide +kernel
  obtain ⟨space, quote, bracket, brace⟩ := apart b first
  unfold beforeValue
  rw [if_neg (by simp [space]), if_neg quote, if_neg bracket, if_neg brace, if_pos first]

theorem yields_token (known : token t = some v) (some : t ≠ []) (all : ∀ b ∈ t, isTokenByte b = true) :
    Yields token t v := by
  intro closable stack
  cases t with
  | nil => contradiction
  | cons b rest =>
    refine ⟨(.token (b :: rest), stack), ?_, .inr ⟨_, rfl, known⟩⟩
    rw [run_cons, feed_start, beforeValue_token (all b List.mem_cons_self), Option.bind_some]
    exact run_token_bytes fun c later => all c (List.mem_cons_of_mem _ later)

/-- Inside a string, reading `body` adds the bytes `s`. -/
def Unescapes (token : Text → Option Json) (body s : Text) : Prop :=
  ∀ names seen stack, run (feed token) (.string names seen [], stack) body =
    some (.string names (seen ++ s) [], stack)

theorem unescapes_nil : Unescapes token [] [] := by
  simp [Unescapes]

theorem Unescapes.append (first : Unescapes token body s) (second : Unescapes token rest t) :
    Unescapes token (body ++ rest) (s ++ t) := by
  intro names seen stack
  rw [run_append, first, Option.bind_some, second, List.append_assoc]

/-- The bytes a string body stands for, if no quote ends it early. -/
def unescape (seen pending : Text) : Text → Option Text
  | [] => if pending = [] then some seen else none
  | b :: rest =>
    if pending = [] ∧ b = byte '"' then none
    else (stringByte seen pending b).bind fun (seen, pending) => unescape seen pending rest

theorem stringByte_append (front : Text) : stringByte (front ++ seen) pending b =
    (stringByte seen pending b).map fun (seen, pending) => (front ++ seen, pending) := by
  unfold stringByte
  split
  · split
    · rfl
    · split
      · rfl
      · simp
  · split
    · rfl
    · simp
    · rfl

theorem run_unescape (front : Text) (body : unescape seen pending t = some s) :
    run (feed token) (.string names (front ++ seen) pending, stack) t =
      some (.string names (front ++ s) [], stack) := by
  induction t generalizing seen pending with
  | nil =>
    obtain ⟨rfl, rfl⟩ : pending = [] ∧ seen = s := by simpa [unescape] using body
    rfl
  | cons b rest ih =>
    rw [unescape] at body
    by_cases closes : pending = [] ∧ b = byte '"'
    · simp [closes] at body
    · rw [if_neg closes] at body
      obtain ⟨⟨next, left⟩, known, body⟩ := Option.bind_eq_some_iff.mp body
      rw [run_cons, feed_inside closes, stringByte_append, known]
      exact ih body

theorem unescapes_of_unescape (body : unescape [] [] t = some s) : Unescapes token t s := by
  intro names seen stack
  simpa using run_unescape seen body

/-- A byte that stands for itself between quotes. -/
def isPlain (b : Byte) : Bool := 32 ≤ b.val && b ≠ byte '"' && b ≠ byte '\\'

theorem unescapes_plain (plain : isPlain b = true) : Unescapes token [b] [b] := by
  have itself : ∀ b, isPlain b = true → unescape [] [] [b] = some [b] := by
    decide +kernel
  exact unescapes_of_unescape (itself b plain)

theorem unescapes_flatMap {f : Byte → Text} (each : ∀ b ∈ s, Unescapes token (f b) [b]) :
    Unescapes token (s.flatMap f) s := by
  induction s with
  | nil => exact unescapes_nil
  | cons b rest ih =>
    exact (each b List.mem_cons_self).append (ih fun c later => each c (List.mem_cons_of_mem _ later))

def quoted (body : Text) : Text := byte '"' :: body ++ [byte '"']

theorem yields_string (unescapes : Unescapes token body s) : Yields token (quoted body) (.string s) := by
  intro closable stack
  refine ⟨(.done (.string s), stack), ?_, .inl rfl⟩
  have opens : beforeValue closable stack (byte '"') = some (.string none [] [], stack) := rfl
  rw [quoted, List.cons_append, run_cons, feed_start, opens, Option.bind_some, run_append, unescapes,
    Option.bind_some, run_cons, feed_quote]
  rfl

/-- The texts one after the other with `separator` between them. -/
def separated (separator : Text) : List Text → Text
  | [] => []
  | [t] => t
  | t :: u :: rest => t ++ separator ++ separated separator (u :: rest)

theorem afterValue_comma_element : afterValue v (.element before :: stack) (byte ',') =
    some (.start false, .element (before ++ [v]) :: stack) := rfl

theorem afterValue_close_element : afterValue v (.element before :: stack) (byte ']') =
    some (.done (.array (before ++ [v])), stack) := rfl

theorem afterValue_comma_member : afterValue v (.member before name :: stack) (byte ',') =
    some (.name (before ++ [(name, v)]) false, stack) := rfl

theorem afterValue_close_member : afterValue v (.member before name :: stack) (byte '}') =
    some (.done (.object (before ++ [(name, v)])), stack) := rfl

theorem forall₂_map {f : α → Text} {g : α → Json} (xs : List α) (each : ∀ x ∈ xs, Yields token (f x) (g x)) :
    List.Forall₂ (Yields token) (xs.map f) (xs.map g) := by
  rw [List.forall₂_map_left_iff, List.forall₂_map_right_iff]
  exact List.forall₂_same.mpr each

theorem run_elements (spaces : Spaces gap) (each : List.Forall₂ (Yields token) (t :: ts) (v :: vs)) :
    run (feed token) (.start closable, .element before :: stack)
      (separated (byte ',' :: gap) (t :: ts) ++ [byte ']']) =
      some (.done (.array (before ++ v :: vs)), stack) := by
  induction ts generalizing t v vs before closable with
  | nil =>
    obtain ⟨yields, rest⟩ := List.forall₂_cons.mp each
    obtain rfl := List.forall₂_nil_left_iff.mp rest
    rw [separated, run_value yields (by decide), afterValue_close_element]
    rfl
  | cons u us ih =>
    obtain ⟨yields, rest⟩ := List.forall₂_cons.mp each
    obtain ⟨w, ws, next, later, rfl⟩ := List.forall₂_cons_left_iff.mp rest
    rw [separated, List.append_assoc, List.append_assoc, List.cons_append, run_value yields (by decide),
      afterValue_comma_element, Option.bind_some, run_append, run_start_spaces spaces, Option.bind_some,
      ih (List.forall₂_cons.mpr ⟨next, later⟩)]
    simp

theorem yields_array (spaces : Spaces gap) (each : List.Forall₂ (Yields token) ts vs) :
    Yields token (byte '[' :: separated (byte ',' :: gap) ts ++ [byte ']']) (.array vs) := by
  intro closable stack
  refine ⟨(.done (.array vs), stack), ?_, .inl rfl⟩
  have opens : beforeValue closable stack (byte '[') = some (.start true, .element [] :: stack) := rfl
  rw [List.cons_append, run_cons, feed_start, opens, Option.bind_some]
  cases each with
  | nil => rfl
  | cons yields rest =>
    exact run_elements spaces (List.forall₂_cons.mpr ⟨yields, rest⟩)

/-- In an object, reading `t` reads a member up to the end of its value. -/
def ReadsMember (token : Text → Option Json) (t : Text) (name : Text) (v : Json) : Prop :=
  ∀ before closable stack, ∃ p, run (feed token) (.name before closable, stack) t = some p ∧
    Complete token v (.member before name :: stack) p

/-- Reading `t` opens an object and reads these members, each with the comma after it. -/
def Opens (token : Text → Option Json) (t : Text) (members : Json.Members) : Prop :=
  ∀ closable stack, ∃ closable', run (feed token) (.start closable, stack) t =
    some (.name members closable', stack)

theorem readsMember (unescapes : Unescapes token body name) (spaces : Spaces gap)
    (yields : Yields token t v) : ReadsMember token (quoted body ++ byte ':' :: gap ++ t) name v := by
  intro before closable stack
  obtain ⟨p, ran, complete⟩ := yields false (.member before name :: stack)
  refine ⟨p, ?_, complete⟩
  have opens : beforeName before closable stack (byte '\"') = some (.string (some before) [] [], stack) := rfl
  have colon : feed token (.colon before name, stack) (byte ':') =
      some (.start false, .member before name :: stack) := rfl
  rw [quoted, List.append_assoc, List.cons_append, List.cons_append, run_cons, feed_name, opens,
    Option.bind_some, List.append_assoc, run_append, unescapes, Option.bind_some, List.cons_append,
    run_cons, feed_quote, Option.bind_some, List.nil_append, List.nil_append]
  rw [closeString, List.cons_append, run_cons, colon, Option.bind_some, run_append,
    run_start_spaces spaces, Option.bind_some, ran]

/-- In an object, a byte after a whole member. -/
theorem run_member (member : ReadsMember token t name v) (ends : isTokenByte b = false) (rest : Text) :
    run (feed token) (.name before closable, stack) (t ++ b :: rest) =
      (afterValue v (.member before name :: stack) b).bind fun p => run (feed token) p rest := by
  obtain ⟨p, ran, complete⟩ := member before closable stack
  rw [run_append, ran, Option.bind_some, run_cons, complete.next ends]

theorem opens_brace : Opens token [byte '{'] [] :=
  fun _ _ => ⟨true, rfl⟩

theorem Opens.comma (opens : Opens token t members) (member : ReadsMember token u name v)
    (spaces : Spaces gap) : Opens token (t ++ u ++ byte ',' :: gap) (members ++ [(name, v)]) := by
  intro closable stack
  obtain ⟨c, opened⟩ := opens closable stack
  refine ⟨false, ?_⟩
  rw [List.append_assoc, run_append, opened, Option.bind_some, run_member member (by decide),
    afterValue_comma_member, Option.bind_some, run_name_spaces spaces]

theorem Opens.close (opens : Opens token t members) (member : ReadsMember token u name v) :
    Yields token (t ++ u ++ [byte '}']) (.object (members ++ [(name, v)])) := by
  intro closable stack
  obtain ⟨c, opened⟩ := opens closable stack
  refine ⟨(.done (.object (members ++ [(name, v)])), stack), ?_, .inl rfl⟩
  rw [List.append_assoc, run_append, opened, Option.bind_some, run_member member (by decide),
    afterValue_close_member]
  rfl

theorem run_members (spaces : Spaces gap)
    (each : List.Forall₂ (fun t m => ReadsMember token t m.1 m.2) (t :: ts) (m :: ms)) :
    run (feed token) (.name before closable, stack)
      (separated (byte ',' :: gap) (t :: ts) ++ [byte '}']) =
      some (.done (.object (before ++ m :: ms)), stack) := by
  induction ts generalizing t m ms before closable with
  | nil =>
    obtain ⟨member, rest⟩ := List.forall₂_cons.mp each
    obtain rfl := List.forall₂_nil_left_iff.mp rest
    rw [separated, run_member member (by decide), afterValue_close_member]
    rfl
  | cons u us ih =>
    obtain ⟨member, rest⟩ := List.forall₂_cons.mp each
    obtain ⟨n, ns, next, later, rfl⟩ := List.forall₂_cons_left_iff.mp rest
    rw [separated, List.append_assoc, List.append_assoc, List.cons_append, run_member member (by decide),
      afterValue_comma_member, Option.bind_some, run_append, run_name_spaces spaces, Option.bind_some,
      ih (List.forall₂_cons.mpr ⟨next, later⟩)]
    simp

theorem yields_object (spaces : Spaces gap)
    (each : List.Forall₂ (fun t m => ReadsMember token t m.1 m.2) ts ms) :
    Yields token (byte '{' :: separated (byte ',' :: gap) ts ++ [byte '}']) (.object ms) := by
  intro closable stack
  refine ⟨(.done (.object ms), stack), ?_, .inl rfl⟩
  have opens : beforeValue closable stack (byte '{') = some (.name [] true, stack) := rfl
  rw [List.cons_append, run_cons, feed_start, opens, Option.bind_some]
  cases each with
  | nil => rfl
  | cons member rest =>
    exact run_members spaces (List.forall₂_cons.mpr ⟨member, rest⟩)

end MujinClient
