import MujinClient.WincapsUploads
import MujinClient.SearchAndReplace

/-! The primary keys of names and of scene URIs, in UTF-8 and in UTF-16, and the names they stand for. -/
namespace MujinClient

open Request

def sequenceLength (lead : Nat) : Nat :=
  if lead < 0x80 then 1
  else if lead >>> 5 = 0x6 then 2
  else if lead >>> 4 = 0xE then 3
  else if lead >>> 3 = 0x1E then 4
  else 0

def isTrail (oc : Nat) : Bool := oc >>> 6 = 0x2

def isCodePointValid (cp : Nat) : Bool := cp ≤ 0x10FFFF && !(0xD800 ≤ cp && cp ≤ 0xDFFF)

def isOverlongSequence (cp length : Nat) : Bool :=
  if cp < 0x80 then length ≠ 1
  else if cp < 0x800 then length ≠ 2
  else if cp < 0x10000 then length ≠ 3
  else false

/-- What `utf8::utf8to16` writes for a code point. -/
def codeUnits (cp : Nat) : Wide :=
  if cp > 0xFFFF then [((cp >>> 10) + 0xD7C0) % 0x10000, ((cp &&& 0x3FF) + 0xDC00) % 0x10000] else [cp]

/-- The end of `utf8::internal::validate_next`, and the rest of the text. -/
def validated (cp length : Nat) (rest : Except Thrown Wide) : Except Thrown Wide :=
  if isCodePointValid cp && !isOverlongSequence cp length then rest.map (codeUnits cp ++ ·) else .error .standard

/-- `utf8::utf8to16`. Every error of a sequence throws. -/
def utf8to16 : Text → Except Thrown Wide
  | [] => .ok []
  | a :: rest =>
    if sequenceLength a.val = 1 then validated a.val 1 (utf8to16 rest)
    else if sequenceLength a.val = 2 then
      match rest with
      | b :: rest =>
        if isTrail b.val then validated ((a.val <<< 6 &&& 0x7FF) + (b.val &&& 0x3F)) 2 (utf8to16 rest)
        else .error .standard
      | [] => .error .standard
    else if sequenceLength a.val = 3 then
      match rest with
      | b :: c :: rest =>
        if isTrail b.val ∧ isTrail c.val then
          validated ((a.val <<< 12 &&& 0xFFFF) + (b.val <<< 6 &&& 0xFFF) + (c.val &&& 0x3F)) 3 (utf8to16 rest)
        else .error .standard
      | _ => .error .standard
    else if sequenceLength a.val = 4 then
      match rest with
      | b :: c :: d :: rest =>
        if isTrail b.val ∧ isTrail c.val ∧ isTrail d.val then
          validated ((a.val <<< 18 &&& 0x1FFFFF) + (b.val <<< 12 &&& 0x3FFFF) + (c.val <<< 6 &&& 0xFFF) +
            (d.val &&& 0x3F)) 4 (utf8to16 rest)
        else .error .standard
      | _ => .error .standard
    else .error .standard

theorem sequenceLength_eq (lead : Nat) : sequenceLength lead =
    if lead < 0x80 then 1
      else if lead / 32 = 6 then 2 else if lead / 16 = 14 then 3 else if lead / 8 = 30 then 4 else 0 := by
  simp only [sequenceLength, Nat.shiftRight_eq_div_pow]

theorem isTrail_iff (oc : Nat) : isTrail oc = true ↔ oc / 64 = 2 := by
  simp only [isTrail, Nat.shiftRight_eq_div_pow, decide_eq_true_eq]

theorem shifted (n s k : Nat) : n <<< s &&& (2 ^ k - 1) = n * 2 ^ s % 2 ^ k := by
  rw [Nat.shiftLeft_eq, Nat.and_two_pow_sub_one_eq_mod]

theorem low_bits (n : Nat) : n &&& 0x3F = n % 64 := Nat.and_two_pow_sub_one_eq_mod n 6

theorem twoBytes_eq (a b : Nat) : (a <<< 6 &&& 0x7FF) + (b &&& 0x3F) = a % 32 * 64 + b % 64 := by
  have first : a <<< 6 &&& 0x7FF = a * 2 ^ 6 % 2 ^ 11 := shifted a 6 11
  have second := low_bits b
  omega

theorem threeBytes_eq (a b c : Nat) :
    (a <<< 12 &&& 0xFFFF) + (b <<< 6 &&& 0xFFF) + (c &&& 0x3F) = a % 16 * 4096 + b % 64 * 64 + c % 64 := by
  have first : a <<< 12 &&& 0xFFFF = a * 2 ^ 12 % 2 ^ 16 := shifted a 12 16
  have second : b <<< 6 &&& 0xFFF = b * 2 ^ 6 % 2 ^ 12 := shifted b 6 12
  have third := low_bits c
  omega

theorem fourBytes_eq (a b c d : Nat) :
    (a <<< 18 &&& 0x1FFFFF) + (b <<< 12 &&& 0x3FFFF) + (c <<< 6 &&& 0xFFF) + (d &&& 0x3F) =
    a % 8 * 262144 + b % 64 * 4096 + c % 64 * 64 + d % 64 := by
  have first : a <<< 18 &&& 0x1FFFFF = a * 2 ^ 18 % 2 ^ 21 := shifted a 18 21
  have second : b <<< 12 &&& 0x3FFFF = b * 2 ^ 12 % 2 ^ 18 := shifted b 12 18
  have third : c <<< 6 &&& 0xFFF = c * 2 ^ 6 % 2 ^ 12 := shifted c 6 12
  have fourth := low_bits d
  omega

theorem codeUnits_toNat (c : Char) : codeUnits c.toNat = utf16Code c := by
  have valid := scalar c
  unfold codeUnits utf16Code
  by_cases single : c.toNat < 0x10000
  · rw [if_neg (by omega), if_pos single]
  · have low : c.toNat &&& 0x3FF = c.toNat % 1024 := Nat.and_two_pow_sub_one_eq_mod c.toNat 10
    have high : c.toNat >>> 10 = c.toNat / 1024 := Nat.shiftRight_eq_div_pow c.toNat 10
    have lead : (c.toNat / 1024 + 0xD7C0) % 0x10000 = 0xD800 + (c.toNat - 0x10000) / 0x400 := by omega
    have trail : (c.toNat % 1024 + 0xDC00) % 0x10000 = 0xDC00 + (c.toNat - 0x10000) % 0x400 := by omega
    rw [if_pos (by omega), if_neg single, low, high, lead, trail]

theorem isCodePointValid_iff (cp : Nat) : isCodePointValid cp = true ↔ ∃ c : Char, c.toNat = cp := by
  have range : isCodePointValid cp = true ↔ cp < 0xD800 ∨ 0xDFFF < cp ∧ cp < 0x110000 := by
    simp only [isCodePointValid, Bool.and_eq_true, Bool.not_eq_true', Bool.and_eq_false_iff,
      decide_eq_true_eq, decide_eq_false_iff_not]
    omega
  rw [range]
  constructor
  · exact exists_char
  · rintro ⟨c, rfl⟩
    exact scalar c

theorem isOverlongSequence_eq_false (cp length : Nat) : isOverlongSequence cp length = false ↔
    (cp < 0x80 → length = 1) ∧ (0x80 ≤ cp → cp < 0x800 → length = 2) ∧
      (0x800 ≤ cp → cp < 0x10000 → length = 3) := by
  unfold isOverlongSequence
  split
  · simp only [decide_eq_false_iff_not, not_not]
    omega
  · split
    · simp only [decide_eq_false_iff_not, not_not]
      omega
    · split
      · simp only [decide_eq_false_iff_not, not_not]
        omega
      · simp only [true_iff]
        omega

/-- A code point is written if a character has it, in the shortest sequence there is. -/
theorem validated_toNat (c : Char) {length : Nat} (low : c.toNat < 0x80 → length = 1)
    (middle : 0x80 ≤ c.toNat → c.toNat < 0x800 → length = 2)
    (high : 0x800 ≤ c.toNat → c.toNat < 0x10000 → length = 3) (rest : Except Thrown Wide) :
    validated c.toNat length rest = rest.map (utf16Code c ++ ·) := by
  have valid : isCodePointValid c.toNat = true := (isCodePointValid_iff _).mpr ⟨c, rfl⟩
  have shortest := (isOverlongSequence_eq_false c.toNat length).mpr ⟨low, middle, high⟩
  rw [validated, valid, shortest, codeUnits_toNat]
  rfl

theorem validated_eq_ok {cp length : Nat} {rest : Except Thrown Wide} {w : Wide}
    (written : validated cp length rest = .ok w) :
    ∃ c : Char, c.toNat = cp ∧ (cp < 0x80 → length = 1) ∧ (0x80 ≤ cp → cp < 0x800 → length = 2) ∧
      (0x800 ≤ cp → cp < 0x10000 → length = 3) ∧
      ∃ v, rest = .ok v ∧ w = utf16Code c ++ v := by
  unfold validated at written
  split at written
  case isFalse => cases written
  rename_i passed
  simp only [Bool.and_eq_true, Bool.not_eq_true'] at passed
  obtain ⟨c, rfl⟩ := (isCodePointValid_iff cp).mp passed.1
  obtain ⟨low, middle, high⟩ := (isOverlongSequence_eq_false _ _).mp passed.2
  cases rest with
  | error e => cases written
  | ok v =>
    obtain rfl := Except.ok.inj written
    exact ⟨c, rfl, low, middle, high, v, rfl, by rw [codeUnits_toNat]⟩

theorem utf8to16_append_code (c : Char) (rest : Text) :
    utf8to16 (utf8 c.toNat ++ rest) = (utf8to16 rest).map (utf16Code c ++ ·) := by
  have valid := scalar c
  have small (n : Nat) (bound : n < 256) : (Fin.ofNat 256 n).val = n := Nat.mod_eq_of_lt bound
  unfold utf8
  split
  · rename_i one
    have length : sequenceLength c.toNat = 1 := by
      rw [sequenceLength_eq, if_pos one]
    rw [List.map_singleton, List.singleton_append, utf8to16.eq_def]
    dsimp only
    rw [small _ (by omega), length, if_pos rfl]
    exact validated_toNat c (fun _ => rfl) (by omega) (by omega) _
  · split
    · rename_i two
      have length : sequenceLength (0xC0 + c.toNat / 0x40) = 2 := by
        rw [sequenceLength_eq, if_neg (by omega), if_pos (by omega)]
      have trail : isTrail (0x80 + c.toNat % 0x40) = true := (isTrail_iff _).mpr (by omega)
      have value : (0xC0 + c.toNat / 0x40) % 32 * 64 + (0x80 + c.toNat % 0x40) % 64 = c.toNat := by omega
      simp only [List.map_cons, List.map_nil, List.cons_append, List.nil_append]
      rw [utf8to16.eq_def]
      dsimp only
      rw [small _ (by omega), small _ (by omega), length, if_neg (by decide), if_pos rfl, trail, if_pos rfl,
        twoBytes_eq, value]
      exact validated_toNat c (by omega) (fun _ _ => rfl) (by omega) _
    · split
      · rename_i three
        have length : sequenceLength (0xE0 + c.toNat / 0x1000) = 3 := by
          rw [sequenceLength_eq, if_neg (by omega), if_neg (by omega), if_pos (by omega)]
        have second : isTrail (0x80 + c.toNat / 0x40 % 0x40) = true := (isTrail_iff _).mpr (by omega)
        have third : isTrail (0x80 + c.toNat % 0x40) = true := (isTrail_iff _).mpr (by omega)
        have value : (0xE0 + c.toNat / 0x1000) % 16 * 4096 + (0x80 + c.toNat / 0x40 % 0x40) % 64 *
            64 + (0x80 + c.toNat % 0x40) % 64 =
            c.toNat := by omega
        simp only [List.map_cons, List.map_nil, List.cons_append, List.nil_append]
        rw [utf8to16.eq_def]
        dsimp only
        rw [small _ (by omega), small _ (by omega), small _ (by omega), length, if_neg (by decide),
          if_neg (by decide), if_pos rfl,
          if_pos ⟨second, third⟩, threeBytes_eq, value]
        exact validated_toNat c (by omega) (by omega) (fun _ _ => rfl) _
      · have length : sequenceLength (0xF0 + c.toNat / 0x40000) = 4 := by
          rw [sequenceLength_eq, if_neg (by omega), if_neg (by omega), if_neg (by omega), if_pos (by omega)]
        have second : isTrail (0x80 + c.toNat / 0x1000 % 0x40) = true := (isTrail_iff _).mpr (by omega)
        have third : isTrail (0x80 + c.toNat / 0x40 % 0x40) = true := (isTrail_iff _).mpr (by omega)
        have fourth : isTrail (0x80 + c.toNat % 0x40) = true := (isTrail_iff _).mpr (by omega)
        have value : (0xF0 + c.toNat / 0x40000) % 8 * 262144 + (0x80 + c.toNat / 0x1000 % 0x40) % 64 * 4096 +
            (0x80 + c.toNat / 0x40 % 0x40) % 64 * 64 + (0x80 + c.toNat % 0x40) % 64 = c.toNat := by omega
        simp only [List.map_cons, List.map_nil, List.cons_append, List.nil_append]
        rw [utf8to16.eq_def]
        dsimp only
        rw [small _ (by omega), small _ (by omega), small _ (by omega), small _ (by omega), length,
          if_neg (by decide), if_neg (by decide),
          if_neg (by decide), if_pos rfl, if_pos ⟨second, third, fourth⟩, fourBytes_eq, value]
        exact validated_toNat c (by omega) (by omega) (by omega) _

theorem utf8to16_utf8Text (s : List Char) : utf8to16 (utf8Text s) = .ok (utf16 s) := by
  induction s with
  | nil => rfl
  | cons c rest ih =>
    have step := utf8to16_append_code c (utf8Text rest)
    rw [ih] at step
    exact step

theorem ofNat_eq {n : Nat} {b : Byte} (same : n = b.val) : Fin.ofNat 256 n = b := by
  apply Fin.ext
  show n % 256 = b.val
  omega

theorem lead_of_length {a length : Nat} (lead : sequenceLength a = length) :
    (length = 1 → a < 0x80) ∧ (length = 2 → a / 32 = 6) ∧ (length = 3 → a / 16 = 14) ∧
      (length = 4 → a / 8 = 30) := by
  rw [sequenceLength_eq] at lead
  split_ifs at lead <;> omega

theorem utf8_two {a b : Byte} {cp : Nat} (lead : sequenceLength a.val = 2) (trail : isTrail b.val = true)
    (value : cp = (a.val <<< 6 &&& 0x7FF) + (b.val &&& 0x3F)) (long : 0x80 ≤ cp) : utf8 cp = [a, b] := by
  rw [twoBytes_eq] at value
  rw [isTrail_iff] at trail
  have first := (lead_of_length lead).2.1 rfl
  rw [utf8, if_neg (by omega), if_pos (by omega)]
  simp only [List.map_cons, List.map_nil]
  rw [ofNat_eq (b := a) (by omega), ofNat_eq (b := b) (by omega)]

theorem utf8_three {a b c : Byte} {cp : Nat} (lead : sequenceLength a.val = 3)
    (second : isTrail b.val = true) (third : isTrail c.val = true)
    (value : cp = (a.val <<< 12 &&& 0xFFFF) + (b.val <<< 6 &&& 0xFFF) + (c.val &&& 0x3F))
    (long : 0x800 ≤ cp) : utf8 cp = [a, b, c] := by
  rw [threeBytes_eq] at value
  rw [isTrail_iff] at second third
  have first := (lead_of_length lead).2.2.1 rfl
  rw [utf8, if_neg (by omega), if_neg (by omega), if_pos (by omega)]
  simp only [List.map_cons, List.map_nil]
  rw [ofNat_eq (b := a) (by omega), ofNat_eq (b := b) (by omega), ofNat_eq (b := c) (by omega)]

theorem utf8_four {a b c d : Byte} {cp : Nat} (lead : sequenceLength a.val = 4)
    (second : isTrail b.val = true) (third : isTrail c.val = true) (fourth : isTrail d.val = true)
    (value : cp = (a.val <<< 18 &&& 0x1FFFFF) + (b.val <<< 12 &&& 0x3FFFF) + (c.val <<< 6 &&& 0xFFF) +
      (d.val &&& 0x3F))
    (long : 0x10000 ≤ cp) : utf8 cp = [a, b, c, d] := by
  rw [fourBytes_eq] at value
  rw [isTrail_iff] at second third fourth
  have first := (lead_of_length lead).2.2.2 rfl
  rw [utf8, if_neg (by omega), if_neg (by omega), if_neg (by omega)]
  simp only [List.map_cons, List.map_nil]
  rw [ofNat_eq (b := a) (by omega), ofNat_eq (b := b) (by omega), ofNat_eq (b := c) (by omega),
    ofNat_eq (b := d) (by omega)]

/-- The texts that are converted are the ones of valid Unicode. -/
theorem exists_utf8Text {t : Text} {w : Wide} (converted : utf8to16 t = .ok w) : ∃ s, t = utf8Text s := by
  induction t using utf8to16.induct generalizing w with
  | case1 => exact ⟨[], rfl⟩
  | case2 a rest one ih =>
    rw [utf8to16.eq_def] at converted
    dsimp only at converted
    rw [if_pos one] at converted
    obtain ⟨c, value, -, -, -, v, later, -⟩ := validated_eq_ok converted
    obtain ⟨s, rfl⟩ := ih later
    have ascii := (lead_of_length one).1 rfl
    refine ⟨c :: s, ?_⟩
    show _ = utf8 c.toNat ++ utf8Text s
    rw [value, utf8_ascii ascii, ofNat_eq rfl]
    rfl
  | case3 a one two b rest trail ih =>
    rw [utf8to16.eq_def] at converted
    dsimp only at converted
    rw [if_neg one, if_pos two, if_pos trail] at converted
    obtain ⟨c, value, low, -, -, v, later, -⟩ := validated_eq_ok converted
    obtain ⟨s, rfl⟩ := ih later
    refine ⟨c :: s, ?_⟩
    show _ = utf8 c.toNat ++ utf8Text s
    rw [utf8_two two trail value (by omega)]
    rfl
  | case4 a one two b rest trail =>
    rw [utf8to16.eq_def] at converted
    dsimp only at converted
    rw [if_neg one, if_pos two, if_neg trail] at converted
    cases converted
  | case5 a one two =>
    rw [utf8to16.eq_def] at converted
    dsimp only at converted
    rw [if_neg one, if_pos two] at converted
    cases converted
  | case6 a one two three b c rest trails ih =>
    rw [utf8to16.eq_def] at converted
    dsimp only at converted
    rw [if_neg one, if_neg two, if_pos three, if_pos trails] at converted
    obtain ⟨char, value, low, middle, -, v, later, -⟩ := validated_eq_ok converted
    obtain ⟨s, rfl⟩ := ih later
    refine ⟨char :: s, ?_⟩
    show _ = utf8 char.toNat ++ utf8Text s
    rw [utf8_three three trails.1 trails.2 value (by omega)]
    rfl
  | case7 a one two three b c rest trails =>
    rw [utf8to16.eq_def] at converted
    dsimp only at converted
    rw [if_neg one, if_neg two, if_pos three, if_neg trails] at converted
    cases converted
  | case8 a rest one two three short =>
    rw [utf8to16.eq_def] at converted
    dsimp only at converted
    rw [if_neg one, if_neg two, if_pos three] at converted
    split at converted
    · exact (short _ _ _ rfl).elim
    · cases converted
  | case9 a one two three four b c d rest trails ih =>
    rw [utf8to16.eq_def] at converted
    dsimp only at converted
    rw [if_neg one, if_neg two, if_neg three, if_pos four, if_pos trails] at converted
    obtain ⟨char, value, low, middle, high, v, later, -⟩ := validated_eq_ok converted
    obtain ⟨s, rfl⟩ := ih later
    refine ⟨char :: s, ?_⟩
    show _ = utf8 char.toNat ++ utf8Text s
    rw [utf8_four four trails.1 trails.2.1 trails.2.2 value (by omega)]
    rfl
  | case10 a one two three four b c d rest trails =>
    rw [utf8to16.eq_def] at converted
    dsimp only at converted
    rw [if_neg one, if_neg two, if_neg three, if_pos four, if_neg trails] at converted
    cases converted
  | case11 a rest one two three four short =>
    rw [utf8to16.eq_def] at converted
    dsimp only at converted
    rw [if_neg one, if_neg two, if_neg three, if_pos four] at converted
    split at converted
    · exact (short _ _ _ _ rfl).elim
    · cases converted
  | case12 a rest one two three four =>
    rw [utf8to16.eq_def] at converted
    dsimp only at converted
    rw [if_neg one, if_neg two, if_neg three, if_neg four] at converted
    cases converted

theorem utf16to8_cut (w : Wide) : utf16to8 (w.map (· % 0x10000)) = utf16to8 w := by
  induction w using utf16to8.induct with
  | case1 => rfl
  | case2 lead cp surrogate =>
    rw [List.map_cons, List.map_nil, utf16to8.eq_def [lead % 0x10000], utf16to8.eq_def [lead]]
    dsimp only
    rw [Nat.mod_mod]
  | case3 lead cp surrogate trail rest low paired ih =>
    rw [List.map_cons, List.map_cons, utf16to8.eq_def (lead % 0x10000 :: _), utf16to8.eq_def (lead :: _)]
    dsimp only
    rw [Nat.mod_mod, Nat.mod_mod, if_pos surrogate, if_pos surrogate, ih]
  | case4 lead cp surrogate trail rest low unpaired =>
    rw [List.map_cons, List.map_cons, utf16to8.eq_def (lead % 0x10000 :: _), utf16to8.eq_def (lead :: _)]
    dsimp only
    rw [Nat.mod_mod, Nat.mod_mod, if_pos surrogate, if_pos surrogate, if_neg unpaired, if_neg unpaired]
  | case5 lead rest cp plain trailing =>
    rw [List.map_cons, utf16to8.eq_def (lead % 0x10000 :: _), utf16to8.eq_def (lead :: _)]
    dsimp only
    rw [Nat.mod_mod, if_neg plain, if_neg plain, if_pos trailing, if_pos trailing]
  | case6 lead rest cp plain other ih =>
    rw [List.map_cons, utf16to8.eq_def (lead % 0x10000 :: _), utf16to8.eq_def (lead :: _)]
    dsimp only
    rw [Nat.mod_mod, if_neg plain, if_neg plain, if_neg other, if_neg other, ih]

theorem utf16to8_append (s : List Char) (w : Wide) :
    utf16to8 (utf16 s ++ w) = (utf16to8 w).map (utf8Text s ++ ·) := by
  induction s with
  | nil =>
    show utf16to8 w = _
    cases utf16to8 w <;> rfl
  | cons c rest ih =>
    have text : utf16 (c :: rest) ++ w = utf16Code c ++ (utf16 rest ++ w) := by
      simp [utf16]
    rw [text, utf16to8_append_code, ih]
    cases utf16to8 w with
    | error e => rfl
    | ok t => simp [Except.map, utf8Text]

section

variable (client : ControllerClient) (unescapeString : Text → Text)

def getScenePrimaryKeyFromURI_UTF8 (uri : Text) : Except Thrown Text :=
  match Replacement.find uri (lit ":/") 0 with
  | none => .error (.mujin ⟨lit "bad URI: " ++ uri, .invalidArguments⟩)
  | some index => .ok (client.escapeString (uri.drop (index + 2)))

def getScenePrimaryKeyFromURI_UTF16 (uri : Wide) : Except Thrown Text :=
  utf16to8 uri >>= getScenePrimaryKeyFromURI_UTF8 client

def getPrimaryKeyFromName_UTF8 (name : Text) : Text := client.escapeString name

def getPrimaryKeyFromName_UTF16 (name : Wide) : Except Thrown Text :=
  (utf16to8 name).map (getPrimaryKeyFromName_UTF8 client)

def getNameFromPrimaryKey_UTF8 (pk : Text) : Text := unescapeString pk

def getNameFromPrimaryKey_UTF16 (pk : Text) : Except Thrown Wide :=
  utf8to16 (getNameFromPrimaryKey_UTF8 unescapeString pk)

end

theorem offset_append {mark : Byte} {pattern front rest : Text} (absent : mark ∉ front) :
    Replacement.offset (mark :: pattern) (front ++ mark :: pattern ++ rest) = some front.length := by
  induction front with
  | nil =>
    have starts : mark :: pattern <+: mark :: (pattern ++ rest) := List.prefix_append (mark :: pattern) rest
    show Replacement.offset (mark :: pattern) (mark :: (pattern ++ rest)) = some 0
    rw [Replacement.offset, if_pos starts]
  | cons b front ih =>
    have first : ¬(mark :: pattern <+: b :: (front ++ mark :: pattern ++ rest)) := by
      intro starts
      exact absent (List.mem_cons.mpr (.inl (List.cons_prefix_cons.mp starts).1))
    show Replacement.offset (mark :: pattern) (b :: (front ++ mark :: pattern ++ rest)) = _
    rw [Replacement.offset, if_neg first, ih fun later => absent (List.mem_cons_of_mem b later)]
    rfl

theorem getScenePrimaryKeyFromURI_eq (client : ControllerClient) {scheme : Text}
    (absent : byte ':' ∉ scheme) (name : Text) :
    getScenePrimaryKeyFromURI_UTF8 client (scheme ++ lit ":/" ++ name) =
      .ok (getPrimaryKeyFromName_UTF8 client name) := by
  have found : Replacement.find (scheme ++ lit ":/" ++ name) (lit ":/") 0 = some scheme.length := by
    have first := @offset_append (byte ':') [byte '/'] scheme name absent
    rw [Replacement.find, List.drop_zero, show lit ":/" = [byte ':', byte '/'] from rfl, first]
    simp
  have rest : (scheme ++ lit ":/" ++ name).drop (scheme.length + 2) = name := by
    rw [List.append_assoc, ← List.drop_drop, List.drop_left]
    rfl
  unfold getScenePrimaryKeyFromURI_UTF8
  rw [found]
  dsimp only
  rw [rest]
  rfl

/-- Keys of names, where unescaping undoes escaping. A wide name that has a key is given back, cut
to 16 bits; a key whose name is given in UTF-16 is the key of that; wide names have keys and keys
have wide names exactly where they are valid Unicode; and the key of the scene at a URI is that of
the name behind its scheme. -/
theorem keys_restore {client : ControllerClient} {unescapeString : Text → Text}
    (restores : ∀ t, unescapeString (client.escapeString t) = t) :
    (∀ name pk, getPrimaryKeyFromName_UTF16 client name = .ok pk →
      getNameFromPrimaryKey_UTF16 unescapeString pk = .ok (name.map (· % 0x10000))) ∧
    (∀ name wide, getNameFromPrimaryKey_UTF16 unescapeString (getPrimaryKeyFromName_UTF8 client name) = .ok wide →
      getPrimaryKeyFromName_UTF16 client wide = .ok (getPrimaryKeyFromName_UTF8 client name)) ∧
    (∀ name, (∃ pk, getPrimaryKeyFromName_UTF16 client name = .ok pk) ↔ ∃ s, name.map (· % 0x10000) = utf16 s) ∧
    (∀ name, (∃ wide, getNameFromPrimaryKey_UTF16 unescapeString (getPrimaryKeyFromName_UTF8 client name) =
      .ok wide) ↔
      ∃ s, name = utf8Text s) ∧
    (∀ scheme name : Text, byte ':' ∉ scheme →
      getScenePrimaryKeyFromURI_UTF8 client (scheme ++ lit ":/" ++ name) =
        .ok (getPrimaryKeyFromName_UTF8 client name)) ∧
    (∀ (scheme : List Char) (name : Wide), ':' ∉ scheme →
      getScenePrimaryKeyFromURI_UTF16 client (utf16 scheme ++ utf16 [':', '/'] ++ name) =
        getPrimaryKeyFromName_UTF16 client name) := by
  have key (name : Text) : getNameFromPrimaryKey_UTF16 unescapeString
      (getPrimaryKeyFromName_UTF8 client name) = utf8to16 name := by
    rw [getNameFromPrimaryKey_UTF16, getNameFromPrimaryKey_UTF8, getPrimaryKeyFromName_UTF8, restores]
  have valid {name : Wide} {t : Text} (converted : utf16to8 name = .ok t) : ∃ s,
      name.map (· % 0x10000) = utf16 s ∧ t = utf8Text s := by
    rw [← utf16to8_cut] at converted
    obtain ⟨s, text⟩ := exists_utf16 _ (by simp; omega) converted
    rw [text, utf16to8_utf16] at converted
    exact ⟨s, text, (Except.ok.inj converted).symm⟩
  refine ⟨fun name pk named => ?_, fun name wide named => ?_, fun name => ⟨?_, ?_⟩, fun name => ⟨?_, ?_⟩,
    fun scheme name absent => getScenePrimaryKeyFromURI_eq client absent name, fun scheme name absent => ?_⟩
  · cases converted : utf16to8 name with
    | error e => simp [getPrimaryKeyFromName_UTF16, converted, Except.map] at named
    | ok t =>
      obtain ⟨s, text, rfl⟩ := valid converted
      rw [getPrimaryKeyFromName_UTF16, converted] at named
      obtain rfl := Except.ok.inj named
      rw [key, utf8to16_utf8Text, text]
  · rw [key] at named
    obtain ⟨s, rfl⟩ := exists_utf8Text named
    rw [utf8to16_utf8Text] at named
    obtain rfl := Except.ok.inj named
    rw [getPrimaryKeyFromName_UTF16, utf16to8_utf16]
    rfl
  · rintro ⟨pk, named⟩
    cases converted : utf16to8 name with
    | error e => simp [getPrimaryKeyFromName_UTF16, converted, Except.map] at named
    | ok t =>
      obtain ⟨s, text, -⟩ := valid converted
      exact ⟨s, text⟩
  · rintro ⟨s, text⟩
    rw [getPrimaryKeyFromName_UTF16, ← utf16to8_cut, text, utf16to8_utf16]
    exact ⟨_, rfl⟩
  · rintro ⟨wide, named⟩
    rw [key] at named
    exact exists_utf8Text named
  · rintro ⟨s, rfl⟩
    rw [key, utf8to16_utf8Text]
    exact ⟨_, rfl⟩
  · have colon : byte ':' ∉ utf8Text scheme := by
      intro member
      obtain ⟨c, inside, letter⟩ := List.mem_flatMap.mp member
      exact (keepsMark_utf8 ':' (by decide)).not_mem c (fun same => absent (same ▸ inside)) letter
    have both : utf16 scheme ++ utf16 [':', '/'] = utf16 (scheme ++ [':', '/']) := by
      simp [utf16]
    have text : utf8Text (scheme ++ [':', '/']) = utf8Text scheme ++ lit ":/" := by
      rw [utf8Text, List.flatMap_append]
      rfl
    rw [getScenePrimaryKeyFromURI_UTF16, getPrimaryKeyFromName_UTF16, both, utf16to8_append, text]
    cases utf16to8 name with
    | error e => rfl
    | ok t => exact getScenePrimaryKeyFromURI_eq client colon t

/-- `curl_easy_unescape`. -/
def percentDecode : Text → Text
  | a :: b :: c :: rest =>
    match hexValue? b, hexValue? c with
    | some high, some low =>
      if a = byte '%' then Fin.ofNat 256 (16 * high + low) :: percentDecode rest
      else a :: percentDecode (b :: c :: rest)
    | _, _ => a :: percentDecode (b :: c :: rest)
  | rest => rest

theorem percentDecode_plain {b : Byte} (plain : b ≠ byte '%') (rest : Text) :
    percentDecode (b :: rest) = b :: percentDecode rest := by
  match rest with
  | [] => rfl
  | [_] => rfl
  | c :: d :: rest =>
    rw [percentDecode]
    split
    · rw [if_neg plain]
    · rfl

theorem percentDecode_encodeByte (b : Byte) (rest : Text) :
    percentDecode (percentEncodeByte b ++ rest) = b :: percentDecode rest := by
  have percent : unreserved (byte '%') = false := by decide
  have digits : ∀ d < 16, hexValue? (hexDigit d) = some d := by decide
  have small := b.isLt
  unfold percentEncodeByte
  split
  · rename_i plain
    apply percentDecode_plain
    rintro rfl
    rw [percent] at plain
    cases plain
  · have value : Fin.ofNat 256 (16 * (b.val / 16) + b.val % 16) = b := ofNat_eq (by omega)
    simp only [List.cons_append, List.nil_append]
    rw [percentDecode, digits _ (by omega), digits _ (by omega)]
    dsimp only
    rw [if_pos rfl, value]

theorem percentDecode_percentEncode (t : Text) : percentDecode (percentEncode t) = t := by
  induction t with
  | nil => rfl
  | cons b t ih => rw [percentEncode_cons, percentDecode_encodeByte, ih]

/-- A name with a space, a letter of two bytes and a character outside of the basic plane. -/
def wrenchName : List Char := ['a', ' ', 'é', Char.ofNat 0x1F527]

def escaping : ControllerClient := { (default : ControllerClient) with escapeString := percentEncode }

theorem keys_restore_wrench : (∀ t, percentDecode (escaping.escapeString t) = t) ∧
    getPrimaryKeyFromName_UTF16 escaping (utf16 wrenchName) = .ok (percentEncode (utf8Text wrenchName)) ∧
    getNameFromPrimaryKey_UTF16 percentDecode (percentEncode (utf8Text wrenchName)) =
      .ok ((utf16 wrenchName).map (· % 0x10000)) := by
  have named : getPrimaryKeyFromName_UTF16 escaping (utf16 wrenchName) =
      .ok (percentEncode (utf8Text wrenchName)) := by
    rw [getPrimaryKeyFromName_UTF16, utf16to8_utf16]
    rfl
  exact ⟨percentDecode_percentEncode, named,
    (@keys_restore escaping percentDecode percentDecode_percentEncode).1 _ _ named⟩

end MujinClient
