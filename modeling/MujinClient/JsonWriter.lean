import MujinClient.JsonReader
import MujinClient.StreamOutput

/-! `DumpJson` without indentation, and that reading its text gives the document back. -/
namespace MujinClient

theorem digit_val (small : d < 10) : (digit d).val = 48 + d := by
  simp only [digit, Fin.ofNat]
  omega

theorem digitsValue_append_digit (t : Text) (small : d < 10) :
    digitsValue (t ++ [digit d]) = 10 * digitsValue t + d := by
  rw [digitsValue_append, digit_val small, Nat.add_sub_cancel_left]

theorem digitsValue_digits (ds : List Nat) (small : ∀ d ∈ ds, d < 10) :
    digitsValue (ds.reverse.map digit) = Nat.ofDigits 10 ds := by
  induction ds with
  | nil => rfl
  | cons d ds ih =>
    rw [List.reverse_cons, List.map_append, List.map_cons, List.map_nil,
      digitsValue_append_digit _ (small d List.mem_cons_self),
      ih fun e later => small e (List.mem_cons_of_mem _ later), Nat.ofDigits_cons]
    omega

theorem digitsValue_natText (n : Nat) : digitsValue (natText n) = n := by
  unfold natText
  split
  · rename_i zero
    rw [zero]
    rfl
  · rw [digitsValue_digits _ fun d inside => Nat.digits_lt_base (by decide) inside, Nat.ofDigits_digits]

theorem natText_ne_nil (n : Nat) : natText n ≠ [] := by
  unfold natText
  split
  · simp
  · rename_i positive
    simpa using Nat.digits_ne_nil_iff_ne_zero.mpr positive

theorem natText_head (positive : n ≠ 0) : (natText n).head? ≠ some (digit 0) := by
  have nonempty : Nat.digits 10 n ≠ [] := Nat.digits_ne_nil_iff_ne_zero.mpr positive
  have last := Nat.getLast_digit_ne_zero 10 positive
  have small : (Nat.digits 10 n).getLast nonempty < 10 :=
    Nat.digits_lt_base (by decide) (List.getLast_mem nonempty)
  rw [natText, if_neg positive, List.head?_map, List.head?_reverse, List.getLast?_eq_some_getLast nonempty]
  intro same
  have values := congrArg Fin.val (Option.some.inj same)
  rw [digit_val small, digit_val (by decide)] at values
  omega

/-- The whole part of a number: digits, and a zero in front only if it stands alone. -/
def IsWhole (t : Text) : Prop :=
  t ≠ [] ∧ (∀ b ∈ t, isDigit b = true) ∧ (t.head? = some (digit 0) → t.length = 1)

theorem natText_isWhole (n : Nat) : IsWhole (natText n) := by
  refine ⟨natText_ne_nil n, natText_digits n, fun zero => ?_⟩
  by_cases positive : n = 0
  · rw [positive]
    rfl
  · exact absurd zero (natText_head positive)

theorem takeWhile_digits {t rest : Text} (all : ∀ b ∈ t, isDigit b = true)
    (stop : rest.head?.all fun b => !isDigit b) :
    (t ++ rest).takeWhile isDigit = t ∧ (t ++ rest).dropWhile isDigit = rest := by
  have tail : rest.takeWhile isDigit = [] ∧ rest.dropWhile isDigit = rest := by
    cases rest with
    | nil => simp
    | cons b rest =>
      have ends : isDigit b = false := by simpa using stop
      simp [ends]
  rw [List.takeWhile_append_of_pos all, List.dropWhile_append_of_pos all]
  simp [tail]

theorem unsigned?_append (negative : Bool) {rest : Text} (whole : IsWhole t)
    (stop : rest.head?.all fun b => !isDigit b) :
    unsigned? negative (t ++ rest) =
      (fraction? rest).map fun (fraction, exponent) => ⟨negative, t, fraction, exponent⟩ := by
  obtain ⟨take, drop⟩ := takeWhile_digits whole.2.1 stop
  rw [unsigned?, take, drop, if_neg]
  rintro (none | ⟨zero, long⟩)
  · exact whole.1 none
  · exact long (whole.2.2 zero)

theorem number?_minus : number? (byte '-' :: t) = unsigned? true t := rfl

theorem number?_of_unsigned (read : unsigned? false t = some d) : number? t = some d := by
  cases t with
  | nil => simp [unsigned?] at read
  | cons b rest =>
    have digit : isDigit b = true := by
      by_contra other
      simp [unsigned?, other] at read
    have minus : b ≠ byte '-' := by
      rintro rfl
      revert digit
      decide
    rw [number?, if_neg minus, read]

theorem stop_nil : ([] : Text).head?.all (fun b => !isDigit b) = true := rfl

theorem number?_natText (n : Nat) : number? (natText n) = some ⟨false, natText n, none, none⟩ := by
  have plain := unsigned?_append false (natText_isWhole n) stop_nil
  rw [List.append_nil] at plain
  exact number?_of_unsigned plain

theorem number?_intText (z : Int) :
    number? (intText z) = some ⟨decide (z < 0), natText z.natAbs, none, none⟩ := by
  unfold intText
  split
  · rename_i negative
    have minus := unsigned?_append true (natText_isWhole z.natAbs) stop_nil
    rw [List.append_nil] at minus
    rw [number?_minus, minus]
    simp [fraction?, negative]
  · rename_i positive
    rw [number?_natText]
    simp [positive]

theorem value_intText (z : JsonInt) :
    Decimal.value ⟨decide (z.value < 0), natText z.value.natAbs, none, none⟩ = .int z := by
  have value : Decimal.integer ⟨decide (z.value < 0), natText z.value.natAbs, none, none⟩ = z.value := by
    simp only [Decimal.integer, digitsValue_natText, decide_eq_true_eq]
    split <;> omega
  simp only [Decimal.value, value, Option.isNone_none, Bool.and_self, ↓reduceIte, dif_pos z.range]

def AllTokenBytes (t : Text) : Prop := ∀ b ∈ t, isTokenByte b = true

instance : DecidablePred AllTokenBytes :=
  fun t => inferInstanceAs (Decidable (∀ b ∈ t, isTokenByte b = true))

theorem allTokenBytes_append (first : AllTokenBytes t) (second : AllTokenBytes u) : AllTokenBytes (t ++ u) :=
  fun b member => (List.mem_append.mp member).elim (first b) (second b)

theorem allTokenBytes_cons (first : isTokenByte b = true) (second : AllTokenBytes t) : AllTokenBytes (b :: t) :=
  List.forall_mem_cons.mpr ⟨first, second⟩

theorem allTokenBytes_of_digits (digits : ∀ b ∈ t, isDigit b = true) : AllTokenBytes t :=
  fun b member => by simp [isTokenByte, digits b member]

theorem allTokenBytes_takeWhile (later : AllTokenBytes (t.dropWhile isDigit)) : AllTokenBytes t := by
  rw [← List.takeWhile_append_dropWhile (p := isDigit) (l := t)]
  exact allTokenBytes_append (allTokenBytes_of_digits fun _ => List.mem_takeWhile_imp) later

theorem allTokenBytes_decimal? (read : decimal? t = some parts) : AllTokenBytes t := by
  have digits : ∀ u : Text, (u ≠ [] ∧ u.all isDigit) → AllTokenBytes u :=
    fun u valid => allTokenBytes_of_digits (List.all_eq_true.mp valid.2)
  unfold decimal? at read
  cases t with
  | nil => exact fun b member => by simp at member
  | cons b rest =>
    simp only [splitSign] at read
    split_ifs at read with minus valid plus valid valid
    · exact allTokenBytes_cons (minus ▸ rfl) (digits rest valid)
    · exact allTokenBytes_cons (plus ▸ rfl) (digits rest valid)
    · exact digits _ valid

theorem allTokenBytes_exponent? (read : exponent? t = some x) : AllTokenBytes t := by
  cases t with
  | nil => exact fun b member => by simp at member
  | cons b rest =>
    rw [exponent?] at read
    split at read
    · rename_i mark
      obtain ⟨parts, digits, -⟩ := Option.map_eq_some_iff.mp read
      refine allTokenBytes_cons ?_ (allTokenBytes_decimal? digits)
      rcases mark with rfl | rfl <;> rfl
    · simp at read

theorem allTokenBytes_fraction? (read : fraction? t = some x) : AllTokenBytes t := by
  cases t with
  | nil => exact fun b member => by simp at member
  | cons b rest =>
    rw [fraction?] at read
    split at read
    · rename_i point
      split at read
      · simp at read
      · obtain ⟨e, known, -⟩ := Option.map_eq_some_iff.mp read
        exact allTokenBytes_cons (point ▸ rfl) (allTokenBytes_takeWhile (allTokenBytes_exponent? known))
    · obtain ⟨e, known, -⟩ := Option.map_eq_some_iff.mp read
      exact allTokenBytes_exponent? known

theorem allTokenBytes_unsigned? (read : unsigned? negative t = some d) : AllTokenBytes t := by
  simp only [unsigned?] at read
  split at read
  · simp at read
  · obtain ⟨e, known, -⟩ := Option.map_eq_some_iff.mp read
    exact allTokenBytes_takeWhile (allTokenBytes_fraction? known)

theorem allTokenBytes_number? (read : number? t = some d) : AllTokenBytes t := by
  cases t with
  | nil => simp [number?] at read
  | cons b rest =>
    rw [number?] at read
    split at read
    · rename_i minus
      exact allTokenBytes_cons (minus ▸ rfl) (allTokenBytes_unsigned? read)
    · exact allTokenBytes_unsigned? read

def Json.isFinite : Json → Bool
  | .double (.finite _) => true
  | .double _ => false
  | _ => true

/-- What both token readers have in common. -/
structure TokenReader (token : Text → Option Json) : Prop where
  keyword : ∀ t v, keyword? t = some v → token t = some v
  number : ∀ t d, number? t = some d → d.value.isFinite = true → token t = some d.value

theorem keyword?_cases (read : keyword? t = some v) :
    t = lit "null" ∧ v = .null ∨ t = lit "true" ∧ v = .bool true ∨ t = lit "false" ∧ v = .bool false := by
  unfold keyword? at read
  split_ifs at read with null yes no
  · exact .inl ⟨null, (Option.some.inj read).symm⟩
  · exact .inr (.inl ⟨yes, (Option.some.inj read).symm⟩)
  · exact .inr (.inr ⟨no, (Option.some.inj read).symm⟩)

theorem number?_of_keyword (read : keyword? t = some v) : number? t = none := by
  rcases keyword?_cases read with ⟨rfl, -⟩ | ⟨rfl, -⟩ | ⟨rfl, -⟩ <;> rfl

theorem keyword?_of_number (read : number? t = some d) : keyword? t = none := by
  cases known : keyword? t with
  | none => rfl
  | some v => simp [number?_of_keyword known] at read

theorem standardToken_reader : TokenReader standardToken where
  keyword t v read := by simp [standardToken, read]
  number t d read _ := by simp [standardToken, keyword?_of_number read, read]

/-- The spellings of the non-finite doubles are neither keywords nor numbers. -/
theorem nonFinite?_apart (read : nonFinite? t = some v) : keyword? t = none ∧ number? t = none := by
  cases t with
  | nil => simp [nonFinite?] at read
  | cons b rest =>
    rw [nonFinite?] at read
    split at read
    · rename_i minus
      subst minus
      unfold unsignedNonFinite? at read
      split_ifs at read with nan inf
      · subst nan
        decide
      · rcases inf with rfl | rfl <;> decide
    · unfold unsignedNonFinite? at read
      split_ifs at read with nan inf
      · rw [nan]
        decide
      · rcases inf with inf | inf <;> rw [inf] <;> decide

theorem clientToken_reader : TokenReader clientToken where
  keyword t v read := by
    have none : nonFinite? t = none := by
      by_contra known
      obtain ⟨w, known⟩ := Option.ne_none_iff_exists'.mp known
      simp [(nonFinite?_apart known).1] at read
    rcases keyword?_cases read with ⟨-, rfl⟩ | ⟨-, rfl⟩ | ⟨-, rfl⟩ <;>
      simp [clientToken, none, standardToken_reader.keyword t _ read]
  number t d read finite := by
    have none : nonFinite? t = none := by
      by_contra known
      obtain ⟨w, known⟩ := Option.ne_none_iff_exists'.mp known
      simp [(nonFinite?_apart known).2] at read
    have apart : ∀ negative, d.value ≠ .double (.infinite negative) := by
      intro negative same
      simp [same, Json.isFinite] at finite
    simp [clientToken, none, standardToken_reader.number t d read finite, apart]

def anyToken (t : Text) : Option Json := (standardToken t).or (some .null)

theorem anyToken_reader : TokenReader anyToken where
  keyword t v read := by simp [anyToken, standardToken_reader.keyword t v read]
  number t d read finite := by simp [anyToken, standardToken_reader.number t d read finite]

theorem exists_anyToken (t : Text) : ∃ v, anyToken t = some v := by
  cases known : standardToken t <;> simp [anyToken, known]

variable {token : Text → Option Json}

theorem yields_number (reader : TokenReader token) (read : number? t = some d)
    (finite : d.value.isFinite = true) : Yields token t d.value := by
  refine yields_token (reader.number t d read finite) ?_ (allTokenBytes_number? read)
  rintro rfl
  simp [number?] at read

theorem yields_keyword (reader : TokenReader token) (read : keyword? t = some v) : Yields token t v := by
  have bytes : t ≠ [] ∧ AllTokenBytes t := by
    rcases keyword?_cases read with ⟨rfl, -⟩ | ⟨rfl, -⟩ | ⟨rfl, -⟩ <;>
      exact ⟨by decide, by decide +kernel⟩
  exact yields_token (reader.keyword t v read) bytes.1 bytes.2

theorem yields_intText (reader : TokenReader token) (z : JsonInt) : Yields token (intText z.value) (.int z) := by
  have value := value_intText z
  exact value ▸ yields_number reader (number?_intText z.value) (by rw [value]; rfl)

theorem isWhole_take (whole : IsWhole t) (k : Nat) : IsWhole (t.take (k + 1)) := by
  obtain ⟨some, all, alone⟩ := whole
  cases t with
  | nil => contradiction
  | cons b rest =>
    refine ⟨by simp, fun c member => all c (List.mem_of_mem_take member), fun zero => ?_⟩
    have single := alone (by simpa using zero)
    simp only [List.length_cons, List.length_take] at single ⊢
    omega

theorem trimZeros_digits (digits : ∀ b ∈ t, isDigit b = true) : ∀ b ∈ trimZeros t, isDigit b = true := by
  intro b member
  have inside := (List.dropWhile_sublist _).subset (List.mem_reverse.mp member)
  exact digits b (List.mem_reverse.mp inside)

/-- What may follow the fraction: nothing, or an exponent. -/
def IsExponent (t : Text) : Prop :=
  (∃ x, exponent? t = some x) ∧ t.head?.all (fun b => !isDigit b && b ≠ byte '.') = true

theorem isExponent_nil : IsExponent [] := ⟨⟨none, rfl⟩, rfl⟩

theorem decimal?_signed (sign : b = byte '-' ∨ b = byte '+') (some : t ≠ []) (all : ∀ c ∈ t, isDigit c = true) :
    ∃ parts, decimal? (b :: t) = .some parts := by
  have split : ∃ negative, splitSign (b :: t) = (negative, t) := by
    rcases sign with rfl | rfl
    · exact ⟨true, rfl⟩
    · exact ⟨false, rfl⟩
  obtain ⟨negative, parts⟩ := split
  exact ⟨(negative, digitsValue t), by simp [decimal?, parts, some, List.all_eq_true.mpr all]⟩

theorem isExponent_exponentText (x : Int) : IsExponent (exponentText x) := by
  refine ⟨?_, rfl⟩
  unfold exponentText
  generalize shape : (if x.natAbs < 10 then digit 0 :: natText x.natAbs else natText x.natAbs) = digits
  generalize sign : (if x < 0 then byte '-' else byte '+') = mark
  have signed : mark = byte '-' ∨ mark = byte '+' := by
    rw [← sign]
    split <;> simp
  have digital : digits ≠ [] ∧ ∀ b ∈ digits, isDigit b = true := by
    rw [← shape]
    split
    · exact ⟨by simp, List.forall_mem_cons.mpr ⟨rfl, natText_digits _⟩⟩
    · exact ⟨natText_ne_nil _, natText_digits _⟩
  obtain ⟨parts, known⟩ := decimal?_signed signed digital.1 digital.2
  simp [exponent?, known]

theorem unsigned?_pointed (negative : Bool) {rest : Text} (whole : IsWhole w) (digits : ∀ b ∈ f, isDigit b = true)
    (exponent : IsExponent rest) : ∃ d, unsigned? negative (pointed w f ++ rest) = some d := by
  obtain ⟨⟨x, known⟩, stop⟩ := exponent
  have ends : rest.head?.all (fun b => !isDigit b) = true := by
    cases rest with
    | nil => rfl
    | cons b rest => simp_all
  unfold pointed
  split
  · rw [unsigned?_append _ whole ends]
    cases rest with
    | nil => exact ⟨_, rfl⟩
    | cons b rest =>
      have point : b ≠ byte '.' := by simp_all
      exact ⟨_, by rw [fraction?, if_neg point, known]; rfl⟩
  · rename_i shown
    obtain ⟨take, drop⟩ := takeWhile_digits (trimZeros_digits digits) ends
    rw [List.append_assoc, List.cons_append, unsigned?_append _ whole rfl]
    simp [fraction?, take, drop, shown, known]

theorem unsigned?_printMagnitude (precision n d : Nat) (negative : Bool) :
    ∃ decimal, unsigned? negative (printMagnitude precision n d) = some decimal := by
  have zero : IsWhole [digit 0] := natText_isWhole 0
  unfold printMagnitude
  split
  · have single := unsigned?_append negative zero stop_nil
    exact ⟨_, single⟩
  · have text := natText_isWhole (roundDecimal precision n d).1
    dsimp only
    split
    · exact unsigned?_pointed negative (isWhole_take text 0)
        (fun b member => text.2.1 b (List.mem_of_mem_drop member))
        (isExponent_exponentText _)
    · have fits : ∀ {w f : Text}, IsWhole w → (∀ b ∈ f, isDigit b = true) →
          ∃ decimal, unsigned? negative (pointed w f) = some decimal := by
        intro w f whole digits
        simpa using unsigned?_pointed negative whole digits isExponent_nil
      split
      · refine fits zero fun b member => ?_
        rcases List.mem_append.mp member with padding | digits
        · rw [List.eq_of_mem_replicate padding]
          rfl
        · exact text.2.1 b digits
      · exact fits (isWhole_take text _) fun b member => text.2.1 b (List.mem_of_mem_drop member)

theorem number?_printDouble (precision : Nat) (x : Finite64) :
    ∃ decimal, number? (printDouble precision (.finite x)) = some decimal := by
  unfold printDouble
  dsimp only
  split
  · exact unsigned?_printMagnitude _ _ _ true
  · obtain ⟨decimal, read⟩ := unsigned?_printMagnitude precision
      (x.mantissa * 2 ^ x.exponent.toNat) (2 ^ (-x.exponent).toNat) false
    exact ⟨decimal, number?_of_unsigned read⟩

theorem padded_digits (width n : Nat) : ∀ b ∈ padded width n, isDigit b = true := by
  intro b member
  rcases List.mem_append.mp member with padding | digits
  · rw [List.eq_of_mem_replicate padding]
    rfl
  · exact natText_digits _ b digits

theorem unsigned?_fixedMagnitude (precision n d : Nat) (negative : Bool) :
    ∃ decimal, unsigned? negative (fixedMagnitude precision n d) = some decimal := by
  have fits (whole fraction : Nat) :
      ∃ decimal, unsigned? negative (natText whole ++ byte '.' :: padded precision fraction) = some decimal := by
    have some : padded precision fraction ≠ [] := by simp [padded, natText_ne_nil]
    obtain ⟨take, drop⟩ := takeWhile_digits (padded_digits precision fraction) stop_nil
    rw [List.append_nil] at take drop
    rw [unsigned?_append negative (natText_isWhole whole) rfl]
    simp [fraction?, take, drop, some, exponent?]
  exact fits _ _

theorem number?_printFixed (precision : Nat) (x : Finite64) :
    ∃ decimal, number? (printFixed precision (.finite x)) = some decimal := by
  unfold printFixed
  dsimp only
  split
  · exact unsigned?_fixedMagnitude _ _ _ true
  · obtain ⟨decimal, read⟩ := unsigned?_fixedMagnitude precision
      (x.mantissa * 2 ^ x.exponent.toNat) (2 ^ (-x.exponent).toNat) false
    exact ⟨decimal, number?_of_unsigned read⟩

/-- What a stream prints for a double is one bare token. -/
theorem printDouble_bare (precision : Nat) (d : Double) :
    printDouble precision d ≠ [] ∧ AllTokenBytes (printDouble precision d) := by
  rcases d with _ | (_ | _) | x
  · have bare : lit "nan" ≠ [] ∧ AllTokenBytes (lit "nan") := by decide +kernel
    exact bare
  · have bare : lit "inf" ≠ [] ∧ AllTokenBytes (lit "inf") := by decide +kernel
    exact bare
  · have bare : lit "-inf" ≠ [] ∧ AllTokenBytes (lit "-inf") := by decide +kernel
    exact bare
  · obtain ⟨decimal, read⟩ := number?_printDouble precision x
    refine ⟨fun empty => ?_, allTokenBytes_number? read⟩
    simp [empty, number?] at read

def hexDigit (d : Nat) : Byte := Fin.ofNat 256 (if d < 10 then 48 + d else 55 + d)

/-- The escapes of `rapidjson::Writer`. -/
def escapeByte (b : Byte) : Text :=
  if b = byte '"' ∨ b = byte '\\' then [byte '\\', b]
  else if 32 ≤ b.val then [b]
  else if b.val = 8 then lit "\\b"
  else if b.val = 9 then lit "\\t"
  else if b.val = 10 then lit "\\n"
  else if b.val = 12 then lit "\\f"
  else if b.val = 13 then lit "\\r"
  else lit "\\u00" ++ [hexDigit (b.val / 16), hexDigit (b.val % 16)]

def dumpString (s : Text) : Text := quoted (s.flatMap escapeByte)

def dumpDouble (platform : Platform) : Double → Text
  | .nan => lit "NaN"
  | .infinite negative => if negative then lit "-Infinity" else lit "Infinity"
  | .finite x => platform.dtoa (.finite x)

mutual
def dumpJson (platform : Platform) : Json → Text
  | .null => lit "null"
  | .bool b => if b then lit "true" else lit "false"
  | .int z => intText z.value
  | .double d => dumpDouble platform d
  | .string s => dumpString s
  | .array xs => byte '[' :: separated [byte ','] (dumpElements platform xs) ++ [byte ']']
  | .object xs => byte '{' :: separated [byte ','] (dumpMembers platform xs) ++ [byte '}']

def dumpElements (platform : Platform) : List Json → List Text
  | [] => []
  | x :: xs => dumpJson platform x :: dumpElements platform xs

def dumpMembers (platform : Platform) : Json.Members → List Text
  | [] => []
  | (name, value) :: rest =>
    (dumpString name ++ [byte ':'] ++ dumpJson platform value) :: dumpMembers platform rest
end

/-- The library's text of a finite double is a number that reads back as it. -/
def Platform.Prints (platform : Platform) (d : Double) : Prop :=
  ∃ decimal, number? (platform.dtoa d) = some decimal ∧ decimal.value = .double d

mutual
/-- Every double in the document is finite and printed so that it reads back. -/
def Printable (platform : Platform) : Json → Prop
  | .double d => Json.isFinite (.double d) = true ∧ platform.Prints d
  | .array xs => PrintableElements platform xs
  | .object xs => PrintableMembers platform xs
  | _ => True

def PrintableElements (platform : Platform) : List Json → Prop
  | [] => True
  | x :: xs => Printable platform x ∧ PrintableElements platform xs

def PrintableMembers (platform : Platform) : Json.Members → Prop
  | [] => True
  | (_, value) :: rest => Printable platform value ∧ PrintableMembers platform rest
end

theorem unescapes_escapeByte (b : Byte) : Unescapes token (escapeByte b) [b] := by
  have each : ∀ b : Byte, unescape [] [] (escapeByte b) = some [b] := by
    decide +kernel
  exact unescapes_of_unescape (each b)

theorem unescapes_dump (s : Text) : Unescapes token (s.flatMap escapeByte) s :=
  unescapes_flatMap fun b _ => unescapes_escapeByte b

theorem yields_dumpString (s : Text) : Yields token (dumpString s) (.string s) :=
  yields_string (unescapes_dump s)

theorem readsMember_dump (yields : Yields token t v) (name : Text) :
    ReadsMember token (dumpString name ++ [byte ':'] ++ t) name v := by
  simpa [dumpString] using readsMember (unescapes_dump name) spaces_nil yields

mutual
theorem yields_dumpJson (reader : TokenReader token) (platform : Platform) :
    (v : Json) → Printable platform v → Yields token (dumpJson platform v) v
  | .null, _ => yields_keyword reader rfl
  | .bool true, _ => yields_keyword reader rfl
  | .bool false, _ => yields_keyword reader rfl
  | .int z, _ => yields_intText reader z
  | .double .nan, printable => by simp [Printable, Json.isFinite] at printable
  | .double (.infinite _), printable => by simp [Printable, Json.isFinite] at printable
  | .double (.finite x), printable => by
    obtain ⟨-, decimal, read, value⟩ := printable
    have yields := yields_number reader read (by rw [value]; rfl)
    rwa [value] at yields
  | .string s, _ => yields_dumpString s
  | .array xs, printable => yields_array spaces_nil (yields_dumpElements reader platform xs printable)
  | .object xs, printable => yields_object spaces_nil (yields_dumpMembers reader platform xs printable)

theorem yields_dumpElements (reader : TokenReader token) (platform : Platform) :
    (xs : List Json) → PrintableElements platform xs →
      List.Forall₂ (Yields token) (dumpElements platform xs) xs
  | [], _ => .nil
  | x :: xs, printable =>
    .cons (yields_dumpJson reader platform x printable.1) (yields_dumpElements reader platform xs printable.2)

theorem yields_dumpMembers (reader : TokenReader token) (platform : Platform) :
    (xs : Json.Members) → PrintableMembers platform xs →
      List.Forall₂ (fun t m => ReadsMember token t m.1 m.2) (dumpMembers platform xs) xs
  | [], _ => .nil
  | (name, value) :: rest, printable =>
    .cons (readsMember_dump (yields_dumpJson reader platform value printable.1) name)
      (yields_dumpMembers reader platform rest printable.2)
end

/-- Reading the text of a document gives the document back. -/
theorem readJson_dumpJson (reader : TokenReader token) (platform : Platform) (v : Json)
    (printable : Printable platform v) : readJson token (dumpJson platform v) = some v :=
  (yields_dumpJson reader platform v printable).readJson

end MujinClient
