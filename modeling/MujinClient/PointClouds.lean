import MujinClient.TaskParameterRoundTrip

/-! Serialising a point cloud obstacle: how far the loop over the coordinates reads, whether it ends, and
what the text it leaves is as a document. -/
namespace MujinClient

open Transition

structure PointLoop where
  i : BitVec 32
  ss : Text
  bwrite : Bool

inductive PointOutcome where
  | running (loop : PointLoop)
  /-- An index is not in the vector. -/
  | pastEnd
  | ended (ss : Text)

namespace PointLoop

/-- `i+=3` -/
def next (loop : PointLoop) : PointOutcome := .running { loop with i := loop.i + 3 }

def write (x y z : Double) (loop : PointLoop) : PointLoop :=
  let comma := if loop.bwrite then lit "," else []
  { loop with
    ss := loop.ss ++ (comma ++ printDouble 7 x ++ lit "," ++ printDouble 7 y ++ lit "," ++ printDouble 7 z)
    bwrite := true }

def readAt (points : List Double) (i : BitVec 32) (use : Double → PointOutcome) : PointOutcome :=
  match points[i.toNat]? with
  | some d => use d
  | none => .pastEnd

/-- One round. `&&` uses the next index only if there is a number at the one before. -/
def step (points : List Double) (loop : PointLoop) : PointOutcome :=
  if loop.i.toNat < points.length then
    readAt points loop.i fun x =>
      if x.isNan then loop.next
      else readAt points (loop.i + 1) fun y =>
        if y.isNan then loop.next
        else readAt points (loop.i + 2) fun z =>
          if z.isNan then loop.next else (loop.write x y z).next
  else .ended (loop.ss ++ lit "]")

end PointLoop

def PointOutcome.advance (points : List Double) : PointOutcome → PointOutcome
  | running loop => loop.step points
  | settled => settled

namespace PointCloudObstacle

def start (obj : PointCloudObstacle) : PointLoop where
  i := 0
  ss := getJsonStringValue "pointcloudid" obj.name ++ lit ", " ++
    keyed "pointsize" (printDouble 7 obj.pointsize) ++ lit ", " ++ keyed "points" (lit "[")
  bwrite := false

def after (obj : PointCloudObstacle) (n : Nat) : PointOutcome :=
  (PointOutcome.advance obj.points)^[n] (.running obj.start)

end PointCloudObstacle

def triples : List α → List (α × α × α)
  | x :: y :: z :: rest => (x, y, z) :: triples rest
  | _ => []

def leftOver : List α → List α
  | _ :: _ :: _ :: rest => leftOver rest
  | few => few

def isWhole : Double × Double × Double → Bool
  | (x, y, z) => !(x.isNan || y.isNan || z.isNan)

def wholePoints (points : List Double) : List Double :=
  ((triples points).filter isWhole).flatMap fun (x, y, z) => [x, y, z]

/-- No read is outside of the vector, and the loop ends with a text that stands, between braces, for an
object with the whole points in their order, as they are printed. -/
structure PointCloudObstacle.Serialised (obj : PointCloudObstacle) : Prop where
  inside : ∀ n, obj.after n ≠ .pastEnd
  document : ∃ n fragment members, obj.after n = .ended fragment ∧
    readJson standardToken (byte '{' :: fragment ++ [byte '}']) = some (.object members) ∧
    Json.findMember members (lit "points") = some (printedNumbers 7 (wholePoints obj.points))

/-- What a name reads as between quotes once its quotes are escaped: its backslashes have to begin escape
sequences, and a quote cannot be in one. -/
def nameText (seen pending : Text) : Text → Option Text
  | [] => if pending = [] then some seen else none
  | b :: rest =>
    if b = byte '"' then if pending = [] then nameText (seen ++ [b]) [] rest else none
    else (stringByte seen pending b).bind fun (seen, pending) => nameText seen pending rest

/-- The name and the size can be read, what is left over is skipped for a NaN, and the index of 32 bits gets
to the end of the vector. -/
structure PointCloudObstacle.Encodable (obj : PointCloudObstacle) : Prop where
  name : ∃ s, nameText [] [] obj.name = some s
  pointsize : obj.pointsize.isFinite = true
  points : leftOver obj.points = [] ∨ ∃ d ∈ leftOver obj.points, d.isNan = true
  length : obj.points.length < 2 ^ 32

def PointLoop.comesTo (loop : PointLoop) : Option (List Text) → PointOutcome
  | none => .pastEnd
  | some texts =>
    .ended (loop.ss ++
      ((if loop.bwrite = true ∧ texts ≠ [] then lit "," else []) ++ separated [byte ','] texts) ++ lit "]")

variable {points : List Double}

theorem readAt_of_drop {i : BitVec 32} {k : Nat} (here : points.drop k = d :: rest) (index : i.toNat = k)
    (use : Double → PointOutcome) : PointLoop.readAt points i use = use d := by
  have there : points[i.toNat]? = some d := by
    rw [index]
    simpa using congrArg List.head? here
  rw [PointLoop.readAt, there]

theorem readAt_past {i : BitVec 32} (past : points.length ≤ i.toNat) (use : Double → PointOutcome) :
    PointLoop.readAt points i use = .pastEnd := by
  rw [PointLoop.readAt, List.getElem?_eq_none past]

namespace PointLoop

variable {loop : PointLoop}

/-- A round that goes on leads to what the rounds behind it lead to. -/
theorem settles_behind (stepped : loop.step points = .running later)
    (settles : ∃ n, (PointOutcome.advance points)^[n] (.running later) = outcome) :
    ∃ n, (PointOutcome.advance points)^[n] (.running loop) = outcome := by
  obtain ⟨n, settled⟩ := settles
  refine ⟨n + 1, ?_⟩
  rw [Function.iterate_succ_apply, PointOutcome.advance, stepped, settled]

theorem settles_at (stepped : loop.step points = outcome) :
    ∃ n, (PointOutcome.advance points)^[n] (.running loop) = outcome :=
  ⟨1, stepped⟩

theorem drop_next {k : Nat} (here : points.drop k = d :: rest) : points.drop (k + 1) = rest := by
  rw [← List.tail_drop, here, List.tail_cons]

def stepAhead (loop : PointLoop) : List Double → PointOutcome
  | [] => .ended (loop.ss ++ lit "]")
  | [x] => if x.isNan then loop.next else .pastEnd
  | [x, y] => if x.isNan || y.isNan then loop.next else .pastEnd
  | x :: y :: z :: _ => if x.isNan || y.isNan || z.isNan then loop.next else (loop.write x y z).next

/-- No index of a round wraps while it is in the vector, or right behind it. -/
theorem step_eq_stepAhead (short : points.length < 2 ^ 32) (here : points.drop loop.i.toNat = rest) :
    loop.step points = loop.stepAhead rest := by
  have length := congrArg List.length here
  rw [List.length_drop] at length
  rcases rest with _ | ⟨x, _ | ⟨y, _ | ⟨z, rest⟩⟩⟩
  · rw [List.length_nil] at length
    rw [step, if_neg (by omega), stepAhead]
  · rw [List.length_singleton] at length
    have second : (loop.i + 1).toNat = loop.i.toNat + 1 := by bv_omega
    rw [step, if_pos (by omega), readAt_of_drop here rfl, readAt_past (by omega), stepAhead]
  · simp only [List.length_cons, List.length_nil] at length
    have second : (loop.i + 1).toNat = loop.i.toNat + 1 := by bv_omega
    have third : (loop.i + 2).toNat = loop.i.toNat + 2 := by bv_omega
    rw [step, if_pos (by omega), readAt_of_drop here rfl, readAt_of_drop (drop_next here) second,
      readAt_past (by omega), stepAhead]
    cases x.isNan <;> rfl
  · simp only [List.length_cons] at length
    have second : (loop.i + 1).toNat = loop.i.toNat + 1 := by bv_omega
    have third : (loop.i + 2).toNat = loop.i.toNat + 2 := by bv_omega
    rw [step, if_pos (by omega), readAt_of_drop here rfl, readAt_of_drop (drop_next here) second,
      readAt_of_drop (drop_next (drop_next here)) third, stepAhead]
    cases x.isNan <;> cases y.isNan <;> rfl

/-- The index is a multiple of three, so that it does not wrap on its way out of the vector. -/
theorem next_index (short : points.length < 2 ^ 32) (aligned : 3 ∣ loop.i.toNat)
    (here : points.drop loop.i.toNat = d :: rest) :
    3 ∣ (loop.i + 3).toNat ∧ points.drop (loop.i + 3).toNat = (d :: rest).drop 3 := by
  have length := congrArg List.length here
  rw [List.length_drop, List.length_cons] at length
  have three : (3 : BitVec 32).toNat = 3 := rfl
  have index : (loop.i + 3).toNat = loop.i.toNat + 3 := by
    rw [BitVec.toNat_add, three]
    omega
  refine ⟨by omega, ?_⟩
  rw [index, ← here, List.drop_drop]

theorem comesTo_write (i : BitVec 32) (x y z : Double) (texts : Option (List Text)) :
    comesTo { loop.write x y z with i := i } texts =
      loop.comesTo
        (texts.map (separated [byte ','] [printDouble 7 x, printDouble 7 y, printDouble 7 z] :: ·)) := by
  have comma : lit "," = [byte ','] := rfl
  cases texts with
  | none => rfl
  | some texts =>
    cases texts <;> cases written : loop.bwrite <;> simp [comesTo, write, written, separated, comma]

theorem settles (short : points.length < 2 ^ 32) (aligned : 3 ∣ loop.i.toNat)
    (here : points.drop loop.i.toNat = rest) :
    ∃ n, (PointOutcome.advance points)^[n] (.running loop) = loop.comesTo (pointTexts rest) := by
  have round := step_eq_stepAhead short here
  induction rest using pointTexts.induct generalizing loop with
  | case1 => exact settles_at (by simp [round, stepAhead, comesTo, pointTexts, separated])
  | case2 x nan | case4 x y nan =>
    have behind : step points { loop with i := loop.i + 3 } = stepAhead { loop with i := loop.i + 3 } [] :=
      step_eq_stepAhead short (next_index short aligned here).2
    rw [stepAhead, if_pos nan] at round
    refine settles_behind round (settles_at (behind.trans ?_))
    simp [stepAhead, comesTo, pointTexts, nan, separated]
  | case3 x number | case5 x y number =>
    refine settles_at ?_
    rw [round, stepAhead, if_neg number]
    simp [comesTo, pointTexts, number]
  | case6 x y z rest ih =>
    have index := next_index short aligned here
    have behind : ∀ same : PointLoop, same.i = loop.i → ∃ n, (PointOutcome.advance points)^[n] same.next =
        comesTo { same with i := same.i + 3 } (pointTexts rest) := by
      rintro same alike
      rw [← alike] at index
      exact ih index.1 index.2 (step_eq_stepAhead short index.2)
    rw [stepAhead] at round
    by_cases nan : (x.isNan || y.isNan || z.isNan) = true
    · have same : pointTexts (x :: y :: z :: rest) = pointTexts rest := by simp [pointTexts, nan]
      rw [if_pos nan] at round
      rw [same]
      exact settles_behind round (behind loop rfl)
    · have more : pointTexts (x :: y :: z :: rest) =
          (pointTexts rest).map
            (separated [byte ','] [printDouble 7 x, printDouble 7 y, printDouble 7 z] :: ·) := by
        simp only [pointTexts, if_neg nan]
      rw [if_neg nan] at round
      rw [more, ← comesTo_write]
      exact settles_behind round (behind (loop.write x y z) rfl)

theorem runs_on (long : 2 ^ 32 ≤ points.length) (loop : PointLoop) :
    ∃ later, loop.step points = .running later := by
  have there : ∀ i : BitVec 32, ∃ d, ∀ use, readAt points i use = use d := by
    intro i
    have inside : i.toNat < points.length := i.isLt.trans_le long
    refine ⟨points.get ⟨i.toNat, inside⟩, fun use => ?_⟩
    rw [readAt, List.getElem?_eq_getElem inside]
    rfl
  obtain ⟨x, first⟩ := there loop.i
  obtain ⟨y, second⟩ := there (loop.i + 1)
  obtain ⟨z, third⟩ := there (loop.i + 2)
  rw [step, if_pos (loop.i.isLt.trans_le long), first, second, third]
  split_ifs <;> exact ⟨_, rfl⟩

end PointLoop

theorem advance_long (long : 2 ^ 32 ≤ points.length) (n : Nat) (loop : PointLoop) :
    ∃ later, (PointOutcome.advance points)^[n] (.running loop) = .running later := by
  induction n generalizing loop with
  | zero => exact ⟨loop, rfl⟩
  | succ n ih =>
    obtain ⟨next, stepped⟩ := PointLoop.runs_on long loop
    rw [Function.iterate_succ_apply, PointOutcome.advance, stepped]
    exact ih next

namespace PointCloudObstacle

variable {obj : PointCloudObstacle}

/-- Up to 2^32 coordinates the loop comes to what the text of the obstacle is in the commands. -/
theorem after_getJsonStringPointCloud (short : obj.points.length < 2 ^ 32) :
    ∃ n, obj.after n = (getJsonStringPointCloud obj).elim .pastEnd .ended := by
  have aligned : 3 ∣ obj.start.i.toNat := ⟨0, rfl⟩
  have here : obj.points.drop obj.start.i.toNat = obj.points := rfl
  obtain ⟨n, settled⟩ := PointLoop.settles short aligned here
  refine ⟨n, settled.trans ?_⟩
  rw [getJsonStringPointCloud]
  cases pointTexts obj.points with
  | none => rfl
  | some texts =>
    have opens : lit "[" = [byte '['] := rfl
    have shuts : lit "]" = [byte ']'] := rfl
    simp [PointLoop.comesTo, start, keyed, opens, shuts]

end PointCloudObstacle

theorem pointTexts_eq_some : (∃ texts, pointTexts points = some texts) ↔
    leftOver points = [] ∨ ∃ d ∈ leftOver points, d.isNan = true := by
  induction points using pointTexts.induct with
  | case1 | case2 x nan | case3 x number | case4 x y nan | case5 x y number => simp_all [pointTexts, leftOver]
  | case6 x y z rest ih => simpa [pointTexts, leftOver] using ih

theorem wholePoints_cons (x y z : Double) (rest : List Double) : wholePoints (x :: y :: z :: rest) =
    (if isWhole (x, y, z) then [x, y, z] else []) ++ wholePoints rest := by
  cases whole : isWhole (x, y, z) <;> simp [wholePoints, triples, whole]

theorem mem_wholePoints (inside : d ∈ wholePoints points) : d ∈ points ∧ d.isNan = false := by
  induction points using triples.induct with
  | case1 x y z rest ih =>
    rw [wholePoints_cons, List.mem_append] at inside
    rcases inside with here | later
    · split_ifs at here with whole
      · simp only [isWhole, Bool.not_eq_true', Bool.or_eq_false_iff] at whole
        simp only [List.mem_cons, List.not_mem_nil, or_false] at here
        rcases here with rfl | rfl | rfl <;> simp [whole]
      · cases here
    · exact ⟨by simp [(ih later).1], (ih later).2⟩
  | case2 few short => simp [wholePoints, triples] at inside

theorem separated_pointTexts (known : pointTexts points = some texts) : (texts = [] ↔ wholePoints points = []) ∧
    separated [byte ','] texts = separated [byte ','] ((wholePoints points).map (printDouble 7)) := by
  induction points using pointTexts.induct generalizing texts with
  | case1 | case2 x nan | case3 x number | case4 x y nan | case5 x y number =>
    simp_all [pointTexts, wholePoints, triples]
  | case6 x y z rest ih =>
    rw [pointTexts] at known
    obtain ⟨later, ahead, rfl⟩ := Option.map_eq_some_iff.mp known
    obtain ⟨empty, same⟩ := ih ahead
    rw [wholePoints_cons, isWhole]
    cases x.isNan || y.isNan || z.isNan with
    | true => simpa using ⟨empty, same⟩
    | false => simp [separated_cons, empty, same]

theorem escapeQuote_cases (b : Byte) :
    b = byte '"' ∧ escapeQuote b = [byte '\\', byte '"'] ∨ b ≠ byte '"' ∧ escapeQuote b = [b] := by
  unfold escapeQuote
  by_cases quote : b = byte '"'
  · exact .inl ⟨quote, by rw [if_pos quote, quote]⟩
  · exact .inr ⟨quote, if_neg quote⟩

theorem backslashes_escapeQuote : Backslashes escapeQuote := by
  intro b
  rcases escapeQuote_cases b with ⟨-, text⟩ | ⟨quote, text⟩
  · exact .inl ⟨_, text⟩
  · exact .inr ⟨quote, text⟩

/-- A quote that comes with its backslash cannot be in an escape sequence: either that backslash ends the
sequence, or the quote does not go on with it. -/
theorem unescape_escapeQuote (open_ : Pending pending) :
    unescape seen pending (q.flatMap escapeQuote) = nameText seen pending q := by
  induction q generalizing seen pending with
  | nil => rfl
  | cons b q ih =>
    rw [List.flatMap_cons, nameText]
    rcases escapeQuote_cases b with ⟨rfl, text⟩ | ⟨quote, text⟩ <;> rw [text]
    · rw [if_pos rfl, List.cons_append, List.singleton_append, unescape, if_neg fun both =>
        absurd both.2 (by decide)]
      by_cases none : pending = []
      · subst none
        have backslash : stringByte seen [] (byte '\\') = some (seen, [byte '\\']) := rfl
        have ended : stringByte seen [byte '\\'] (byte '"') = some (seen ++ [byte '"'], []) := rfl
        rw [if_pos rfl, backslash, Option.bind_some]
        dsimp only
        rw [unescape, if_neg fun both => absurd both.1 (by simp), ended]
        exact ih (.inl rfl)
      · rw [if_neg none]
        cases taken : stringByte seen pending (byte '\\') with
        | none => rfl
        | some parts =>
          obtain ⟨next, left⟩ := parts
          rw [Option.bind_some]
          dsimp only
          rw [unescape]
          split
          · rfl
          · rename_i inside
            have opened : left ≠ [] := fun ended => inside ⟨ended, rfl⟩
            rcases escape_foreign foreign_quote (open_.stringByte taken) opened with only | bad
            · exact absurd (backslash_opens (stringByte_measure taken).2 only) none
            · rw [stringByte, if_neg opened, bad, Option.bind_none]
    · rw [if_neg quote, List.singleton_append, unescape, if_neg fun both => quote both.2]
      cases taken : stringByte seen pending b with
      | none => rfl
      | some parts => exact ih (open_.stringByte taken)

/-- Where the string ends that a text and a quote are read for: with that quote, behind it or before. -/
theorem closes_body {body : Text} (open_ : Pending pending)
    (closed : closes seen pending (body ++ byte '"' :: tail) = some (x, rest)) :
    unescape seen pending body = some x ∧ rest = tail ∨ (∃ front, closes front [] tail = some (x, rest)) ∨
      ∃ before later, body = before ++ byte '"' :: later ∧ rest = later ++ byte '"' :: tail := by
  induction body generalizing seen pending with
  | nil =>
    rw [List.nil_append] at closed
    rcases closes_quote open_ closed with ⟨ends, rfl, rfl⟩ | ⟨-, later⟩
    · exact .inl ⟨by rw [unescape, if_pos ends], rfl⟩
    · exact .inr (.inl ⟨_, later⟩)
  | cons b body ih =>
    rw [List.cons_append, closes] at closed
    split at closed
    · rename_i ends
      obtain ⟨rfl, rfl⟩ := Prod.mk.inj (Option.some.inj closed)
      exact .inr (.inr ⟨[], body, by rw [ends.2, List.nil_append], rfl⟩)
    · rename_i inside
      obtain ⟨⟨next, left⟩, taken, closed⟩ := Option.bind_eq_some_iff.mp closed
      rcases ih (open_.stringByte taken) closed with ⟨read, last⟩ | late | ⟨before, later, split, early⟩
      · exact .inl ⟨by rw [unescape, if_neg inside, taken]; exact read, last⟩
      · exact .inr (.inl late)
      · exact .inr (.inr ⟨b :: before, later, by rw [split, List.cons_append], early⟩)

theorem escaped_behind {q : Text} (split : q.flatMap escapeQuote = before ++ byte '"' :: later) : ∃ r :
    Text, later = r.flatMap escapeQuote := by
  induction q generalizing before with
  | nil => simp at split
  | cons b q ih =>
    rw [List.flatMap_cons] at split
    rcases escapeQuote_cases b with ⟨-, text⟩ | ⟨quote, text⟩ <;> rw [text] at split
    · rcases before with _ | ⟨c, _ | ⟨d, before⟩⟩
      · exact absurd (List.cons.inj split).1 (by decide)
      · exact ⟨q, (List.cons.inj (List.cons.inj split).2).2.symm⟩
      · exact ih (List.cons.inj (List.cons.inj split).2).2
    · cases before with
      | nil => exact absurd (List.cons.inj split).1 quote
      | cons c before => exact ih (List.cons.inj split).2

/-- If a text goes on being read behind a string of the serialiser, this is read up to its own quote. -/
theorem Reads.jsonString {q : Text} (separates : Separates tail)
    (reads : Reads token (.start false, stack) (getJsonString q ++ tail) d) :
    ∃ s, nameText [] [] q = some s ∧ Reads token (.done (.string s), stack) tail d := by
  rw [getJsonString, quoted, List.append_assoc, List.cons_append, List.singleton_append] at reads
  obtain ⟨next, taken, inside⟩ := reads.step
  obtain rfl := Option.some.inj taken
  obtain ⟨x, rest, closed, later, ends⟩ := inside.closes
  rcases closes_body (.inl rfl) closed with ⟨read, rfl⟩ | ⟨front, late⟩ | ⟨before, early, split, rfl⟩
  · exact ⟨x, by rw [← unescape_escapeQuote (.inl rfl), read], later⟩
  · exact absurd ends (separates _ _ _ late)
  · obtain ⟨r, rfl⟩ := escaped_behind split
    exact absurd later (not_reads_outside backslashes_escapeQuote separates (by simp [Outside, closeString]))

theorem keyed_eq {key : String} (plain : Plain (lit key)) (value : Text) :
    keyed key value = templateMember key 1 value := by
  have itself : ∀ t : Text, Plain t → t.flatMap escapeQuote = t := by
    intro t plain
    induction t with
    | nil => rfl
    | cons b t ih =>
      obtain ⟨first, later⟩ := plain_cons.mp plain
      have quote : b ≠ byte '"' := fun same => absurd (same ▸ first) (by decide)
      rw [List.flatMap_cons, escapeQuote, if_neg quote, ih later, List.singleton_append]
  have gap : lit ": " = byte ':' :: blanks 1 := rfl
  rw [keyed, getJsonString, itself _ plain, gap, templateMember]

theorem finite_of_reads {x : Double} (ends : isTokenByte b = false)
    (reads : Reads standardToken (.start false, stack) (printDouble precision x ++ b :: rest) d) :
    x.isFinite = true := by
  cases x with
  | finite x => rfl
  | nan =>
    exact absurd reads
      (not_reads_word (t := lit "nan") rfl ⟨List.cons_ne_nil _ _, List.all_eq_true.mp rfl⟩ ends)
  | infinite negative =>
    cases negative with
    | true =>
      exact absurd reads
        (not_reads_word (t := lit "-inf") rfl ⟨List.cons_ne_nil _ _, List.all_eq_true.mp rfl⟩ ends)
    | false =>
      exact absurd reads
        (not_reads_word (t := lit "inf") rfl ⟨List.cons_ne_nil _ _, List.all_eq_true.mp rfl⟩ ends)

namespace PointCloudObstacle

variable {obj : PointCloudObstacle}

theorem readable_of_reads (known : getJsonStringPointCloud obj = some fragment)
    (read : readJson standardToken (byte '{' :: fragment ++ [byte '}']) = some d) :
    (∃ s, nameText [] [] obj.name = some s) ∧ obj.pointsize.isFinite = true := by
  obtain ⟨texts, -, rfl⟩ := Option.map_eq_some_iff.mp known
  have first : Plain (lit "pointcloudid") := plain_lit _ (by decide)
  have second : Plain (lit "pointsize") := plain_lit _ (by decide)
  generalize keyed "points" (byte '[' :: separated [byte ','] texts ++ [byte ']']) = points at read
  have text : byte '{' :: (getJsonStringValue "pointcloudid" obj.name ++ lit ", " ++
        keyed "pointsize" (printDouble 7 obj.pointsize) ++ lit ", " ++ points) ++ [byte '}'] =
      firstMember "pointcloudid" 1 ++
        (getJsonString obj.name ++
        ((byte ',' :: blanks 1 ++ (quoted (lit "pointsize") ++ byte ':' :: blanks 1)) ++
        (printDouble 7 obj.pointsize ++ byte ',' :: (blanks 1 ++ points ++ [byte '}'])))) := by
    have comma : lit ", " = byte ',' :: blanks 1 := rfl
    rw [getJsonStringValue, keyed_eq first, keyed_eq second, comma, templateMember, templateMember, firstMember]
    simp only [List.append_assoc, List.cons_append]
  rw [text, readJson_eq_some, reads_firstMember first] at read
  have separates : Separates ((byte ',' :: blanks 1 ++ (quoted (lit "pointsize") ++ byte ':' :: blanks 1)) ++
      (printDouble 7 obj.pointsize ++ byte ',' :: (blanks 1 ++ points ++ [byte '}']))) := by
    have gap : Plain (byte ',' :: blanks 1) := plain_cons.mpr ⟨rfl, plain_blanks 1⟩
    exact separates_name gap (show isTokenByte (byte 'p') = true from rfl) _
  obtain ⟨s, name, later⟩ := read.jsonString separates
  have ran : run (feed standardToken) (.done (.string s), [.member [] (lit "pointcloudid")])
      (byte ',' :: blanks 1 ++ (quoted (lit "pointsize") ++ byte ':' :: blanks 1)) =
        some (.start false, [.member [(lit "pointcloudid", .string s)] (lit "pointsize")]) := by
    have comma : run (feed standardToken) (.done (.string s), [.member [] (lit "pointcloudid")])
        (byte ',' :: blanks 1) = some (.name [(lit "pointcloudid", .string s)] false, []) := rfl
    rw [run_append, comma, Option.bind_some, run_templateMember second]
  rw [reads_append ran] at later
  exact ⟨⟨s, name⟩, finite_of_reads (by decide) later⟩

theorem fragment_reads (encodable : obj.Encodable)
    (coordinates : ∀ d ∈ obj.points, d.isNan = true ∨ d.isFinite = true)
    (known : getJsonStringPointCloud obj = some fragment) : ∃ members,
      readJson standardToken (byte '{' :: fragment ++ [byte '}']) = some (.object members) ∧
      Json.findMember members (lit "points") = some (printedNumbers 7 (wholePoints obj.points)) := by
  obtain ⟨texts, texted, rfl⟩ := Option.map_eq_some_iff.mp known
  obtain ⟨s, read⟩ := encodable.name
  have finite : ∀ d ∈ wholePoints obj.points, d.isFinite = true := by
    intro d inside
    obtain ⟨member, number⟩ := mem_wholePoints inside
    exact (coordinates d member).resolve_left (by simp [number])
  rw [← unescape_escapeQuote (.inl rfl)] at read
  have name : Yields standardToken (getJsonString obj.name) (.string s) :=
    yields_string (unescapes_of_unescape read)
  have opened := opens_brace.next (readsMember_keyed "pointcloudid" name (clean_lit _ (by decide)))
    |>.next (readsMember_keyed "pointsize" (yields_printDouble 7 encodable.pointsize) (clean_lit _ (by decide)))
  have points := yields_points finite (separated_pointTexts texted).2
  have closed := opened.close (readsMember_keyed "points" points (clean_lit _ (by decide)))
  refine ⟨_, Eq.trans (congrArg _ ?_) closed.readJson, rfl⟩
  simp only [getJsonStringValue, List.append_assoc, List.cons_append, List.nil_append]

/-- An obstacle is serialised well exactly under these conditions. -/
theorem serialised_iff (obj : PointCloudObstacle)
    (coordinates : ∀ d ∈ obj.points, d.isNan = true ∨ d.isFinite = true) :
    obj.Serialised ↔ obj.Encodable := by
  constructor
  · intro serialised
    obtain ⟨m, fragment, members, ended, read, -⟩ := serialised.document
    have short : obj.points.length < 2 ^ 32 := by
      by_contra long
      obtain ⟨loop, running⟩ := advance_long (not_lt.mp long) m obj.start
      cases ended.symm.trans running
    obtain ⟨n, settled⟩ := after_getJsonStringPointCloud short
    cases known : getJsonStringPointCloud obj with
    | none =>
      rw [known] at settled
      exact absurd settled (serialised.inside n)
    | some given =>
      rw [known] at settled
      obtain rfl := PointOutcome.ended.inj (iterate_settled settled ended rfl rfl)
      obtain ⟨texts, texted, -⟩ := Option.map_eq_some_iff.mp known
      obtain ⟨name, pointsize⟩ := readable_of_reads known read
      exact ⟨name, pointsize, pointTexts_eq_some.mp ⟨texts, texted⟩, short⟩
  · intro encodable
    obtain ⟨texts, texted⟩ := pointTexts_eq_some.mpr encodable.points
    obtain ⟨fragment, known⟩ : ∃ fragment, getJsonStringPointCloud obj = some fragment :=
      ⟨_, Option.map_eq_some_iff.mpr ⟨texts, texted, rfl⟩⟩
    obtain ⟨n, settled⟩ := after_getJsonStringPointCloud encodable.length
    rw [known] at settled
    obtain ⟨members, read, points⟩ := fragment_reads encodable coordinates known
    exact {
      inside := fun m past => by cases iterate_settled past settled rfl rfl
      document := ⟨n, fragment, members, settled, read, points⟩ }

/-- Points with a NaN in front and at the end, the last one cut off. -/
theorem nan_at_both_ends :
    Serialised ⟨lit "cloud", [.nan, .zero, .zero, .zero, .zero, .zero, .nan], Double.ofInt 1⟩ :=
  (serialised_iff _ (by decide)).mpr ⟨⟨lit "cloud", rfl⟩, rfl, .inr ⟨.nan, List.mem_cons_self, rfl⟩, by decide⟩

/-- A coordinate behind the last triple that is a number is taken for a point. -/
theorem cut_point_read : ¬∀ obj :
    PointCloudObstacle, (∀ d ∈ obj.points, d.isNan = true ∨ d.isFinite = true) → obj.Serialised := by
  intro all
  have serialised := all ⟨lit "cloud", [.zero, .zero, .zero, .zero], Double.ofInt 1⟩ (by decide)
  exact serialised.inside 2 rfl

end PointCloudObstacle

end MujinClient
