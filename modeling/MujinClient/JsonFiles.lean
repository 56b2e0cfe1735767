import MujinClient.HttpReply

/-! Reading a file for the parser, whatever size it is reported to have and however the reads of it
are cut short or interrupted. -/
namespace MujinClient

inductive ReadOutcome where
  /-- These bytes are next in the file; as many are read as there is room for. There are none at the end. -/
  | got (data : Text)
  /-- -1 with `EINTR`. -/
  | interrupted
  /-- -1 with another error. -/
  | failed
  deriving DecidableEq

namespace ReadOutcome

def within (n : Nat) : ReadOutcome → ReadOutcome
  | got data => got (data.take n)
  | other => other

def bytes : ReadOutcome → Text
  | got data => data
  | _ => []

/-- The file ends here, or cannot be read on. -/
def isLast : ReadOutcome → Bool
  | got data => data.isEmpty
  | interrupted => false
  | failed => true

end ReadOutcome

/-- A call `read(fd, buffer + offset, size)`, while the buffer has room for `capacity` bytes. -/
structure ReadCall where
  offset : Nat
  size : Nat
  capacity : Nat
  outcome : ReadOutcome

/-- `nFileSize` or `offset` bytes of the buffer hold what has been read. -/
structure FileBuffer where
  bytes : Text
  filled : Nat

inductive FileEnding where
  /-- There are further reads to come. -/
  | reading
  | threw (e : Thrown)
  /-- `ParseJson` is called on these bytes. -/
  | read (text : Text)

structure ReadRun where
  calls : List ReadCall
  ending : FileEnding

def ReadRun.behind (call : ReadCall) (run : ReadRun) : ReadRun := ⟨call :: run.calls, run.ending⟩

/-- What a block holds once it has the given size, if there is memory for that. -/
abbrev Heap := Nat → Option (Nat → Byte)

namespace FileBuffer

def contents (b : FileBuffer) : Text := b.bytes.take b.filled

/-- What `read` writes behind the bytes that are there. -/
def write (b : FileBuffer) (data : Text) : FileBuffer :=
  ⟨b.bytes.take b.filled ++ data ++ b.bytes.drop (b.filled + data.length), b.filled + data.length⟩

end FileBuffer

namespace JsonFile

def couldNotRead (filename : Text) : Thrown :=
  .load (.message (lit "Could not read file data from Json file '" ++ filename ++ lit "'"))

def isEmpty (filename : Text) : Thrown := .load (.message (lit "JSON file '" ++ filename ++ lit "' is empty"))

def noMemory : Thrown := .load (.message (lit "Could not allocate memory"))

def finish (filename : Text) (b : FileBuffer) : FileEnding :=
  if b.filled = 0 then .threw (isEmpty filename) else .read b.contents

/-- Both loops: the buffer is prepared, `size` bytes are asked for, and after a read that is not the
last one the loop goes on while `again`. -/
def readLoop (prepare : FileBuffer → Option FileBuffer) (size : FileBuffer → Nat) (again : FileBuffer → Bool)
    (filename : Text) : FileBuffer → List ReadOutcome → ReadRun
  | _, [] => ⟨[], .reading⟩
  | b, outcome :: rest =>
    match prepare b with
    | none => ⟨[], .threw noMemory⟩
    | some b =>
      let call : ReadCall := ⟨b.filled, size b, b.bytes.length, outcome.within (size b)⟩
      match call.outcome with
      | .failed => ⟨[call], .threw (couldNotRead filename)⟩
      | .interrupted =>
        if again b then (readLoop prepare size again filename b rest).behind call else ⟨[call], finish filename b⟩
      | .got data =>
        if data.isEmpty then ⟨[call], finish filename b⟩
        else if again (b.write data) then (readLoop prepare size again filename (b.write data) rest).behind call
        else ⟨[call], finish filename (b.write data)⟩

def nChunkSize : Nat := 4096

def extend (heap : Heap) (bytes : Text) (n : Nat) : Option Text :=
  (heap n).map fun block => bytes ++ (List.range (n - bytes.length)).map fun i => block (bytes.length + i)

/-- `realloc`, unless there is room for a chunk. -/
def grow (heap : Heap) (b : FileBuffer) : Option FileBuffer :=
  if b.bytes.length - b.filled < nChunkSize then
    (extend heap b.bytes (b.bytes.length + nChunkSize)).map fun bytes => ⟨bytes, b.filled⟩
  else some b

/-- The branch for a reported size of 0. -/
def readGrowing (heap : Heap) (filename : Text) (outcomes : List ReadOutcome) : ReadRun :=
  match extend heap [] nChunkSize with
  | none => ⟨[], .threw noMemory⟩
  | some bytes =>
    readLoop (grow heap) (fun b => b.bytes.length - b.filled) (fun _ => true) filename ⟨bytes, 0⟩ outcomes

/-- `buffer.resize(n)` -/
def resize (buffer : Text) (n : Nat) : Text := buffer.take n ++ List.replicate (n - buffer.length) 0

/-- The branch for another size. The buffer is the caller's, and `resize` throws an exception of its own. -/
def readSized (heap : Heap) (filename buffer : Text) (st_size : Nat) (outcomes : List ReadOutcome) : ReadRun :=
  match heap st_size with
  | none => ⟨[], .threw .standard⟩
  | some _ =>
    readLoop some (fun b => st_size - b.filled) (fun b => b.filled < st_size) filename
      ⟨resize buffer st_size, 0⟩ outcomes

/-- `ParseJsonFile`, given whether the file can be opened and the size that `fstat` reports. -/
def parseJsonFile (heap : Heap) (opened : Bool) (fs : Option Nat) (filename buffer : Text)
    (outcomes : List ReadOutcome) : ReadRun :=
  if !opened then ⟨[], .threw (.load (.message (lit "Could not open Json file " ++ filename)))⟩
  else
    match fs with
    | none => ⟨[], .threw (.load (.message (lit "Could not get file stats of Json file " ++ filename)))⟩
    | some st_size =>
      if st_size = 0 then readGrowing heap filename outcomes
      else readSized heap filename buffer st_size outcomes

def received (calls : List ReadCall) : Text := calls.flatMap fun call => call.outcome.bytes

/-- Every call reads to the place behind what has been read so far, into the buffer and no more than
fits there. -/
def Placed (filled : Nat) : List ReadCall → Prop
  | [] => True
  | call :: rest => call.offset = filled ∧ 0 < call.size ∧ call.offset + call.size ≤ call.capacity ∧
      call.outcome.bytes.length ≤ call.size ∧ Placed (filled + call.outcome.bytes.length) rest

/-- The end that reading comes to: an error and an empty file are thrown, anything else is parsed. -/
def expected (filename text : Text) (calls : List ReadCall) : FileEnding :=
  if calls.any fun call => call.outcome = .failed then .threw (couldNotRead filename)
  else if (text ++ received calls).isEmpty then .threw (isEmpty filename)
  else .read (text ++ received calls)

/-- Behind `text` this call is the last one: the file ends, cannot be read on, or is as long as it
should be. -/
def EndsWith (full : Nat → Prop) (text : Text) (call : ReadCall) : Prop :=
  call.outcome.isLast = true ∨ full (text ++ call.outcome.bytes).length

/-- A run that goes on from where `text` has been read. Its calls have the outcomes in turn, up to
the first one that ends it, or up to an allocation that fails. -/
structure Reads (heap : Heap) (full : Nat → Prop) (reserve : Nat) (filename text : Text)
    (outcomes : List ReadOutcome) (run : ReadRun) : Prop where
  placed : Placed text.length run.calls
  answered : List.Forall₂ (fun call outcome => call.outcome = outcome.within call.size) run.calls
    (outcomes.take run.calls.length)
  ends : outcomes.any ReadOutcome.isLast = true → run.ending ≠ .reading
  stops : ∀ before call after, run.calls = before ++ call :: after → EndsWith full (text ++ received before) call →
    after = [] ∧ run.ending = expected filename text run.calls
  ending : (∃ before call, run.calls = before ++ [call] ∧ EndsWith full (text ++ received before) call) ∨
    (run.calls.length = outcomes.length ∧ run.ending = .reading) ∨
    ∃ n e, heap n = none ∧ n ≤ reserve + (text ++ received run.calls).length ∧ run.ending = .threw e

theorem contents_length {b : FileBuffer} (inside : b.filled ≤ b.bytes.length) : b.contents.length = b.filled := by
  rw [FileBuffer.contents, List.length_take, Nat.min_eq_left inside]

theorem write_contents {b : FileBuffer} {data : Text} (fits : b.filled + data.length ≤ b.bytes.length) :
    (b.write data).contents = b.contents ++ data := by
  have front : (b.bytes.take b.filled ++ data).length = b.filled + data.length := by
    rw [List.length_append, List.length_take, Nat.min_eq_left (by omega)]
  rw [FileBuffer.contents, FileBuffer.write]
  dsimp only
  rw [← front, List.take_left]
  rfl

theorem write_length {b : FileBuffer} {data : Text} (fits : b.filled + data.length ≤ b.bytes.length) :
    (b.write data).bytes.length = b.bytes.length := by
  simp only [FileBuffer.write, List.length_append, List.length_take, List.length_drop]
  omega

variable {heap : Heap} {full : Nat → Prop} {reserve : Nat} {filename text : Text}
    {outcomes : List ReadOutcome} {run : ReadRun} {call : ReadCall} {outcome : ReadOutcome}

theorem expected_cons (calls : List ReadCall) (good : call.outcome ≠ .failed) :
    expected filename text (call :: calls) = expected filename (text ++ call.outcome.bytes) calls := by
  simp [expected, received, good]

/-- A call that reads to the right place, in front of what the rest of the run does. -/
theorem Reads.behind (reads : Reads heap full reserve filename (text ++ call.outcome.bytes) outcomes run)
    (offset : call.offset = text.length)
    (positive : 0 < call.size) (inside : call.offset + call.size ≤ call.capacity)
    (fits : call.outcome.bytes.length ≤ call.size) (answer : call.outcome = outcome.within call.size)
    (more : ¬EndsWith full text call) (first : outcome.isLast = false) :
    Reads heap full reserve filename text (outcome :: outcomes) (run.behind call) where
  placed := by
    have placed := reads.placed
    rw [List.length_append] at placed
    exact ⟨offset, positive, inside, fits, placed⟩
  answered := by
    rw [ReadRun.behind, List.length_cons, List.take_succ_cons]
    exact .cons answer reads.answered
  ends := by
    intro last
    rw [List.any_cons, first, Bool.false_or] at last
    exact reads.ends last
  stops := by
    intro before other after shape ends
    have good : call.outcome ≠ .failed := by
      intro failed
      exact more (.inl (by rw [failed]; rfl))
    rcases List.cons_eq_append_iff.mp shape with ⟨rfl, same⟩ | ⟨before, rfl, later⟩
    · obtain ⟨rfl, -⟩ := List.cons.inj same
      exact absurd (by simpa [received] using ends) more
    · have shifted : EndsWith full (text ++ call.outcome.bytes ++ received before) other := by
        simpa [received] using ends
      obtain ⟨none, expects⟩ := reads.stops before other after later shifted
      exact ⟨none, expects.trans (expected_cons run.calls good).symm⟩
  ending := by
    rcases reads.ending with ⟨before, last, shape, ends⟩ | ⟨all, going⟩ | ⟨n, e, out, bound, threw⟩
    · refine .inl ⟨call :: before, last, by rw [ReadRun.behind, shape]; rfl, ?_⟩
      simpa [received] using ends
    · exact .inr (.inl ⟨by rw [ReadRun.behind, List.length_cons, all, List.length_cons], going⟩)
    · refine .inr (.inr ⟨n, e, out, bound.trans (le_of_eq ?_), threw⟩)
      simp [ReadRun.behind, received]

theorem reads_last (offset : call.offset = text.length) (positive : 0 < call.size)
    (inside : call.offset + call.size ≤ call.capacity) (fits : call.outcome.bytes.length ≤ call.size)
    (answer : call.outcome = outcome.within call.size) (last : EndsWith full text call) {ending : FileEnding}
    (expects : ending = expected filename text [call]) :
    Reads heap full reserve filename text (outcome :: outcomes) ⟨[call], ending⟩ where
  placed := ⟨offset, positive, inside, fits, trivial⟩
  answered := .cons answer .nil
  ends := by
    intro _ same
    rw [expects, expected] at same
    split at same
    · cases same
    · split at same <;> cases same
  stops := by
    intro before other after shape _
    rcases List.cons_eq_append_iff.mp shape with ⟨rfl, same⟩ | ⟨before, rfl, later⟩
    · exact ⟨(List.cons.inj same).2, expects⟩
    · simp at later
  ending := .inl ⟨[], call, rfl, by simpa [received] using last⟩

theorem finish_expected {b : FileBuffer} (good : call.outcome ≠ .failed) (filled : b.filled = b.contents.length)
    (contents : b.contents = text ++ call.outcome.bytes) : finish filename b = expected filename text [call] := by
  have all : text ++ received [call] = b.contents := by simp [received, contents]
  have none : ([call].any fun call => call.outcome = .failed) = false := by simp [good]
  simp only [finish, expected, all, none, filled, List.length_eq_zero_iff, List.isEmpty_iff]
  rfl

theorem reads_nothing (out : heap n = none) (bound : n ≤ reserve + text.length) (e : Thrown) :
    Reads heap full reserve filename text outcomes ⟨[], .threw e⟩ where
  placed := trivial
  answered := .nil
  ends := by simp
  stops := by simp
  ending := .inr (.inr ⟨n, e, out, by simpa [received] using bound, rfl⟩)

/-- What a loop has to keep: before each read there is room, the bytes read stay where they are, and
it goes on until it is full. -/
structure Keeps (heap : Heap) (full : Nat → Prop) (reserve : Nat) (prepare : FileBuffer → Option FileBuffer)
    (size : FileBuffer → Nat) (again : FileBuffer → Bool) (Inv : FileBuffer → Prop) : Prop where
  room : ∀ b c, Inv b → prepare b = some c → c.contents = b.contents ∧ 0 < size c ∧
    c.filled + size c ≤ c.bytes.length
  out : ∀ b, Inv b → prepare b = none → ∃ n, heap n = none ∧ n ≤ reserve + b.contents.length
  unfilled : ∀ b, Inv b → ¬full b.filled
  retried : ∀ b c, Inv b → prepare b = some c → again c = true ∧ Inv c
  written : ∀ b c data, Inv b → prepare b = some c → data.length ≤ size c → again (c.write data) = true →
    Inv (c.write data)
  filled : ∀ b c data, Inv b → prepare b = some c → data.length ≤ size c → again (c.write data) = false →
    full (c.filled + data.length)

/-- By induction on the reads that are left. -/
theorem Keeps.reads {prepare : FileBuffer → Option FileBuffer} {size : FileBuffer → Nat}
    {again : FileBuffer → Bool}
    {Inv : FileBuffer → Prop} (keeps : Keeps heap full reserve prepare size again Inv) (filename : Text)
    (outcomes : List ReadOutcome) {b : FileBuffer} (inv : Inv b) :
    Reads heap full reserve filename b.contents outcomes (readLoop prepare size again filename b outcomes) := by
  induction outcomes generalizing b with
  | nil => exact ⟨trivial, .nil, by simp, by simp [readLoop], .inr (.inl ⟨rfl, rfl⟩)⟩
  | cons outcome rest ih =>
    rw [readLoop]
    cases prepared : prepare b with
    | none =>
      obtain ⟨n, out, bound⟩ := keeps.out b inv prepared
      exact reads_nothing out bound noMemory
    | some c =>
      obtain ⟨same, positive, inside⟩ := keeps.room b c inv prepared
      have length := contents_length (b := c) (by omega)
      rw [← same]
      cases outcome with
      | failed =>
        exact reads_last length.symm positive inside (Nat.zero_le _) rfl (.inl rfl)
          (by simp [expected, ReadOutcome.within])
      | interrupted =>
        obtain ⟨more, kept⟩ := keeps.retried b c inv prepared
        have later := ih kept
        dsimp only [ReadOutcome.within]
        rw [if_pos more]
        rw [← List.append_nil c.contents] at later
        refine later.behind length.symm positive inside (Nat.zero_le _) rfl ?_ rfl
        rintro (last | full)
        · cases last
        · rw [List.length_append, length] at full
          exact keeps.unfilled c kept full
      | got data =>
        have short : (data.take (size c)).length ≤ size c := List.length_take_le _ _
        have fits : c.filled + (data.take (size c)).length ≤ c.bytes.length := by omega
        have contents := write_contents fits
        dsimp only [ReadOutcome.within]
        split
        · rename_i nothing
          refine reads_last length.symm positive inside ?_ rfl (.inl ?_) ?_
          · exact short
          · exact nothing
          · rw [List.isEmpty_iff] at nothing
            exact finish_expected (by simp) length.symm (by simp [ReadOutcome.bytes, nothing])
        · rename_i something
          have first : (ReadOutcome.got data).isLast = false := by
            rw [Bool.not_eq_true, List.isEmpty_eq_false_iff] at something
            exact List.isEmpty_eq_false_iff.mpr fun none => something (by simp [none])
          split
          · rename_i more
            have kept := keeps.written b c _ inv prepared short more
            have later := ih kept
            rw [contents] at later
            refine later.behind length.symm positive inside short rfl ?_ first
            rintro (last | full)
            · exact something last
            · rw [List.length_append, length] at full
              exact keeps.unfilled _ kept full
          · rename_i enough
            have full := keeps.filled b c _ inv prepared short (by simpa using enough)
            refine reads_last length.symm positive inside ?_ rfl (.inr ?_) (finish_expected (by simp) ?_ contents)
            · exact short
            · rw [List.length_append, length]
              exact full
            · rw [contents, List.length_append, length]
              rfl

theorem grow_room {b c : FileBuffer} (inside : b.filled ≤ b.bytes.length) (prepared : grow heap b = some c) :
    c.contents = b.contents ∧ nChunkSize ≤ c.bytes.length - c.filled := by
  unfold grow at prepared
  split at prepared
  · obtain ⟨bytes, extended, rfl⟩ := Option.map_eq_some_iff.mp prepared
    obtain ⟨block, -, rfl⟩ := Option.map_eq_some_iff.mp extended
    simp only [FileBuffer.contents, List.length_append, List.length_map, List.length_range]
    exact ⟨List.take_append_of_le_length inside, by omega⟩
  · obtain rfl := Option.some.inj prepared
    exact ⟨rfl, by omega⟩

theorem keeps_grow (heap : Heap) :
    Keeps heap (fun _ => False) (2 * nChunkSize) (grow heap) (fun b => b.bytes.length - b.filled)
    (fun _ => true) fun b => b.filled ≤ b.bytes.length where
  room := by
    intro b c inside prepared
    obtain ⟨same, room⟩ := grow_room inside prepared
    unfold nChunkSize at room
    exact ⟨same, by omega, by omega⟩
  out := by
    intro b inside prepared
    unfold grow at prepared
    split at prepared
    · rename_i short
      refine ⟨_, Option.map_eq_none_iff.mp (Option.map_eq_none_iff.mp prepared), ?_⟩
      rw [contents_length inside]
      omega
    · cases prepared
  unfilled := fun _ _ never => never
  retried := by
    intro b c inside prepared
    have room := (grow_room inside prepared).2
    unfold nChunkSize at room
    exact ⟨rfl, by omega⟩
  written := by
    intro b c data inside prepared short _
    have room := (grow_room inside prepared).2
    unfold nChunkSize at room
    have fits : c.filled + data.length ≤ c.bytes.length := by omega
    rw [write_length fits]
    exact fits
  filled := by
    intro b c data _ _ _ ends
    cases ends

theorem keeps_sized (heap : Heap) (st_size reserve : Nat) :
    Keeps heap (fun n => st_size ≤ n) reserve some (fun b => st_size - b.filled) (fun b => b.filled < st_size)
      fun b => b.filled < st_size ∧ b.bytes.length = st_size where
  room := by
    rintro b c ⟨inside, length⟩ prepared
    obtain rfl := Option.some.inj prepared
    exact ⟨rfl, by omega, by omega⟩
  out := by simp
  unfilled := fun b inv full => absurd full (by omega)
  retried := by
    rintro b c inv prepared
    obtain rfl := Option.some.inj prepared
    exact ⟨decide_eq_true inv.1, inv⟩
  written := by
    rintro b c data ⟨inside, length⟩ prepared short more
    obtain rfl := Option.some.inj prepared
    exact ⟨by simpa using more, (write_length (by omega)).trans length⟩
  filled := by
    rintro b c data _ _ _ ends
    simpa [FileBuffer.write] using ends

theorem length_resize (buffer : Text) (n : Nat) : (resize buffer n).length = n := by
  simp only [resize, List.length_append, List.length_take, List.length_replicate]
  omega

theorem readGrowing_reads (heap : Heap) (filename : Text) (outcomes : List ReadOutcome) :
    Reads heap (fun _ => False) (2 * nChunkSize) filename [] outcomes (readGrowing heap filename outcomes) := by
  unfold readGrowing
  cases extended : extend heap [] nChunkSize with
  | none => exact reads_nothing (Option.map_eq_none_iff.mp extended) (by omega) noMemory
  | some bytes => exact (keeps_grow heap).reads filename outcomes (b := ⟨bytes, 0⟩) (Nat.zero_le _)

theorem readSized_reads (heap : Heap) (filename buffer : Text) {st_size : Nat} (sized : st_size ≠ 0)
    (outcomes : List ReadOutcome) :
    Reads heap (fun n => st_size ≤ n) (st_size + 2 * nChunkSize) filename [] outcomes
      (readSized heap filename buffer st_size outcomes) := by
  unfold readSized
  cases room : heap st_size with
  | none => exact reads_nothing room (by omega) .standard
  | some block =>
    exact (keeps_sized heap st_size _).reads filename outcomes (b := ⟨resize buffer st_size, 0⟩)
      ⟨Nat.pos_of_ne_zero sized, length_resize buffer st_size⟩

/-- A file of any reported size is read into the buffer, behind what is there of it, until it ends,
fails or, where a size is reported, has that size. What has been read is parsed; an error and an
empty file are thrown, and so is a file that cannot be opened. -/
theorem parseJsonFile_reads (heap : Heap) (filename buffer : Text) (outcomes : List ReadOutcome) :
    (∀ st_size, Reads heap (fun n => st_size ≠ 0 ∧ st_size ≤ n) (st_size + 2 * nChunkSize) filename [] outcomes
      (parseJsonFile heap true (some st_size) filename buffer outcomes)) ∧
    (∀ opened fs, opened = false ∨ fs = none →
      ∃ e, parseJsonFile heap opened fs filename buffer outcomes = ⟨[], .threw e⟩) := by
  constructor
  · intro st_size
    rw [parseJsonFile, if_neg (by simp)]
    split
    · rename_i unsized
      subst unsized
      simpa using readGrowing_reads heap filename outcomes
    · rename_i sized
      simpa [sized] using readSized_reads heap filename buffer sized outcomes
  · intro opened fs missing
    unfold parseJsonFile
    cases opened with
    | false => exact ⟨_, rfl⟩
    | true =>
      cases fs with
      | none => exact ⟨_, rfl⟩
      | some st_size => simp at missing

end JsonFile

end MujinClient
