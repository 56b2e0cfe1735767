import MujinClient.Loading
import MujinClient.Maps

/-! Loops that read one part after the other and add it to a target, and what a map holds after one. -/
namespace MujinClient

namespace Loading

variable {ε σ τ α β : Type} {put : α → σ → σ}

def forEach (p : α → Loading ε σ Unit) : List α → Loading ε σ Unit
  | [] => pure ()
  | x :: xs => p x >>= fun _ => forEach p xs

theorem lift_bind_eq_ok {outcome : Except ε α} {q : α → Loading ε σ β}
    (ran : (lift outcome >>= q) s = (.ok b, final)) :
    ∃ a, outcome = .ok a ∧ q a s = (.ok b, final) := by
  cases outcome with
  | error e => cases ran
  | ok a => exact ⟨a, rfl, ran⟩

theorem zoom_eq_ok {view : σ → τ} {put : τ → σ → σ} {p : Loading ε τ α}
    (ran : (zoom view put p : Loading ε σ α) s = (.ok a, final)) :
    ∃ x, p (view s) = (.ok a, x) ∧ final = put x s := by
  obtain ⟨returned, rfl⟩ := Prod.mk.inj ran
  exact ⟨_, Prod.ext returned rfl, rfl⟩

/-- A run that returns has read a value, whatever the target, and put it there. -/
def Performs (p : Loading ε σ Unit) (read : Except ε α) (put : α → σ → σ) : Prop :=
  ∀ s s', p s = (.ok (), s') → ∃ a, read = .ok a ∧ s' = put a s

theorem performs_assign (put : α → σ → σ) (outcome : Except ε α) : Performs (assign put outcome) outcome put := by
  intro s s' ran
  obtain ⟨a, read, ran⟩ := lift_bind_eq_ok ran
  exact ⟨a, read, (Prod.mk.inj ran).2.symm⟩

/-- The parts are read in turn, and put there in turn. -/
theorem performs_forEach {p : β → Loading ε σ Unit} {read : β → Except ε α}
    (each : ∀ x, Performs (p x) (read x) put) (xs : List β) :
    Performs (forEach p xs) (xs.mapM read) fun parts s => parts.foldl (fun s a => put a s) s := by
  induction xs with
  | nil => exact fun s s' ran => ⟨[], rfl, (Prod.mk.inj ran).2.symm⟩
  | cons x xs ih =>
    intro s s' ran
    obtain ⟨_, middle, first, rest⟩ := bind_eq_ok ran
    obtain ⟨a, readFirst, rfl⟩ := each x s middle first
    obtain ⟨parts, readRest, rfl⟩ := ih _ s' rest
    refine ⟨a :: parts, ?_, rfl⟩
    rw [List.mapM_cons, readFirst, readRest]
    rfl

/-- What is read along with a position is what is read without. -/
theorem mapM_of_zipIdx (xs : List α) (read : α → Except ε β) (along : Nat → τ) (start : Nat) {parts : List (β × τ)}
    (ran : (xs.zipIdx start).mapM (fun x => (read x.1).map fun b => (b, along x.2)) = .ok parts) :
    xs.mapM read = .ok (parts.map Prod.fst) := by
  induction xs generalizing start parts with
  | nil =>
    obtain rfl := Except.ok.inj ran
    rfl
  | cons x xs ih =>
    rw [List.zipIdx_cons, List.mapM_cons] at ran
    cases first : read x with
    | error e =>
      rw [first] at ran
      cases ran
    | ok b =>
      cases rest : (xs.zipIdx (start + 1)).mapM fun x => (read x.1).map fun b => (b, along x.2) with
      | error e =>
        rw [first, rest] at ran
        cases ran
      | ok others =>
        rw [first, rest] at ran
        obtain rfl := Except.ok.inj ran
        rw [List.mapM_cons, first, ih (start + 1) rest]
        rfl

/-- Reads that succeed are put there in turn. -/
theorem forEach_assign (put : α → σ → σ) {read : β → Except ε α} {source : τ → β} {value : τ → α} (xs : List τ)
    (each : ∀ x ∈ xs, read (source x) = .ok (value x)) (s : σ) :
    forEach (fun y => assign put (read y))
    (xs.map source) s = (.ok (), (xs.map value).foldl (fun s a => put a s) s) := by
  induction xs generalizing s with
  | nil => rfl
  | cons x xs ih =>
    have step : assign put (read (source x)) s = (.ok (), put (value x) s) := by
      rw [each x List.mem_cons_self]; rfl
    exact (bind_ok step).trans (ih (fun y later => each y (List.mem_cons_of_mem _ later)) _)

/-- The computation returns, and `f` gives the target after it. -/
def Makes (p : Loading ε σ Unit) (f : σ → σ) : Prop := ∀ s, p s = (.ok (), f s)

theorem Makes.bind {p : Loading ε σ Unit} {q : Unit → Loading ε σ Unit} {f g : σ → σ} (first : Makes p f)
    (second : Makes (q ()) g) : Makes (p >>= q) (g ∘ f) := by
  intro s
  rw [bind_ok (first s)]
  exact second (f s)

theorem Makes.congr {p : Loading ε σ Unit} {f g : σ → σ} (made : Makes p f) (same : ∀ s, f s = g s) :
    Makes p g := by
  intro s
  rw [made s, same s]

theorem makes_lift_bind {outcome : Except ε α} {q : α → Loading ε σ Unit} {f : σ → σ}
    (known : outcome = .ok a) (rest : Makes (q a) f) : Makes (lift outcome >>= q) f := by
  subst known
  exact rest

theorem makes_update (f : σ → σ) : Makes (update f : Loading ε σ Unit) f := fun _ => rfl

theorem makes_assign {outcome : Except ε α} (known : outcome = .ok a) : Makes (assign put outcome) (put a) := by
  intro s
  rw [known]
  rfl

theorem makes_zoom {view : σ → τ} {put : τ → σ → σ} {p : Loading ε τ Unit} (inner : Makes p fun _ => x) :
    Makes (zoom view put p) (put x) := by
  intro s
  rw [zoom_apply, inner]

variable {related : σ → σ → Prop}

def Moves (related : σ → σ → Prop) (p : Loading ε σ Unit) : Prop := ∀ s s', p s = (.ok (), s') → related s s'

theorem moves_update {f : σ → σ} (each : ∀ s, related s (f s)) : Moves related (update f : Loading ε σ Unit) := by
  intro s s' ran
  obtain rfl := (Prod.mk.inj ran).2
  exact each s

theorem moves_assign {outcome : Except ε α} (each : ∀ a, outcome = .ok a → ∀ s, related s (put a s)) :
    Moves related (assign put outcome) := by
  intro s s' ran
  obtain ⟨a, known, rfl⟩ := performs_assign put outcome s s' ran
  exact each a known s

theorem moves_zoom {view : σ → τ} {put : τ → σ → σ} {p : Loading ε τ Unit} (each : ∀ x s, related s (put x s)) :
    Moves related (zoom view put p) := by
  intro s s' ran
  obtain ⟨x, -, rfl⟩ := zoom_eq_ok ran
  exact each x s

theorem moves_ite {c : Prop} [Decidable c] {p q : Loading ε σ Unit} (yes : c → Moves related p)
    (no : ¬c → Moves related q) :
    Moves related (if c then p else q) := by
  split
  · exact yes ‹_›
  · exact no ‹_›

/-- After a loop a part of the target is what it was, or what an element has made it. -/
theorem forEach_origin {p : β → Loading ε σ Unit} (part : σ → τ) {gives : β → τ → Prop}
    (each : ∀ x, Moves (fun s s' => part s' = part s ∨ gives x (part s')) (p x)) (xs : List β)
    (ran : forEach p xs s = (.ok (), s')) :
    part s' = part s ∨ ∃ x ∈ xs, gives x (part s') := by
  induction xs generalizing s with
  | nil => exact .inl (congrArg part (Prod.mk.inj ran).2.symm)
  | cons x xs ih =>
    obtain ⟨_, middle, first, rest⟩ := bind_eq_ok ran
    rcases ih rest with same | ⟨y, inside, given⟩
    · rcases each x s middle first with before | given
      · exact .inl (same.trans before)
      · exact .inr ⟨x, List.mem_cons_self, same ▸ given⟩
    · exact .inr ⟨y, List.mem_cons_of_mem _ inside, given⟩

end Loading

namespace SortedMap

variable {K V E F : Type} [LinearOrder K] {m n : SortedMap K V} {key : K} {name : E → K} {parts : List E}

/-- Each key has the value that is listed for it, the last one if there are several. Where no value is
shown for the last one, no map will do. -/
def HoldsListed (m : SortedMap K V) (listed : List (K × Option V)) : Prop :=
  ∀ key, (m.find? key).map some = findEntry listed.reverse key

theorem HoldsListed.unique (first : m.HoldsListed listed) (second : n.HoldsListed listed) : m = n :=
  ext_find? fun key => Option.map_injective (Option.some_injective V) ((first key).trans (second key).symm)

def lastNamed (name : E → K) (parts : List E) (key : K) : Option E := parts.reverse.find? fun e => name e = key

theorem findEntry_lastNamed (name : E → K) (parts : List E) (f : E → V) (key : K) :
    findEntry (parts.map fun e => (name e, f e)).reverse key = (lastNamed name parts key).map f := by
  have each : ∀ l : List E, findEntry (l.map fun e => (name e, f e)) key =
      (l.find? fun e => name e = key).map f := by
    intro l
    induction l with
    | nil => rfl
    | cons e l ih =>
      by_cases same : name e = key
      · simp [findEntry, same]
      · simp [findEntry, same, ih]
  rw [← List.map_reverse, each, lastNamed]

theorem lastNamed_eq_none : lastNamed name parts key = none ↔ ∀ e ∈ parts, name e ≠ key := by
  simp [lastNamed]

def OnlyNamed (name : E → K) (parts : List E) (m : SortedMap K V) : Prop :=
  ∀ key, m.find? key ≠ none → ∃ e ∈ parts, name e = key

def ShownLast (name : E → K) (shown : E → Option V) (parts : List E) : Prop :=
  ∀ key, ∀ e ∈ lastNamed name parts key, shown e ≠ none

/-- A loop that inserts the parts leaves what they list if no other key was there, and what is inserted
last under each name is what is shown. -/
theorem holdsListed_insertAll_iff (name : E → K) (m : SortedMap K V) (value : E → V) (shown : E → Option V)
    (faithful : ∀ e ∈ parts, shown e = none ∨ shown e = some (value e)) :
    (m.insertAll (parts.map fun e => (name e, value e))).HoldsListed (parts.map fun e => (name e, shown e)) ↔
      m.OnlyNamed name parts ∧ ShownLast name shown parts := by
  rw [OnlyNamed, ShownLast, ← forall_and]
  refine forall_congr' fun key => ?_
  rw [find?_insertAll, findEntry_lastNamed, findEntry_lastNamed]
  cases last : lastNamed name parts key with
  | none =>
    have absent := lastNamed_eq_none.mp last
    have none : ¬∃ e ∈ parts, name e = key := by simpa using absent
    simp [none]
  | some e =>
    have found := List.mem_of_find?_eq_some last
    have inside : e ∈ parts := List.mem_reverse.mp found
    have named : name e = key := by simpa using List.find?_some last
    have present : ∃ e ∈ parts, name e = key := ⟨e, inside, named⟩
    rcases faithful e inside with hidden | same
    · simp [hidden]
    · simp [same, present]

/-- Parts that show all of their values leave what they list if no other key was there. -/
theorem holdsListed_insertAll_shown_iff (name : E → K) (m : SortedMap K V) (value : E → V) :
    (m.insertAll (parts.map fun e => (name e, value e))).HoldsListed
      (parts.map fun e => (name e, some (value e))) ↔
      m.OnlyNamed name parts := by
  rw [holdsListed_insertAll_iff name m value (fun e => some (value e)) fun _ _ => .inr rfl]
  exact and_iff_left fun _ _ _ => Option.some_ne_none _

theorem lastNamed_map (f : F → E) (parts : List F) (key : K) :
    lastNamed name (parts.map f) key = (lastNamed (fun e => name (f e)) parts key).map f := by
  rw [lastNamed, ← List.map_reverse, List.find?_map]
  rfl

/-- The same for parts that are made from others, each along with a value. -/
theorem holdsListed_insertAll_map_iff (name : E → K) (m : SortedMap K V) (f : F → E) {made : List F}
    (value : F → V) (shown : E → Option V)
    (faithful : ∀ e ∈ made, shown (f e) = none ∨ shown (f e) = some (value e)) :
    (m.insertAll (made.map fun e => (name (f e), value e))).HoldsListed
      ((made.map f).map fun e => (name e, shown e)) ↔
      m.OnlyNamed name (made.map f) ∧ ShownLast name shown (made.map f) := by
  have split := holdsListed_insertAll_iff (fun e => name (f e)) m value (fun e => shown (f e)) faithful
  rw [List.map_map]
  refine split.trans (and_congr ?_ ?_)
  · simp [OnlyNamed]
  · simp [ShownLast, lastNamed_map]

theorem holdsListed_insertAll_empty (entries : List (K × V)) :
    ((empty : SortedMap K V).insertAll entries).HoldsListed (entries.map fun e => (e.1, some e.2)) := by
  have nothing : (empty : SortedMap K V).OnlyNamed Prod.fst entries := fun key old => absurd (find?_empty key) old
  have filled := (holdsListed_insertAll_shown_iff Prod.fst .empty Prod.snd).mpr nothing
  rwa [List.map_id'' fun _ => rfl] at filled

/-- Entries above all that are there go to the end, in their order. -/
theorem entries_insertAll (rest : List (K × V)) (m : SortedMap K V)
    (sorted : (m.entries ++ rest).Pairwise fun a b => a.1 < b.1) :
    (m.insertAll rest).entries = m.entries ++ rest := by
  induction rest generalizing m with
  | nil => simp
  | cons entry rest ih =>
    have above : ∀ old ∈ m.entries, old.1 < entry.1 := fun old inside =>
      (List.pairwise_append.mp sorted).2.2 old inside entry List.mem_cons_self
    have placed : (m.insert entry.1 entry.2).entries = m.entries ++ [entry] := insertEntry_above above
    have later : ((m.insert entry.1 entry.2).entries ++ rest).Pairwise fun a b => a.1 < b.1 := by
      rwa [placed, List.append_assoc]
    rw [insertAll_cons, ih _ later, placed, List.append_assoc]
    rfl

theorem insertAll_entries (m : SortedMap K V) : (empty : SortedMap K V).insertAll m.entries = m :=
  ext_entries (entries_insertAll m.entries empty m.sorted)

/-- Give a key a value, or leave what it has, or the default. -/
def insertOr (m : SortedMap K V) (key : K) (start : V) (value : Option V) : SortedMap K V :=
  m.insert key (value.getD ((m.find? key).getD start))

def shownValues (name : E → K) (shown : E → Option V) (parts : List E) : List (K × V) :=
  parts.filterMap fun e => (shown e).map fun v => (name e, v)

theorem find?_foldl_insertOr (start : V) (shown : E → Option V) (parts : List E) (m : SortedMap K V) (key : K) :
    (parts.foldl (fun m e => m.insertOr (name e) start (shown e)) m).find? key =
      (findEntry (shownValues name shown parts).reverse key).or
        (if ∃ e ∈ parts, name e = key then some ((m.find? key).getD start) else m.find? key) := by
  unfold shownValues
  induction parts generalizing m with
  | nil => simp [findEntry]
  | cons e parts ih =>
    rw [List.foldl_cons, ih]
    by_cases same : name e = key
    · subst same
      cases value : shown e <;> by_cases later : ∃ f ∈ parts, name f = name e <;>
        simp [insertOr, value, later, findEntry, findEntry_append]
    · cases value : shown e <;>
        simp [insertOr, value, same, findEntry, findEntry_append, find?_insert_other, Ne.symm same]

theorem findEntry_map_some (entries : List (K × V)) (key : K) :
    findEntry (entries.map fun e => (e.1, some e.2)).reverse key = (findEntry entries.reverse key).map some := by
  have same := findEntry_lastNamed Prod.fst entries Prod.snd key
  rw [List.map_id'' (fun e => rfl)] at same
  rw [findEntry_lastNamed, same, Option.map_map]
  rfl

/-- Each name with the default, and with the values that are shown for it. -/
def listedOr (name : E → K) (start : V) (shown : E → Option V) (parts : List E) : List (K × Option V) :=
  parts.map (fun e => (name e, some start)) ++ (shownValues name shown parts).map fun e => (e.1, some e.2)

/-- Every key is the name of a part, and has the default or gets a value. -/
def OnlyNamedOr (name : E → K) (start : V) (shown : E → Option V) (parts : List E) (m : SortedMap K V) : Prop :=
  ∀ key x, m.find? key = some x → (∃ e ∈ parts, name e = key) ∧
    (x = start ∨ ∃ e ∈ parts, name e = key ∧ shown e ≠ none)

/-- Such a loop leaves what the parts list if every key that was there is listed, and had the default or
gets a value. -/
theorem holdsListed_insertOr_iff (start : V) (shown : E → Option V) (parts : List E) (m : SortedMap K V) :
    (parts.foldl (fun m e => m.insertOr (name e) start (shown e)) m).HoldsListed
      (listedOr name start shown parts) ↔
      m.OnlyNamedOr name start shown parts := by
  unfold listedOr
  refine forall_congr' fun key => ?_
  rw [find?_foldl_insertOr, List.reverse_append, findEntry_append, findEntry_map_some, findEntry_lastNamed]
  cases found : findEntry (shownValues name shown parts).reverse key with
  | some v =>
    obtain ⟨e, inside, given⟩ := List.mem_filterMap.mp (List.mem_reverse.mp (mem_of_findEntry found))
    obtain ⟨u, known, named⟩ := Option.map_eq_some_iff.mp given
    have present : name e = key := (Prod.mk.inj named).1
    exact iff_of_true rfl fun x _ => ⟨⟨e, inside, present⟩, .inr ⟨e, inside, present, by simp [known]⟩⟩
  | none =>
    have hidden : ¬∃ e ∈ parts, name e = key ∧ shown e ≠ none := by
      rintro ⟨e, inside, named, given⟩
      obtain ⟨v, known⟩ := Option.ne_none_iff_exists'.mp given
      refine findEntry_eq_none_iff.mp found (key, v)
        (List.mem_reverse.mpr (List.mem_filterMap.mpr ⟨e, inside, ?_⟩)) rfl
      rw [known, ← named]
      rfl
    by_cases present : ∃ e ∈ parts, name e = key
    · obtain ⟨e, last⟩ : ∃ e, lastNamed name parts key = some e :=
        Option.ne_none_iff_exists'.mp fun none => by
          obtain ⟨e, inside, named⟩ := present
          exact lastNamed_eq_none.mp none e inside named
      cases old : m.find? key <;> simp [last, present, hidden]
    · have absent : lastNamed name parts key = none := lastNamed_eq_none.mpr (by simpa using present)
      cases old : m.find? key <;> simp [absent, present]

end SortedMap

end MujinClient
