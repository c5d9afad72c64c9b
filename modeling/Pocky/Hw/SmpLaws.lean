import Pocky.Hw.Smp

/-! When both walks over the table of processors come to its end without leaving it. -/

namespace Pocky

/-- How many bytes of an entry are looked at for a processor. -/
def cpuNeed (type : UInt8) : Nat := if type = 0 then recordSize acpiMadtLocalApic else recordSize acpiMadtEntry

/-- How many bytes of an entry are looked at for an interrupt controller. -/
def ioApicNeed (type : UInt8) : Nat := if type = 1 then recordSize acpiMadtIoApic else recordSize acpiMadtEntry

/-- How many bytes an entry of a type has to have. -/
def entryNeed (type : UInt8) : Nat := max (cpuNeed type) (ioApicNeed type)

/-- Every entry from an offset on has a length, and all that is looked at lies inside the table. -/
inductive EntriesFit (table : Buffer) (length : Nat) (need : UInt8 → Nat) : Nat → Prop where
  | behind {entry : Nat} : length ≤ entry → EntriesFit table length need entry
  | next {entry : Nat} : entry < length → 0 < (table (entry + 1)).toNat →
    entry + need (table entry) ≤ length →
    EntriesFit table length need (entry + (table (entry + 1)).toNat) → EntriesFit table length need entry

namespace EntriesFit

variable {table : Buffer} {length entry : Nat} {need other : UInt8 → Nat}

/-- Entries that are long enough are long enough for less. -/
theorem mono (fit : EntriesFit table length need entry) (less : ∀ type, other type ≤ need type) :
    EntriesFit table length other entry := by
  induction fit with
  | behind past => exact .behind past
  | next before positive inside _ ih =>
    exact .next before positive (Nat.le_trans (Nat.add_le_add_left (less _) _) inside) ih

/-- Entries that are long enough for two needs are long enough for the greater one. -/
theorem max (fit : EntriesFit table length need entry) (also : EntriesFit table length other entry) :
    EntriesFit table length (fun type => Max.max (need type) (other type)) entry := by
  -- Both go through the same entries.
  induction fit with
  | behind past => exact .behind past
  | next before positive inside _ ih =>
    cases also with
    | behind past => exact absurd past (Nat.not_le_of_lt before)
    | next _ _ within rest =>
      apply next before positive _ (ih rest)
      rcases Nat.le_total (need (table _)) (other (table _)) with less | less
      · rwa [Nat.max_eq_right less]
      · rwa [Nat.max_eq_left less]

end EntriesFit

/-- A byte of the table is read inside a limit that is not before its end. -/
@[simp] theorem inside_readByte {table : Buffer} {limit offset : Nat} :
    (readByte table offset).Inside limit ↔ offset + 1 ≤ limit :=
  Traced.inside_read

/-- A word of the table takes four bytes. -/
@[simp] theorem inside_readWord {table : Buffer} {limit offset : Nat} :
    (readWord table offset).Inside limit ↔ offset + 4 ≤ limit :=
  Traced.inside_read

/-- A byte that is read is the one at its offset. -/
@[simp] theorem value_readByte {table : Buffer} {offset : Nat} : (readByte table offset).value = table offset :=
  rfl

/-- A word that is read is the one at its offset. -/
@[simp] theorem value_readWord {table : Buffer} {offset : Nat} :
    (readWord table offset).value = wordAt table offset :=
  rfl

/-- The length of an entry is its second byte. -/
@[simp] theorem offsetOf_entryLength : offsetOf acpiMadtEntry 1 = 1 := by
  decide

section Loop

variable {σ : Type} {table : Buffer} {length : Nat} {visit : Nat → σ → Traced σ} {need : UInt8 → Nat}

/-- Going through entries that fit comes to an end. -/
theorem entryLoop_ends {entry : Nat} (fit : EntriesFit table length need entry) (state : σ) :
    ∃ rounds, (entryLoop table length visit rounds entry state).value.isSome := by
  -- Every entry takes one round, and one more tells that there is none left.
  induction fit generalizing state with
  | behind past =>
    use 1
    rw [entryLoop, if_neg (Nat.not_lt_of_le past)]
    rfl
  | next before _ _ _ ih =>
    obtain ⟨rounds, ends⟩ := ih (visit _ state).value
    use rounds + 1
    rw [entryLoop, if_pos before]
    exact ends

/-- Whether an entry is looked at inside the table depends on its type alone. -/
def VisitsWithin (table : Buffer) (length : Nat) (visit : Nat → σ → Traced σ) (need : UInt8 → Nat) : Prop :=
  ∀ entry state, (visit entry state).Inside length ∧ entry + 2 ≤ length ↔ entry + need (table entry) ≤ length

/-- Going through entries that fit reads nothing outside of the table. -/
theorem entryLoop_inside (within : VisitsWithin table length visit need) {entry : Nat}
    (fit : EntriesFit table length need entry) (rounds : Nat) (state : σ) :
    (entryLoop table length visit rounds entry state).Inside length := by
  induction fit generalizing rounds state with
  | behind past =>
    cases rounds with
    | zero => exact Traced.inside_pure length none
    | succ rounds =>
      rw [entryLoop, if_neg (Nat.not_lt_of_le past)]
      exact Traced.inside_pure length (some state)
  | next before _ inside _ ih =>
    cases rounds with
    | zero => exact Traced.inside_pure length none
    | succ rounds =>
      rw [entryLoop, if_pos before]
      obtain ⟨visited, header⟩ := (within _ state).mpr inside
      -- The visit, the length of the entry, and the rounds to come.
      exact Traced.inside_bind.mpr ⟨visited, Traced.inside_bind.mpr ⟨inside_readByte.mpr header, ih _ _⟩⟩

/-- Where going through the entries comes to an end inside the table, they fit. -/
theorem entryLoop_fits (within : VisitsWithin table length visit need) {rounds entry : Nat} {state : σ}
    (ends : (entryLoop table length visit rounds entry state).value.isSome)
    (inside : (entryLoop table length visit rounds entry state).Inside length) :
    EntriesFit table length need entry := by
  -- By induction on the rounds.
  induction rounds generalizing entry state with
  | zero => cases ends
  | succ rounds ih =>
    by_cases before : entry < length
    · rw [entryLoop, if_pos before] at ends inside
      obtain ⟨visited, rest⟩ := Traced.inside_bind.mp inside
      obtain ⟨header, others⟩ := Traced.inside_bind.mp rest
      have fits := (within entry state).mp ⟨visited, inside_readByte.mp header⟩
      have following := ih ends others
      rcases Nat.eq_zero_or_pos (table (entry + 1)).toNat with stuck | positive
      -- The next round is at the same entry, which fits all the same.
      · change EntriesFit table length need (entry + (table (entry + 1)).toNat) at following
        rwa [stuck] at following
      · exact .next before positive fits following
    · exact .behind (Nat.le_of_not_lt before)

/-- Going through the entries ends inside the table exactly if they fit. -/
theorem entryLoop_meets_iff (within : VisitsWithin table length visit need) (entry : Nat) (state : σ) :
    ((∃ rounds, (entryLoop table length visit rounds entry state).value.isSome) ∧
      ∀ rounds, (entryLoop table length visit rounds entry state).Inside length) ↔
    EntriesFit table length need entry := by
  constructor
  · rintro ⟨⟨rounds, ends⟩, inside⟩
    exact entryLoop_fits within ends (inside rounds)
  · intro fit
    exact ⟨entryLoop_ends fit state, fun rounds => entryLoop_inside within fit rounds state⟩

end Loop

/-- How far a processor's entry is looked at. -/
theorem detectCpu_within {table : Buffer} {length : Nat} (covered : recordSize acpiMadt ≤ length)
    (apicBase : BitVec 64) : VisitsWithin table length (detectCpu table apicBase) cpuNeed := by
  intro entry smp
  -- The address of the controllers is not in the entry, but in front of all entries.
  have controllers : offsetOf acpiMadt 1 + 4 ≤ length := Nat.le_trans (by decide) covered
  have flags : offsetOf acpiMadtLocalApic 4 = 4 := by decide
  have number : offsetOf acpiMadtLocalApic 3 = 3 := by decide
  by_cases processor : table entry = 0
  · have need : cpuNeed 0 = 8 := by decide
    by_cases enabled : wordAt table (entry + 4) % 2 = 1
    · simp [detectCpu, processor, flags, number, enabled, need]
      omega
    · simp [detectCpu, processor, flags, enabled, need]
      omega
  · have need : cpuNeed (table entry) = 2 := by
      rw [cpuNeed, if_neg processor]
      decide
    simp [detectCpu, processor, need]
    omega

/-- How far an interrupt controller's entry is looked at. -/
theorem mapIoApic_within (table : Buffer) (length : Nat) :
    VisitsWithin table length (mapIoApic table) ioApicNeed := by
  intro entry memory
  have address : offsetOf acpiMadtIoApic 4 = 4 := by decide
  have number : offsetOf acpiMadtIoApic 2 = 2 := by decide
  have base : offsetOf acpiMadtIoApic 5 = 8 := by decide
  by_cases controller : table entry = 1
  · have need : ioApicNeed 1 = 12 := by decide
    simp [mapIoApic, controller, address, number, base, need]
    omega
  · have need : ioApicNeed (table entry) = 2 := by
      rw [ioApicNeed, if_neg controller]
      decide
    simp [mapIoApic, controller, need]
    omega

/-- Finding the processors ends, and reads nothing outside of the table. -/
def DetectsInside (table : Buffer) (apicBase : BitVec 64) (smp : SmpManager) : Prop :=
  (∃ rounds, (detectCpus (some table) apicBase smp rounds).value.isSome) ∧
    ∀ rounds, (detectCpus (some table) apicBase smp rounds).Inside (tableLength table)

/-- Mapping the interrupt controllers ends, and reads nothing outside of the table. -/
def MapsInside (table : Buffer) (memory : PagedMemory) : Prop :=
  (∃ rounds, (initIoApic (some table) memory rounds).value.isSome) ∧
    ∀ rounds, (initIoApic (some table) memory rounds).Inside (tableLength table)

/-- The header with its length lies in front of all entries. -/
theorem length_within {length : Nat} (covered : recordSize acpiMadt ≤ length) :
    offsetOf acpiSdtHeader 1 + 4 ≤ length :=
  Nat.le_trans (by decide) covered

/-- Finding the processors goes well exactly if the entries fit what is looked at. -/
theorem detectsInside_iff {table : Buffer} (covered : recordSize acpiMadt ≤ tableLength table)
    (apicBase : BitVec 64) (smp : SmpManager) :
    DetectsInside table apicBase smp ↔
      EntriesFit table (tableLength table) cpuNeed (recordSize acpiMadt) := by
  rw [← entryLoop_meets_iff (detectCpu_within covered apicBase) _ { smp with cpuCount := 0 }]
  -- The header is read before the loop, and nothing behind it.
  simp [DetectsInside, detectCpus, length_within covered]
  rfl

/-- Mapping the interrupt controllers goes well exactly if the entries fit what is looked at. -/
theorem mapsInside_iff {table : Buffer} (covered : recordSize acpiMadt ≤ tableLength table)
    (memory : PagedMemory) :
    MapsInside table memory ↔
      EntriesFit table (tableLength table) ioApicNeed (recordSize acpiMadt) := by
  rw [← entryLoop_meets_iff (mapIoApic_within table (tableLength table)) _ memory]
  simp [MapsInside, initIoApic, length_within covered]
  rfl

/-- A table of one processor and one interrupt controller, whose entry has a given length; the sum is right. -/
def sampleMadt (last : UInt8) : Buffer
  | 4 => 64
  | 9 => 0 - (74 + last)
  | 45 => 8
  | 48 => 1
  | 52 => 1
  | 53 => last
  | _ => 0

/-- A machine before its processors are looked for. -/
def bareMachine : SmpManager :=
  { cpuCount := 0
    cpus := []
    memory :=
      { pmm := { bitmap := fun _ => 0, totalFrames := 0, freeFrames := 0, memoryStart := 0 }
        vmm := { memory := fun _ => 0, pml4 := 0, frames := [] }
        answers := [] } }

/-- Both walks over the table end inside of it exactly if every entry fits the greater need. -/
theorem madtWalks_inside_iff (table : Buffer) (apicBase : BitVec 64) (smp : SmpManager) (memory : PagedMemory)
    (covered : recordSize acpiMadt ≤ tableLength table) :
    DetectsInside table apicBase smp ∧ MapsInside table memory ↔
      EntriesFit table (tableLength table) entryNeed (recordSize acpiMadt) := by
  rw [detectsInside_iff covered, mapsInside_iff covered]
  constructor
  · rintro ⟨processors, controllers⟩
    exact processors.max controllers
  · intro fit
    exact ⟨fit.mono fun type => Nat.le_max_left _ _, fit.mono fun type => Nat.le_max_right _ _⟩

/-- A sound table is gone through to its end. -/
theorem madtWalks_inside_sample :
    verifyTableChecksum (sampleMadt 12) = true ∧ recordSize acpiMadt ≤ tableLength (sampleMadt 12) ∧
      (DetectsInside (sampleMadt 12) 0xFEE00900#64 bareMachine ∧ MapsInside (sampleMadt 12) bareMachine.memory ↔
        EntriesFit (sampleMadt 12) (tableLength (sampleMadt 12)) entryNeed (recordSize acpiMadt)) ∧
      EntriesFit (sampleMadt 12) (tableLength (sampleMadt 12)) entryNeed (recordSize acpiMadt) := by
  refine ⟨by decide +kernel, by decide, madtWalks_inside_iff _ _ _ _ (by decide), ?_⟩
  -- The processor, the controller, and the end.
  apply EntriesFit.next (by decide) (by decide) (by decide)
  apply EntriesFit.next (by decide) (by decide) (by decide)
  exact EntriesFit.behind (by decide)

/-- With an entry of no length the sum is right, and neither walk comes to an end. -/
theorem madtWalks_stuck : ¬ ∀ (table : Buffer) (apicBase : BitVec 64) (smp : SmpManager) (memory : PagedMemory),
    verifyTableChecksum table = true → recordSize acpiMadt ≤ tableLength table →
      DetectsInside table apicBase smp ∧ MapsInside table memory := by
  intro always
  have walks := always (sampleMadt 0) 0xFEE00900#64 bareMachine bareMachine.memory (by decide +kernel) (by decide)
  -- The first entry fits, and the second one is never left.
  have fit := (mapsInside_iff (by decide) bareMachine.memory).mp walks.2
  cases fit with
  | behind past => exact absurd past (by decide)
  | next _ _ _ rest =>
    cases rest with
    | behind past => exact absurd past (by decide)
    | next _ positive _ _ => exact absurd positive (by decide)

end Pocky
