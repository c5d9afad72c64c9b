import Pocky.Memory.TableWalks

/-! Which memory the mapping and unmapping of pages write, over any run of calls. -/

namespace Pocky

open PageTableEntry VirtualMemoryManager

/-- An address lies under no large page but the first, whose physical address is null. -/
def AvoidsLargePages (virtualAddr : BitVec 64) : Prop :=
  pageNumber virtualAddr < 512 ∨ 4096 ≤ pageNumber virtualAddr

instance (virtualAddr : BitVec 64) : Decidable (AvoidsLargePages virtualAddr) :=
  inferInstanceAs (Decidable (_ ∨ _))

namespace PageCall

/-- A call avoids the large pages, and finds a frame for every table it has to create. -/
def Careful (vmm : VirtualMemoryManager) : PageCall → Prop
  | .mapPage virtualAddr _ _ =>
    AvoidsLargePages virtualAddr ∧ vmm.missingTables virtualAddr ≤ vmm.frames.length
  | .unmapPage virtualAddr => AvoidsLargePages virtualAddr

/-- A call takes away no translation but that of a page it unmaps. -/
def Spares (call : PageCall) (virtualAddr : BitVec 64) : Prop :=
  ∀ unmapped, call = .unmapPage unmapped → pageNumber virtualAddr ≠ pageNumber unmapped

/-- A call writes only in the frames of page tables, and keeps the translations it has to spare. -/
def WritesTables (call : PageCall) (before : VirtualMemoryManager) (tableFrames : List Nat) : Prop :=
  (∀ place, (call.step before).memory place ≠ before.memory place →
    ∃ frame ∈ tableFrames, frame ≤ place ∧ place < frame + 4096) ∧
  ∀ virtualAddr physicalAddr, before.translate virtualAddr = some physicalAddr →
    call.Spares virtualAddr → (call.step before).translate virtualAddr = some physicalAddr

end PageCall

/-- Every call of a sequence is careful when its turn comes. -/
def AllCareful (vmm : VirtualMemoryManager) : List PageCall → Prop
  | [] => True
  | call :: calls => call.Careful vmm ∧ AllCareful (call.step vmm) calls

namespace PageTables

variable {vmm after : VirtualMemoryManager} {table table' : Nat → Nat → Option Nat}
  {broken broken' : List Nat}

/-- Mapping a page under the first large page does nothing. -/
theorem mapPage_low (tables : PageTables vmm table broken) {virtualAddr : BitVec 64}
    (low : pageNumber virtualAddr < 512) (physicalAddr : BitVec 64) (writable : Bool) :
    vmm.mapPage virtualAddr physicalAddr writable = vmm := by
  -- The large page starts at address zero, where the walk sees a null pointer.
  have walked := (tables.walkDown_large (show pageNumber virtualAddr < 4096 by omega) true).1
  rw [Nat.div_eq_of_lt low, Nat.zero_mul] at walked
  simp only [mapPage, walk_eq_walkDown, walked, if_true]

/-- Unmapping a page under the first large page does nothing. -/
theorem unmapPage_low (tables : PageTables vmm table broken) {virtualAddr : BitVec 64}
    (low : pageNumber virtualAddr < 512) : vmm.unmapPage virtualAddr = vmm := by
  -- The walk sees a null pointer here too.
  have walked := (tables.walkDown_large (show pageNumber virtualAddr < 4096 by omega) false).1
  rw [Nat.div_eq_of_lt low, Nat.zero_mul] at walked
  simp only [unmapPage, walk_eq_walkDown, walked, if_true]

/-- Unmapping a page outside the large ones keeps the tables. -/
theorem unmapPage (tables : PageTables vmm table broken) {virtualAddr : BitVec 64}
    (ordinary : 4096 ≤ pageNumber virtualAddr) : PageTables (vmm.unmapPage virtualAddr) table broken := by
  rcases tables.unmapPage_cases ordinary with same | ⟨pt, here, same⟩
  · rw [same]
    exact tables
  · rw [same]
    exact tables.writeLeaf here (Nat.mod_lt _ (by decide)) (Or.inl ⟨rfl, rfl⟩ : Leaf emptyEntry none)
      emptyEntry_flags.2

/-- A translation is kept where the last entry is. -/
theorem translate_kept (tables : PageTables vmm table broken) (tables' : PageTables after table' broken')
    (grow : ∀ level number addr, table level number = some addr → table' level number = some addr)
    {virtualAddr physicalAddr : BitVec 64} (mapped : vmm.translate virtualAddr = some physicalAddr)
    (kept : ∀ pt, table 3 (pageNumber virtualAddr / 512) = some pt →
      (vmm.readEntry pt (pageNumber virtualAddr % 512)).present = true →
      after.readEntry pt (pageNumber virtualAddr % 512) =
        vmm.readEntry pt (pageNumber virtualAddr % 512)) :
    after.translate virtualAddr = some physicalAddr := by
  by_cases large : pageNumber virtualAddr < 4096
  · -- The large pages are where they were.
    rw [tables'.translate_large large, ← tables.translate_large large, mapped]
  · rw [Nat.not_lt] at large
    cases last : table 3 (pageNumber virtualAddr / 512) with
    | none =>
      rw [tables.translate_none large last] at mapped
      cases mapped
    | some pt =>
      rw [tables.translate_last large last] at mapped
      rw [tables'.translate_last large (grow _ _ _ last)]
      split at mapped
      · rename_i present
        rw [kept pt last present, if_pos present]
        exact mapped
      · cases mapped

/-- A careful call keeps the tables, writes only in their frames, and keeps translations. -/
theorem careful_step (tables : PageTables vmm table broken) {call : PageCall}
    (careful : call.Careful vmm) :
    ∃ table', PageTables (call.step vmm) table' broken ∧
      (∃ taken, vmm.frames = taken ++ (call.step vmm).frames ∧
        ∀ level number addr, table' level number = some addr →
          table level number = some addr ∨ addr ∈ taken) ∧
      (∀ place, (call.step vmm).memory place ≠ vmm.memory place → InTables table' place) ∧
      ∀ virtualAddr physicalAddr, vmm.translate virtualAddr = some physicalAddr →
        call.Spares virtualAddr → (call.step vmm).translate virtualAddr = some physicalAddr := by
  have still : ∃ table', PageTables vmm table' broken ∧
      (∃ taken, vmm.frames = taken ++ vmm.frames ∧ ∀ level number addr,
        table' level number = some addr → table level number = some addr ∨ addr ∈ taken) ∧
      (∀ place, vmm.memory place ≠ vmm.memory place → InTables table' place) ∧
      ∀ virtualAddr physicalAddr, vmm.translate virtualAddr = some physicalAddr →
        call.Spares virtualAddr → vmm.translate virtualAddr = some physicalAddr :=
    ⟨table, tables, ⟨[], rfl, fun _ _ _ here => Or.inl here⟩, fun _ wrong => absurd rfl wrong,
      fun _ _ mapped _ => mapped⟩
  cases call with
  | mapPage mapped physicalAddr writable =>
    rcases careful with ⟨low | ordinary, enough⟩
    · -- Under the first large page nothing happens.
      rw [PageCall.step, tables.mapPage_low low]
      exact still
    · have outcome := tables.mapPage_outcome ordinary physicalAddr writable
      rw [PageCall.step]
      generalize vmm.mapPage mapped physicalAddr writable = after at outcome
      cases outcome with
      | nothing => exact still
      | @filled _ _ table' tables' grown here _ nullPage entry =>
        refine ⟨table', tables', grown.taken, ?_, ?_⟩
        · intro place changed
          by_contra apart
          by_cases low : place < 4096
          · exact changed (nullPage place low)
          · exact changed (grown.outside place (by omega) apart)
        · -- What is present stays.
          intro virtualAddr shown there _
          exact tables.translate_kept tables' grown.grow there fun pt last present =>
            grown.kept _ _ _ _ last (Nat.mod_lt _ (by decide)) present
      | short _ _ _ few => exact absurd enough (by omega)
  | unmapPage unmapped =>
    rcases careful with low | ordinary
    · rw [PageCall.step, tables.unmapPage_low low]
      exact still
    · have tables' := tables.unmapPage ordinary
      rw [PageCall.step]
      rcases tables.unmapPage_cases ordinary with same | ⟨pt, here, same⟩
      · rw [same]
        exact still
      · rw [same] at tables' ⊢
        have inside : pageNumber unmapped % 512 < 512 := Nat.mod_lt _ (by decide)
        refine ⟨table, tables', ⟨[], rfl, fun _ _ _ here => Or.inl here⟩, ?_, ?_⟩
        · intro place changed
          rw [memory_writeEntry] at changed
          split at changed
          · rename_i place_eq
            exact ⟨3, _, pt, here, by omega, by omega⟩
          · exact absurd rfl changed
        · -- The entry emptied is that of the page unmapped only.
          intro virtualAddr physicalAddr mapped spared
          refine tables.translate_kept tables' (fun _ _ _ there => there) mapped fun pt' last _ => ?_
          have other : pt' + 8 * (pageNumber virtualAddr % 512) ≠ pt + 8 * (pageNumber unmapped % 512) := by
            intro equal
            obtain ⟨⟨-, aligned, -⟩, -⟩ := tables.placed here
            obtain ⟨⟨-, aligned', -⟩, -⟩ := tables.placed last
            obtain ⟨rfl, index⟩ :=
              PageTree.entry_apart aligned' aligned (Nat.mod_lt _ (by decide)) inside equal
            have number := (tables.distinct here last).2
            exact spared unmapped rfl (by omega)
          rw [readEntry, memory_writeEntry, if_neg other, readEntry]

end PageTables

/-- Careful calls leave page tables behind, in frames taken from the allocator. -/
theorem careful_run {frames : List Nat} {calls : List PageCall} {vmm : VirtualMemoryManager}
    {table : Nat → Nat → Option Nat} {taken : List Nat} (tables : PageTables vmm table [])
    (split : frames = taken ++ vmm.frames)
    (own : ∀ level number addr, table level number = some addr → addr ∈ taken)
    (careful : AllCareful vmm calls) :
    ∃ table' taken', PageTables (runPageCalls vmm calls) table' [] ∧
      frames = taken' ++ (runPageCalls vmm calls).frames ∧
      ∀ level number addr, table' level number = some addr → addr ∈ taken' := by
  -- By induction on the calls, the frames taken adding up.
  induction calls generalizing vmm table taken with
  | nil => exact ⟨table, taken, tables, split, own⟩
  | cons call calls ih =>
    obtain ⟨table', tables', ⟨more, split', new⟩, -⟩ := tables.careful_step careful.1
    refine @ih (call.step vmm) table' (taken ++ more) tables' ?_ ?_ careful.2
    · rw [split, split', List.append_assoc]
    · intro level number addr here
      rcases new level number addr here with here | member
      · exact List.mem_append_left _ (own level number addr here)
      · exact List.mem_append_right _ member

/-- The calls before others are careful by themselves, and the others after them. -/
theorem allCareful_append {vmm : VirtualMemoryManager} {earlier later : List PageCall}
    (careful : AllCareful vmm (earlier ++ later)) :
    AllCareful vmm earlier ∧ AllCareful (runPageCalls vmm earlier) later := by
  -- By induction on the earlier calls, with the state they start from.
  induction earlier generalizing vmm with
  | nil => exact ⟨trivial, careful⟩
  | cons call earlier ih =>
    obtain ⟨before, after⟩ := ih careful.2
    exact ⟨⟨careful.1, before⟩, after⟩

/--
Mapping and unmapping write only page tables, in a run that avoids the large pages and has frames.

The frames the allocator has handed out are those of the top table and of the tables created.
-/
theorem page_calls_write_tables {vmm : VirtualMemoryManager} {earlier later : List PageCall}
    {call : PageCall} (nodup : vmm.frames.Nodup) (fit : ∀ frame ∈ vmm.frames, TableFrame frame)
    (enough : 4 ≤ vmm.frames.length)
    (careful : AllCareful vmm.initializeTables (earlier ++ call :: later)) :
    let before := runPageCalls vmm.initializeTables earlier
    ∃ taken, vmm.frames = taken ++ (call.step before).frames ∧ call.WritesTables before taken := by
  intro before
  obtain ⟨pml4, pdpt, pd, kernelPdpt, rest, frames⟩ := boot_frames enough
  obtain ⟨table, tables, left, own⟩ := PageTables.boot frames nodup fit
  obtain ⟨careful₁, careful₂⟩ := allCareful_append careful
  -- The run up to the call, and then the call itself.
  obtain ⟨table₁, taken₁, tables₁, split₁, own₁⟩ :=
    careful_run tables (show vmm.frames = [pml4, pdpt, pd, kernelPdpt] ++ _ by rw [frames, left]; rfl)
      (fun level number addr here => (own level number addr here).1) careful₁
  obtain ⟨table₂, tables₂, ⟨more, split₂, new⟩, inside, kept⟩ := tables₁.careful_step careful₂.1
  refine ⟨taken₁ ++ more, by rw [split₁, split₂, List.append_assoc], ?_, kept⟩
  intro place changed
  obtain ⟨level, number, addr, here, within⟩ := inside place changed
  rcases new level number addr here with here | member
  · exact ⟨addr, List.mem_append_left _ (own₁ level number addr here), within⟩
  · exact ⟨addr, List.mem_append_right _ member, within⟩

/-- Mapping a page at one gigabyte writes only page tables. -/
theorem page_calls_write_tables_gigabyte :
    ∃ taken, tenFrames.frames =
        taken ++ ((PageCall.mapPage 0x40000000#64 0x5000#64 true).step tenFrames.initializeTables).frames ∧
      (PageCall.mapPage 0x40000000#64 0x5000#64 true).WritesTables tenFrames.initializeTables taken := by
  have fit : ∀ frame ∈ tenFrames.frames, TableFrame frame := by
    unfold TableFrame
    decide
  exact @page_calls_write_tables tenFrames [] [] (.mapPage 0x40000000#64 0x5000#64 true) (by decide) fit
    (by decide) ⟨⟨by decide, by decide +kernel⟩, trivial⟩

/-- Mapping a page of the fifth megabyte writes into the large page itself. -/
theorem mapPage_writes_large_page :
    ¬ (PageCall.mapPage 0x400000#64 0x400000#64 true).WritesTables tenFrames.initializeTables
      tenFrames.frames := by
  intro claimed
  -- The word at four megabytes was empty, and is an entry afterwards.
  have changed : ((PageCall.mapPage 0x400000#64 0x400000#64 true).step
      tenFrames.initializeTables).memory 0x400000 ≠ tenFrames.initializeTables.memory 0x400000 := by
    decide +kernel
  obtain ⟨frame, member, within⟩ := claimed.1 0x400000 changed
  have below : ∀ frame ∈ tenFrames.frames, frame + 4096 ≤ 0x400000 := by decide
  exact absurd (below frame member) (by omega)

end Pocky
