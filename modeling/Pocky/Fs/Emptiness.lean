import Pocky.Fs.LongNames
import Pocky.Fs.Lookups

/-! Whether a directory counts as empty, compared with what lookups find in it. -/

namespace Pocky

/-- The names that every directory has for itself and its parent. -/
def dotNames : List Name := [dot, dotDot]

/-- A slot in front of the first unused one of its sector. -/
def Visited (data : Buffer) (slot : Nat) : Prop :=
  slot < 16 ∧ ∀ earlier ≤ slot, data (slotSize * earlier) ≠ 0x00

/-- A sector with an unused slot. -/
def Ends (data : Buffer) : Prop := ∃ slot < 16, data (slotSize * slot) = 0x00

instance (data : Buffer) : Decidable (Ends data) :=
  inferInstanceAs (Decidable (∃ slot < 16, _))

/-- An entry that a lookup of a name other than the dot names finds. -/
def Ordinary (data : Buffer) (offset : Nat) : Prop :=
  freeByte (data offset) = false ∧ entryAttributes data offset ≠ 0x0F ∧
    entryName data offset ∉ dotNames

/-- A slot in use that no lookup of another name finds, and that is no dot entry padded with zeros. -/
def Residue (data : Buffer) (offset : Nat) : Prop :=
  freeByte (data offset) = false ∧
    (entryAttributes data offset = 0x0F ∨ entryName data offset ∈ dotNames) ∧
    ¬ (slotNamed data offset dot || slotNamed data offset dotDot) = true

/-- A slot that decides that a directory is not empty. -/
def Counted (data : Buffer) (offset : Nat) : Prop :=
  freeByte (data offset) = false ∧
    ¬ (slotNamed data offset dot || slotNamed data offset dotDot) = true

instance (data : Buffer) (offset : Nat) : Decidable (Counted data offset) :=
  inferInstanceAs (Decidable (_ ∧ _))

/-- What counts is an entry that lookups find, or a residue. -/
theorem counted_iff (data : Buffer) (offset : Nat) :
    Counted data offset ↔ Ordinary data offset ∨ Residue data offset := by
  constructor
  · rintro ⟨live, other⟩
    by_cases part : entryAttributes data offset = 0x0F
    · exact Or.inr ⟨live, Or.inl part, other⟩
    · by_cases named : entryName data offset ∈ dotNames
      · exact Or.inr ⟨live, Or.inr named, other⟩
      · exact Or.inl ⟨live, part, named⟩
  · rintro (⟨live, -, named⟩ | ⟨live, -, other⟩)
    · refine ⟨live, fun dots => named ?_⟩
      rcases slotNamed_dot dots with one | two
      · exact one ▸ List.mem_cons_self
      · exact two ▸ List.mem_cons_of_mem _ List.mem_cons_self
    · exact ⟨live, other⟩

/-- The slots of a sector decide at the first that is unused or counts. -/
theorem emptyVerdict_succ (data : Buffer) (remaining offset : Nat) :
    emptyVerdict data (remaining + 1) offset =
      if data offset = 0x00 then some true
      else if Counted data offset then some false
      else emptyVerdict data remaining (offset + slotSize) := by
  rw [emptyVerdict]
  by_cases unused : data offset = 0x00
  · rw [if_pos unused, if_pos unused]
  · rw [if_neg unused, if_neg unused]
    by_cases deleted : data offset = 0xE5
    · have free : ¬ Counted data offset := by
        rintro ⟨live, -⟩
        rw [deleted] at live
        cases live
      rw [if_pos deleted, if_neg free]
    · have live : freeByte (data offset) = false := by simp [freeByte, unused, deleted]
      rw [if_neg deleted]
      by_cases dots : (slotNamed data offset dot || slotNamed data offset dotDot) = true
      · rw [if_pos dots, if_neg fun counts => counts.2 dots]
      · rw [if_neg dots, if_pos ⟨live, dots⟩]

/-- A sector says no just when a slot in front of its first unused one counts. -/
theorem emptyVerdict_eq_false_iff {data : Buffer} {remaining offset : Nat} :
    emptyVerdict data remaining offset = some false ↔
      ∃ slot < remaining, (∀ earlier ≤ slot, data (offset + slotSize * earlier) ≠ 0x00) ∧
        Counted data (offset + slotSize * slot) := by
  -- By induction on the slots that are left.
  induction remaining generalizing offset with
  | zero => simp [emptyVerdict]
  | succ remaining ih =>
    rw [emptyVerdict_succ]
    constructor
    · intro said
      split at said
      · cases said
      · rename_i used
        have first : data (offset + slotSize * 0) ≠ 0x00 := used
        split at said
        · rename_i counts
          refine ⟨0, Nat.succ_pos _, fun earlier below => ?_, counts⟩
          rwa [Nat.le_zero.mp below]
        · obtain ⟨slot, inside, before, counts⟩ := ih.mp said
          rw [nextSlot_offset] at counts
          refine ⟨slot + 1, Nat.succ_lt_succ inside, fun earlier below => ?_, counts⟩
          cases earlier with
          | zero => exact first
          | succ earlier =>
            rw [← nextSlot_offset]
            exact before earlier (Nat.le_of_succ_le_succ below)
    · rintro ⟨slot, inside, before, counts⟩
      have used : data offset ≠ 0x00 := before 0 (Nat.zero_le _)
      rw [if_neg used]
      cases slot with
      | zero => rw [if_pos (show Counted data offset from counts)]
      | succ slot =>
        split
        · rfl
        · refine ih.mpr ⟨slot, Nat.lt_of_succ_lt_succ inside, fun earlier below => ?_, ?_⟩
          · rw [nextSlot_offset]
            exact before (earlier + 1) (Nat.succ_le_succ below)
          · rwa [nextSlot_offset]

/-- A sector that does not decide has no unused slot, and one that says yes has one. -/
theorem emptyVerdict_ends {data : Buffer} {remaining offset : Nat} :
    (emptyVerdict data remaining offset = none →
      ∀ slot < remaining, data (offset + slotSize * slot) ≠ 0x00) ∧
    (emptyVerdict data remaining offset = some true →
      ∃ slot < remaining, data (offset + slotSize * slot) = 0x00) := by
  -- By induction on the slots that are left.
  induction remaining generalizing offset with
  | zero => exact ⟨fun _ _ wrong => absurd wrong (Nat.not_lt_zero _), fun said => by cases said⟩
  | succ remaining ih =>
    rw [emptyVerdict_succ]
    split
    · rename_i unused
      exact ⟨fun said => by (cases said), fun _ => ⟨0, Nat.succ_pos _, unused⟩⟩
    · rename_i used
      split
      · exact ⟨fun said => by (cases said), fun said => by (cases said)⟩
      · constructor
        · intro said slot inside
          cases slot with
          | zero => exact used
          | succ slot =>
            rw [← nextSlot_offset]
            exact ih.1 said slot (Nat.lt_of_succ_lt_succ inside)
        · intro said
          obtain ⟨slot, inside, unused⟩ := ih.2 said
          exact ⟨slot + 1, Nat.succ_lt_succ inside, by rwa [← nextSlot_offset]⟩

namespace FileSystem

/-- The sectors of a directory up to the first one with an unused slot. -/
def frontSectors (fs : FileSystem) : List Nat → List Nat
  | [] => []
  | sector :: rest => if Ends (fs.block sector) then [sector] else sector :: fs.frontSectors rest

/-- The sectors of a directory behind the first one with an unused slot. -/
def backSectors (fs : FileSystem) : List Nat → List Nat
  | [] => []
  | sector :: rest => if Ends (fs.block sector) then rest else fs.backSectors rest

/-- The sectors of a directory are those in front and those behind. -/
theorem frontSectors_append (fs : FileSystem) (sectors : List Nat) :
    fs.frontSectors sectors ++ fs.backSectors sectors = sectors := by
  -- By induction on the sectors.
  induction sectors with
  | nil => rfl
  | cons sector rest ih =>
    rw [frontSectors, backSectors]
    split
    · rfl
    · rw [List.cons_append, ih]

/-- Some of these sectors have a slot of a kind in front of their first unused one. -/
def Shows (fs : FileSystem) (kind : Buffer → Nat → Prop) (sectors : List Nat) : Prop :=
  ∃ sector ∈ sectors, ∃ slot, Visited (fs.block sector) slot ∧ kind (fs.block sector) (slotSize * slot)

/-- The first sector that decides says no just when a slot in front of the first unused one counts. -/
theorem firstVerdict_iff (fs : FileSystem) (sectors : List Nat) :
    fs.firstAnswer (fun _ data => emptyVerdict data 16 0) sectors = some false ↔
      fs.Shows Counted (fs.frontSectors sectors) := by
  have counts : ∀ sector, emptyVerdict (fs.block sector) 16 0 = some false ↔
      ∃ slot, Visited (fs.block sector) slot ∧ Counted (fs.block sector) (slotSize * slot) := by
    intro sector
    simp only [emptyVerdict_eq_false_iff, Nat.zero_add, Visited, and_assoc]
  -- By induction on the sectors; the scan goes on behind a sector without an unused slot.
  induction sectors with
  | nil => simp [firstAnswer, frontSectors, Shows]
  | cons sector rest ih =>
    simp only [firstAnswer] at ih ⊢
    rw [List.findSome?_cons, frontSectors]
    cases said : emptyVerdict (fs.block sector) 16 0 with
    | none =>
      have open' : ¬ Ends (fs.block sector) := by
        rintro ⟨slot, small, unused⟩
        exact emptyVerdict_ends.1 said slot small (by rwa [Nat.zero_add])
      have silent : ¬ ∃ slot, Visited (fs.block sector) slot ∧
          Counted (fs.block sector) (slotSize * slot) := by
        rw [← counts, said]
        exact fun wrong => by cases wrong
      rw [if_neg open']
      simp only [ih, Shows, List.exists_mem_cons_iff, silent, false_or]
    | some verdict =>
      cases verdict with
      | false =>
        have here := (counts sector).mp said
        refine ⟨fun _ => ⟨sector, ?_, here⟩, fun _ => rfl⟩
        split
        · exact List.mem_cons_self
        · exact List.mem_cons_self
      | true =>
        have ends : Ends (fs.block sector) := by
          obtain ⟨slot, small, unused⟩ := emptyVerdict_ends.2 said
          exact ⟨slot, small, by rwa [Nat.zero_add] at unused⟩
        have silent : ¬ ∃ slot, Visited (fs.block sector) slot ∧
            Counted (fs.block sector) (slotSize * slot) := by
          rw [← counts, said]
          exact fun wrong => by cases wrong
        rw [if_pos ends]
        simp only [Shows, List.exists_mem_cons_iff, silent, false_or]
        simp

variable {fs : FileSystem} {directory : Nat} {clusters : List Nat}

/-- A directory is empty unless a slot counts that is in front of its first unused one. -/
theorem Links.isDirectoryEmpty_iff (layout : fs.Layout) (reliable : fs.Reliable)
    (links : fs.Links directory clusters) :
    fs.isDirectoryEmpty directory = .ok true ↔
      ¬ fs.Shows Counted (fs.frontSectors (fs.directorySectors clusters)) := by
  rw [isDirectoryEmpty, slotsPerSector_eq layout.sector,
    (links.chain layout reliable).scan_eq layout reliable, ← firstVerdict_iff]
  cases fs.firstAnswer (fun _ data => emptyVerdict data 16 0) (fs.directorySectors clusters) with
  | none => simp
  | some verdict => cases verdict <;> simp

/-- Lookups of other names fail just when no sector shows an ordinary entry. -/
theorem Links.lookups_fail_iff (layout : fs.Layout) (reliable : fs.Reliable)
    (links : fs.Links directory clusters) :
    (∀ name ∉ dotNames, fs.findFileInDirectory directory name = .ok none) ↔
      ¬ fs.Shows Ordinary (fs.directorySectors clusters) := by
  constructor
  · rintro fails ⟨sector, member, slot, ⟨small, used⟩, live, part, other⟩
    -- The name of the entry is found.
    have fail := fails _ other
    rcases links.findFileInDirectory_cases layout reliable (entryName (fs.block sector)
      (slotSize * slot)) with ⟨-, absent⟩ | ⟨_, -, _, -, found⟩
    · refine findName_eq_none_iff.mp (absent sector member) slot small (fun earlier below => ?_) ?_
      · rw [Nat.zero_add]
        exact used earlier (Nat.le_of_lt below)
      · rw [Nat.zero_add]
        exact ⟨live, part, rfl⟩
    · cases fail.symm.trans found
  · intro silent name other
    rcases links.findFileInDirectory_cases layout reliable name with ⟨absent, -⟩ | hit
    · exact absent
    · obtain ⟨sector, member, offset, found, -⟩ := hit
      obtain ⟨slot, small, rfl, names, before⟩ := findName_eq_some_iff.mp found
      rw [Nat.zero_add] at names
      refine absurd ⟨sector, member, slot, ⟨small, fun earlier below => ?_⟩, names.1, names.2.1, ?_⟩
        silent
      · rcases Nat.lt_or_eq_of_le below with under | rfl
        · have used := (before earlier under).1
          rwa [Nat.zero_add] at used
        · exact names.used
      · rw [names.2.2]
        exact other

/--
A directory is empty exactly if lookups of other names fail, unless its slots mislead the test.

Either an ordinary entry is in front of the first unused slot, or there is one in a later sector
exactly if a long-name slot or a dot entry padded with spaces is in front.
-/
theorem isDirectoryEmpty_agrees_iff (fs : FileSystem) (layout : fs.Layout) (reliable : fs.Reliable)
    (directory : Nat) {clusters : List Nat} (links : fs.Links directory clusters) :
    (fs.isDirectoryEmpty directory = .ok true ↔
      ∀ name ∉ dotNames, fs.findFileInDirectory directory name = .ok none) ↔
    fs.Shows Ordinary (fs.frontSectors (fs.directorySectors clusters)) ∨
      (fs.Shows Ordinary (fs.backSectors (fs.directorySectors clusters)) ↔
        fs.Shows Residue (fs.frontSectors (fs.directorySectors clusters))) := by
  rw [links.isDirectoryEmpty_iff layout reliable, links.lookups_fail_iff layout reliable]
  -- All entries are in front or behind, and what counts is an entry or a residue.
  have parts : fs.Shows Ordinary (fs.directorySectors clusters) ↔
      fs.Shows Ordinary (fs.frontSectors (fs.directorySectors clusters)) ∨
        fs.Shows Ordinary (fs.backSectors (fs.directorySectors clusters)) := by
    conv_lhs => rw [← fs.frontSectors_append (fs.directorySectors clusters)]
    simp only [Shows, List.mem_append, or_and_right, exists_or]
  have kinds : fs.Shows Counted (fs.frontSectors (fs.directorySectors clusters)) ↔
      fs.Shows Ordinary (fs.frontSectors (fs.directorySectors clusters)) ∨
        fs.Shows Residue (fs.frontSectors (fs.directorySectors clusters)) := by
    simp only [Shows, counted_iff, and_or_left, exists_or]
  rw [parts, kinds]
  tauto

/-- A file in the first slot of a root directory. -/
def rootFile : Buffer :=
  withLink 2 endMark <| withEntry 2 0 [0x41] 0x20 3 fun _ => 0

/-- Its root directory is a chain of one cluster. -/
theorem rootFile_links : (smallVolume rootFile 2).Links 2 [2] :=
  ⟨by show endMark ≤ _; decide +kernel, rfl, List.nodup_singleton 2, fun cluster member => by
    obtain rfl := List.mem_singleton.mp member
    exact ⟨by decide, by decide +kernel⟩⟩

/-- With the file in front, the root directory is empty exactly if lookups fail. -/
theorem isDirectoryEmpty_agrees_iff_file :
    (smallVolume rootFile 2).isDirectoryEmpty 2 = .ok true ↔
      ∀ name ∉ dotNames, (smallVolume rootFile 2).findFileInDirectory 2 name = .ok none :=
  (isDirectoryEmpty_agrees_iff (smallVolume rootFile 2) (smallVolume_layout _ 2)
    (smallVolume_reliable _ 2) 2 rootFile_links).mpr
    (Or.inl ⟨2, by decide +kernel, 0, ⟨by decide, fun earlier below => by
      obtain rfl := Nat.le_zero.mp below
      decide +kernel⟩, by decide +kernel, by decide +kernel, by decide +kernel⟩)

/-- In the root directory that a mount sets up, lookups of other names fail. -/
theorem mountedRoot_lookups :
    ∀ name ∉ dotNames, (smallVolume mountedRoot 2).findFileInDirectory 2 name = .ok none := by
  have layout := smallVolume_layout mountedRoot 2
  have reliable := smallVolume_reliable mountedRoot 2
  have links : (smallVolume mountedRoot 2).Links 2 [2] :=
    ⟨by show endMark ≤ _; decide +kernel, rfl, List.nodup_singleton 2, fun cluster member => by
      obtain rfl := List.mem_singleton.mp member
      exact ⟨by decide, by decide +kernel⟩⟩
  refine (links.lookups_fail_iff layout reliable).mpr ?_
  -- Of the sixteen slots two have dot names, and the others are free.
  have slots : ∀ slot < 16, freeByte ((smallVolume mountedRoot 2).block 2 (slotSize * slot)) = true ∨
      entryName ((smallVolume mountedRoot 2).block 2) (slotSize * slot) ∈ dotNames := by
    decide +kernel
  have sectors : (smallVolume mountedRoot 2).directorySectors [2] = [2] := by decide +kernel
  rintro ⟨sector, member, slot, ⟨small, -⟩, live, -, other⟩
  rw [sectors] at member
  obtain rfl := List.mem_singleton.mp member
  rcases slots slot small with free | named
  · rw [free] at live
    cases live
  · exact other named

/-- That directory does not count as empty, since its dot entries are padded with spaces. -/
theorem isDirectoryEmpty_counts_padded_dots :
    ¬ ((smallVolume mountedRoot 2).isDirectoryEmpty 2 = .ok true ↔
      ∀ name ∉ dotNames, (smallVolume mountedRoot 2).findFileInDirectory 2 name = .ok none) := by
  intro agrees
  have said : (smallVolume mountedRoot 2).isDirectoryEmpty 2 = .ok false := by decide +kernel
  cases said.symm.trans (agrees.mpr mountedRoot_lookups)

end FileSystem

end Pocky
