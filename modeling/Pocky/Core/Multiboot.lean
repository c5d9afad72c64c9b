import Mathlib.Data.List.Basic
import Pocky.Fs.Disk
import Pocky.Lib.Run

/-! The two walks over the boot loader's tags: the one that checks them, and the one that uses them. -/

namespace Pocky

/-- The largest number of 32 bits, beyond which no tag may lie. -/
def lastAddress : Nat := 0xFFFFFFFF

/-- The type of the tag with the memory map. -/
def memoryMapType : Nat := 6

/-- More steps than tags fit behind an address. -/
def tagSteps : Nat := 2 ^ 32

/-- The two fields that every tag starts with. -/
structure InfoTag where
  /-- What kind of tag it is. -/
  type : Nat
  /-- How many bytes it has, these fields included. -/
  size : Nat
  deriving Repr, DecidableEq

/-- The tag at an address. -/
def tagAt (memory : Buffer) (addr : Nat) : InfoTag := ⟨wordAt memory addr, wordAt memory (addr + 4)⟩

/-- A tag ends the list. -/
def InfoTag.isEnd (tag : InfoTag) : Bool := tag.type = 0 ∧ tag.size = 8

/-- The address of the tag behind one, at the next multiple of eight, on 64-bit words. -/
def nextTag (addr : Nat) (tag : InfoTag) : Nat := (addr + tag.size + 7) % 2 ^ 64 / 8 * 8

/-- The last address for a tag of some size, on 32-bit words. -/
def sizeLimit (size : Nat) : Nat := (2 ^ 32 + lastAddress - size + 2 ^ 32 - 7) % 2 ^ 32

/-- The loop that checks tags: its answer, and the addresses of the tags it has read. -/
def validateTags (memory : Buffer) (stop : Nat) : Nat → Nat → Bool → Run (Bool × List Nat)
  | 0, _, _ => .error .diverges
  | steps + 1, addr, foundValidTag =>
    if addr < stop then
      if lastAddress - 8 < addr then .ok (false, [])
      else
        let tag := tagAt memory addr
        if tag.size < 8 then .ok (false, [addr])
        else if tag.isEnd then .ok (true, [addr])
        else if sizeLimit tag.size < addr then .ok (false, [addr])
        else do
          let (valid, rest) ← validateTags memory stop steps (nextTag addr tag) true
          return (valid, addr :: rest)
    else .ok (foundValidTag, [])

/-- Checking the information at an address: the answer, and the addresses of the tags read. -/
def validateMultibootInfo (memory : Buffer) (info : Nat) : Run (Bool × List Nat) :=
  if info = 0 then .ok (false, [])
  else if lastAddress - 8 < info then .ok (false, [])
  else
    let totalSize := wordAt memory info
    if totalSize < 8 then .ok (false, [])
    else if info % 8 ≠ 0 then .ok (false, [])
    else validateTags memory (info + totalSize) tagSteps (info + 8) false

/-- The loop that uses tags: the memory map, and the addresses of the tags it has read. -/
def useTags (memory : Buffer) (stop : Nat) : Nat → Nat → Option Nat → Run (Option Nat × List Nat)
  | 0, _, _ => .error .diverges
  | steps + 1, addr, memoryMap =>
    if addr < stop then
      let tag := tagAt memory addr
      if tag.isEnd then .ok (memoryMap, [addr])
      else
        let memoryMap := if tag.type = memoryMapType then some addr else memoryMap
        do
          let (memoryMap, rest) ← useTags memory stop steps (nextTag addr tag) memoryMap
          return (memoryMap, addr :: rest)
    else .ok (memoryMap, [])

/-- Taking over the information at an address: the memory map, and the addresses of the tags used. -/
def initMultiboot (memory : Buffer) (info : Nat) (memoryMap : Option Nat) :
    Run (Option Nat × List Nat) :=
  if info = 0 then .ok (memoryMap, [])
  else do
    let (valid, _) ← validateMultibootInfo memory info
    if !valid then return (memoryMap, [])
    else useTags memory (info + wordAt memory info) tagSteps (info + 8) memoryMap

/-- The memory map after some tags: the last of them that is one, or the one there was before. -/
def lastMemoryMap (memory : Buffer) (tags : List Nat) (memoryMap : Option Nat) : Option Nat :=
  (tags.filter fun addr => (tagAt memory addr).type = memoryMapType).getLast?.or memoryMap

/-- A word has 32 bits. -/
theorem wordAt_lt (data : Buffer) (offset : Nat) : wordAt data offset < 2 ^ 32 := by
  have bytes : ∀ index, (data index).toNat < 256 := fun index => (data index).toNat_lt
  have first := bytes offset
  have second := bytes (offset + 1)
  have third := bytes (offset + 2)
  have fourth := bytes (offset + 2 + 1)
  simp only [wordAt, halfAt]
  omega

/-- The next tag lies behind a tag that is not too large. -/
theorem nextTag_ge {memory : Buffer} {addr : Nat} (low : addr ≤ lastAddress)
    (size : 8 ≤ (tagAt memory addr).size) : addr + 8 ≤ nextTag addr (tagAt memory addr) := by
  -- The sum has no more than 34 bits, and rounding up does not go below it.
  have bound : (tagAt memory addr).size < 2 ^ 32 := wordAt_lt memory (addr + 4)
  simp only [nextTag, lastAddress] at *
  omega

/-- Checking tags ends, since each of them takes up eight bytes at least. -/
theorem validateTags_returns (memory : Buffer) {stop steps addr : Nat} (foundValidTag : Bool)
    (enough : stop ≤ addr + 8 * steps) :
    ∃ answer, validateTags memory stop (steps + 1) addr foundValidTag = .ok answer := by
  -- By induction on the steps, the last of which finds the end.
  induction steps generalizing addr foundValidTag with
  | zero =>
    rw [validateTags, if_neg (by omega)]
    exact ⟨_, rfl⟩
  | succ steps ih =>
    rw [validateTags]
    split
    · split
      · exact ⟨_, rfl⟩
      · rename_i low
        dsimp only
        split
        · exact ⟨_, rfl⟩
        · rename_i size
          split
          · exact ⟨_, rfl⟩
          · split
            · exact ⟨_, rfl⟩
            · have within : addr ≤ lastAddress := by
                simp only [lastAddress] at *
                omega
              have further := nextTag_ge within (Nat.le_of_not_lt size)
              have left : stop ≤ nextTag addr (tagAt memory addr) + 8 * steps := by omega
              obtain ⟨⟨valid, rest⟩, returned⟩ := ih true left
              rw [returned]
              exact ⟨_, rfl⟩
    · exact ⟨_, rfl⟩

/-- The memory map after one tag more. -/
theorem lastMemoryMap_cons (memory : Buffer) (addr : Nat) (tags : List Nat) (memoryMap : Option Nat) :
    lastMemoryMap memory (addr :: tags) memoryMap = lastMemoryMap memory tags
      (if (tagAt memory addr).type = memoryMapType then some addr else memoryMap) := by
  rw [lastMemoryMap, List.filter_cons, lastMemoryMap]
  by_cases isMap : (tagAt memory addr).type = memoryMapType
  · rw [if_pos (by simp [isMap]), if_pos isMap, List.getLast?_cons]
    -- The tag counts if none of the others does.
    cases (tags.filter fun addr => (tagAt memory addr).type = memoryMapType).getLast? <;> rfl
  · rw [if_neg (by simp [isMap]), if_neg isMap]

/-- Tags that are accepted are all large enough, and are those that are used. -/
theorem useTags_of_validateTags {memory : Buffer} {stop steps addr : Nat} {foundValidTag : Bool}
    {tags : List Nat} (memoryMap : Option Nat)
    (valid : validateTags memory stop steps addr foundValidTag = .ok (true, tags)) :
    (∀ tag ∈ tags, 8 ≤ (tagAt memory tag).size) ∧
      useTags memory stop steps addr memoryMap =
        .ok (lastMemoryMap memory tags memoryMap, tags) := by
  -- By induction on the steps, which both loops take together.
  induction steps generalizing addr foundValidTag tags memoryMap with
  | zero => cases valid
  | succ steps ih =>
    rw [validateTags] at valid
    rw [useTags]
    split at valid
    · rename_i inside
      rw [if_pos inside]
      split at valid
      · cases valid
      · dsimp only at valid ⊢
        split at valid
        · cases valid
        · rename_i size
          split at valid
          · rename_i last
            cases valid
            refine ⟨by simpa using size, ?_⟩
            -- The end tag is no memory map.
            have other : (tagAt memory addr).type ≠ memoryMapType := by
              simp only [InfoTag.isEnd, decide_eq_true_eq] at last
              rw [last.1]
              decide
            rw [if_pos last, lastMemoryMap_cons, if_neg other]
            rfl
          · rename_i more
            split at valid
            · cases valid
            · obtain ⟨⟨told, rest⟩, returned, answer⟩ := Run.bind_eq_ok.mp valid
              cases answer
              obtain ⟨sizes, used⟩ := ih (if (tagAt memory addr).type = memoryMapType then some addr
                else memoryMap) returned
              refine ⟨List.forall_mem_cons.mpr ⟨by omega, sizes⟩, ?_⟩
              rw [if_neg more, used, lastMemoryMap_cons]
              rfl
    · rename_i outside
      cases valid
      rw [if_neg outside]
      exact ⟨by simp, rfl⟩

/-- The information that is accepted has passed the checks in front of the tags. -/
theorem validateMultibootInfo_true {memory : Buffer} {info : Nat} {tags : List Nat}
    (valid : validateMultibootInfo memory info = .ok (true, tags)) :
    info ≠ 0 ∧ validateTags memory (info + wordAt memory info) tagSteps (info + 8) false =
      .ok (true, tags) := by
  rw [validateMultibootInfo] at valid
  split at valid
  · cases valid
  · rename_i nonzero
    split at valid
    · cases valid
    · dsimp only at valid
      split at valid
      · cases valid
      · split at valid
        · cases valid
        · exact ⟨nonzero, valid⟩

/--
The tags are checked in finitely many steps, and those that are accepted are used as they were checked.

The memory map is then the last tag of its type, or the one there was before if there is none.
-/
theorem multiboot_tags_used_as_checked (memory : Buffer) (info : Nat) (memoryMap : Option Nat) :
    ∃ valid tags, validateMultibootInfo memory info = .ok (valid, tags) ∧
      (valid = true → (∀ tag ∈ tags, 8 ≤ (tagAt memory tag).size) ∧
        initMultiboot memory info memoryMap = .ok (lastMemoryMap memory tags memoryMap, tags)) := by
  have returns : ∃ answer, validateMultibootInfo memory info = .ok answer := by
    rw [validateMultibootInfo]
    split
    · exact ⟨_, rfl⟩
    · split
      · exact ⟨_, rfl⟩
      · dsimp only
        split
        · exact ⟨_, rfl⟩
        · split
          · exact ⟨_, rfl⟩
          · have size := wordAt_lt memory info
            obtain ⟨steps, shape⟩ : ∃ steps, tagSteps = steps + 1 := ⟨2 ^ 32 - 1, rfl⟩
            rw [shape]
            refine validateTags_returns memory false ?_
            simp only [tagSteps] at shape
            omega
  obtain ⟨⟨valid, tags⟩, answered⟩ := returns
  refine ⟨valid, tags, answered, ?_⟩
  rintro rfl
  obtain ⟨nonzero, checked⟩ := validateMultibootInfo_true answered
  obtain ⟨sizes, used⟩ := useTags_of_validateTags memoryMap checked
  refine ⟨sizes, ?_⟩
  rw [initMultiboot, if_neg nonzero, answered, Run.ok_bind]
  exact used

end Pocky
