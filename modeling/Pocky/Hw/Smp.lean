import Pocky.Hw.Acpi
import Pocky.Lib.Traced
import Pocky.Memory.PagedMemory

/-! The table of processors and interrupt controllers, and what is set up for each of them. -/

namespace Pocky

open PagedMemory (pageAt)

/-- The table of processors: a header, the address of the local controllers, and flags. -/
def acpiMadt : List Member := [⟨recordSize acpiSdtHeader, recordAlign acpiSdtHeader⟩, .word 4, .word 4]

/-- What every entry starts with: its type and its length. -/
def acpiMadtEntry : List Member := [.bytes 1, .bytes 1]

/-- The entry of a processor. -/
def acpiMadtLocalApic : List Member := acpiMadtEntry ++ [.bytes 1, .bytes 1, .word 4]

/-- The entry of an interrupt controller. -/
def acpiMadtIoApic : List Member := acpiMadtEntry ++ [.bytes 1, .bytes 1, .word 4, .word 4]

/-- A processor. -/
structure CpuInfo where
  /-- Its number. -/
  id : Nat
  /-- The number of its interrupt controller. -/
  lapicId : Nat
  /-- It is the one that booted. -/
  isBsp : Bool
  /-- Where its interrupt controller lies. -/
  localApicBase : Nat
  /-- The end of its stack, zero for none. -/
  kernelStack : BitVec 64
  /-- It is running. -/
  isActive : Bool
  deriving Repr, DecidableEq

/-- The processors that have been found. -/
structure SmpManager where
  /-- How many there are. -/
  cpuCount : Nat
  /-- Each of them. -/
  cpus : List CpuInfo
  /-- Frames and page tables. -/
  memory : PagedMemory

/-- Where interrupt controllers lie if nothing else is said. -/
def defaultLapicBase : Nat := 0xFEE00000

/-- The size of a processor's stack, in pages. -/
def cpuStackPages : Nat := 4

/-- The processor that is taken for the only one. -/
def soleCpu : CpuInfo := ⟨0, 0, true, defaultLapicBase, 0, true⟩

/-- A byte of the table. -/
def readByte (table : Buffer) (offset : Nat) : Traced UInt8 := .read offset 1 (table offset)

/-- A word of the table. -/
def readWord (table : Buffer) (offset : Nat) : Traced Nat := .read offset 4 (wordAt table offset)

/--
The loop over the entries of the table, with the rounds it may take.

The length of an entry is read after the entry has been looked at.
-/
def entryLoop {σ : Type} (table : Buffer) (length : Nat) (visit : Nat → σ → Traced σ) :
    Nat → Nat → σ → Traced (Option σ)
  | 0, _, _ => pure none
  | rounds + 1, entries, state =>
    if entries < length then do
      let state ← visit entries state
      let step ← readByte table (entries + offsetOf acpiMadtEntry 1)
      entryLoop table length visit rounds (entries + step.toNat) state
    else pure (some state)

/-- Taking the frames of a stack, of which only the first one is kept. -/
def takeStack (memory : PagedMemory) : Nat → Nat × PagedMemory
  | 0 => (0, memory)
  | count + 1 =>
    let (first, memory) := memory.allocateFrame
    (first, (takeStack memory count).2)

/-- Mapping the pages of a stack, which are taken to lie behind its first frame. -/
def mapStack (memory : PagedMemory) (start : BitVec 64) : Nat → PagedMemory
  | 0 => memory
  | count + 1 =>
    (mapStack memory start count).mapPage (pageAt (start + physicalOffset) count) (pageAt start count) true

/-- Looking at an entry for a processor; the register tells which one has booted. -/
def detectCpu (table : Buffer) (apicBase : BitVec 64) (entry : Nat) (smp : SmpManager) :
    Traced SmpManager := do
  let type ← readByte table entry
  if type = 0 then
    let flags ← readWord table (entry + offsetOf acpiMadtLocalApic 4)
    if flags % 2 = 1 then
      let lapicId ← readByte table (entry + offsetOf acpiMadtLocalApic 3)
      let isBsp := apicBase &&& 0x100#64 ≠ 0 ∧ lapicId.toNat = (apicBase >>> 24).toNat
      let localApicBase ← readWord table (offsetOf acpiMadt 1)
      let (start, memory) := takeStack smp.memory cpuStackPages
      let stack := BitVec.ofNat 64 start + physicalOffset
      let cpu : CpuInfo :=
        { id := smp.cpuCount
          lapicId := lapicId.toNat
          isBsp := isBsp
          localApicBase := localApicBase
          kernelStack := if start ≠ 0 then pageAt stack cpuStackPages else 0
          isActive := isBsp }
      return {
        cpuCount := (smp.cpuCount + 1) % 2 ^ 32
        cpus := smp.cpus ++ [cpu]
        memory := if start ≠ 0 then mapStack memory (BitVec.ofNat 64 start) cpuStackPages else memory }
    else return smp
  else return smp

/-- Finding the processors, with the rounds the loop may take. -/
def detectCpus (madt : Option Buffer) (apicBase : BitVec 64) (smp : SmpManager) (rounds : Nat) :
    Traced (Option SmpManager) :=
  match madt with
  | none => pure (some { smp with cpuCount := 1, cpus := smp.cpus ++ [soleCpu] })
  | some table => do
    let length ← readWord table (offsetOf acpiSdtHeader 1)
    let found ← entryLoop table length (detectCpu table apicBase) rounds (recordSize acpiMadt)
      { smp with cpuCount := 0 }
    return found.map fun smp =>
      if smp.cpus = [] then { smp with cpuCount := 1, cpus := [soleCpu] }
      else { smp with cpuCount := if smp.cpuCount = 0 then 1 else smp.cpuCount }

/-- Looking at an entry for an interrupt controller; what is printed of it is left out. -/
def mapIoApic (table : Buffer) (entry : Nat) (memory : PagedMemory) : Traced PagedMemory := do
  let type ← readByte table entry
  if type = 1 then
    let address ← readWord table (entry + offsetOf acpiMadtIoApic 4)
    let _id ← readByte table (entry + offsetOf acpiMadtIoApic 2)
    let _base ← readWord table (entry + offsetOf acpiMadtIoApic 5)
    return memory.mapPage (BitVec.ofNat 64 address + physicalOffset) (BitVec.ofNat 64 address) true
  else return memory

/-- Mapping the interrupt controllers, with the rounds the loop may take. -/
def initIoApic (madt : Option Buffer) (memory : PagedMemory) (rounds : Nat) : Traced (Option PagedMemory) :=
  match madt with
  | none => pure (some memory)
  | some table => do
    let length ← readWord table (offsetOf acpiSdtHeader 1)
    entryLoop table length (mapIoApic table) rounds (recordSize acpiMadt) memory

end Pocky
