import Pocky.Memory.PhysicalMemory

/-! Four-level page tables: entries, the walk, and mapping and unmapping of pages. -/

namespace Pocky

/-- One 64-bit entry of a page table at any level. -/
abbrev PageTableEntry := BitVec 64

namespace PageTableEntry

/-- Reading one flag bit. -/
def flag (entry : PageTableEntry) (bit : Nat) : Bool := entry &&& (1#64 <<< bit) != 0#64

/-- Writing one flag bit. -/
def setFlag (entry : PageTableEntry) (bit : Nat) (on : Bool) : PageTableEntry :=
  (entry &&& ~~~(1#64 <<< bit)) ||| (if on then 1#64 <<< bit else 0#64)

/-- The entry is in use. -/
def present (entry : PageTableEntry) : Bool := entry.flag 0

/-- The entry maps a large page instead of pointing to a table. -/
def hugePage (entry : PageTableEntry) : Bool := entry.flag 7

/-- Marking an entry as in use. -/
def setPresent (entry : PageTableEntry) (on : Bool) : PageTableEntry := entry.setFlag 0 on

/-- Allowing writes. -/
def setWritable (entry : PageTableEntry) (on : Bool) : PageTableEntry := entry.setFlag 1 on

/-- Allowing user code. -/
def setUser (entry : PageTableEntry) (on : Bool) : PageTableEntry := entry.setFlag 2 on

/-- Asking for write-through caching. -/
def setPwt (entry : PageTableEntry) (on : Bool) : PageTableEntry := entry.setFlag 3 on

/-- Disabling the cache. -/
def setPcd (entry : PageTableEntry) (on : Bool) : PageTableEntry := entry.setFlag 4 on

/-- Marking an entry as accessed. -/
def setAccessed (entry : PageTableEntry) (on : Bool) : PageTableEntry := entry.setFlag 5 on

/-- Marking an entry as a large page. -/
def setHugePage (entry : PageTableEntry) (on : Bool) : PageTableEntry := entry.setFlag 7 on

/-- The physical address an entry holds. -/
def address (entry : PageTableEntry) : BitVec 64 :=
  if entry.hugePage then entry &&& 0xFFFFFFFE00000#64 else entry &&& 0xFFFFFFFFF000#64

/-- Replacing the address and keeping the flags below it. -/
def setAddress (entry : PageTableEntry) (addr : BitVec 64) : PageTableEntry :=
  if entry.hugePage then (entry &&& 0x1FFFFF#64) ||| (addr &&& ~~~0x1FFFFF#64)
  else (entry &&& 0xFFF#64) ||| (addr &&& ~~~0xFFF#64)

end PageTableEntry

/-- An entry that holds nothing. -/
def emptyEntry : PageTableEntry := 0#64

/-- Entries of one table. -/
def entriesPerTable : Nat := 512

/-- The bits of an address that name its page. -/
def pageMask : BitVec 64 := 0xFFFFFFFFFFFFF000#64

/--
The page tables in physical memory.

The frame allocator appears through its answers, in the order it gives them.
After the last one it answers null.
-/
structure VirtualMemoryManager where
  /-- The 64-bit word at each address. -/
  memory : Nat → PageTableEntry
  /-- The address of the top table. -/
  pml4 : Nat
  /-- The frames the allocator will hand out next. -/
  frames : List Nat

namespace VirtualMemoryManager

/-- The next answer of the frame allocator. -/
def nextFrame (vmm : VirtualMemoryManager) : Nat × VirtualMemoryManager :=
  match vmm.frames with
  | [] => (0, vmm)
  | frame :: rest => (frame, { vmm with frames := rest })

/-- The entry at an index of a table. -/
def readEntry (vmm : VirtualMemoryManager) (table index : Nat) : PageTableEntry :=
  vmm.memory (table + 8 * index)

/-- Storing an entry at an index of a table. -/
def writeEntry (vmm : VirtualMemoryManager) (table index : Nat) (entry : PageTableEntry) :
    VirtualMemoryManager :=
  { vmm with memory := Function.update vmm.memory (table + 8 * index) entry }

/-- Zeroing the page a table occupies. -/
def clearTable (vmm : VirtualMemoryManager) (table : Nat) : VirtualMemoryManager :=
  { vmm with
    memory := fun addr =>
      if table ≤ addr ∧ addr < table + 8 * entriesPerTable then emptyEntry else vmm.memory addr }

/-- Taking a frame and zeroing it; the source zeroes the null page too when there is no frame. -/
def createPageTable (vmm : VirtualMemoryManager) : Nat × VirtualMemoryManager :=
  let (table, vmm) := vmm.nextFrame
  (table, vmm.clearTable table)

/-- An entry made to point to a table or page. -/
def pointTo (entry : PageTableEntry) (addr : BitVec 64) (writable : Bool) : PageTableEntry :=
  -- Address, presence, write access and user access are set in this order.
  (((entry.setAddress addr).setPresent true).setWritable writable).setUser false

/-- One step of the walk, creating the next table if asked to; zero is the null pointer. -/
def getNextLevel (vmm : VirtualMemoryManager) (table index : Nat) (create : Bool) :
    Nat × VirtualMemoryManager :=
  let vmm :=
    if !(vmm.readEntry table index).present && create then
      let (next, vmm) := vmm.createPageTable
      vmm.writeEntry table index (pointTo (vmm.readEntry table index) (BitVec.ofNat 64 next) true)
    else vmm
  if !(vmm.readEntry table index).present then (0, vmm)
  else ((vmm.readEntry table index).address.toNat, vmm)

/-- The nine bits of an address that index a table at one level. -/
def tableIndex (shift : Nat) (virtualAddr : BitVec 64) : Nat :=
  ((virtualAddr >>> shift) &&& 0x1FF#64).toNat

/-- The index into the top table. -/
def pml4Index (virtualAddr : BitVec 64) : Nat := tableIndex 39 virtualAddr

/-- The index into the second table. -/
def pdptIndex (virtualAddr : BitVec 64) : Nat := tableIndex 30 virtualAddr

/-- The index into the third table. -/
def pdIndex (virtualAddr : BitVec 64) : Nat := tableIndex 21 virtualAddr

/-- The index into the last table. -/
def ptIndex (virtualAddr : BitVec 64) : Nat := tableIndex 12 virtualAddr

/-- The three steps from the top table to a last table, stopping at the first null pointer. -/
def walk (vmm : VirtualMemoryManager) (virtualAddr : BitVec 64) (create : Bool) :
    Nat × VirtualMemoryManager :=
  let (pdpt, vmm) := vmm.getNextLevel vmm.pml4 (pml4Index virtualAddr) create
  if pdpt = 0 then (0, vmm)
  else
    let (pd, vmm) := vmm.getNextLevel pdpt (pdptIndex virtualAddr) create
    if pd = 0 then (0, vmm)
    else vmm.getNextLevel pd (pdIndex virtualAddr) create

/-- Mapping a page; a page that is mapped already is left alone. -/
def mapPage (vmm : VirtualMemoryManager) (virtualAddr physicalAddr : BitVec 64) (writable : Bool) :
    VirtualMemoryManager :=
  let virtualAddr := virtualAddr &&& pageMask
  let physicalAddr := physicalAddr &&& pageMask
  let (pt, vmm) := vmm.walk virtualAddr true
  if pt = 0 then vmm
  else
    let entry := vmm.readEntry pt (ptIndex virtualAddr)
    if !entry.present then
      vmm.writeEntry pt (ptIndex virtualAddr) (pointTo entry physicalAddr writable)
    else vmm

/-- Unmapping a page. -/
def unmapPage (vmm : VirtualMemoryManager) (virtualAddr : BitVec 64) : VirtualMemoryManager :=
  let virtualAddr := virtualAddr &&& pageMask
  let (pt, vmm) := vmm.walk virtualAddr false
  if pt = 0 then vmm else vmm.writeEntry pt (ptIndex virtualAddr) emptyEntry

/-- The physical address a virtual one is translated to, zero for none. -/
def getPhysicalAddress (vmm : VirtualMemoryManager) (virtualAddr : BitVec 64) : BitVec 64 :=
  let virtualAddr := virtualAddr &&& pageMask
  let (pt, vmm) := vmm.walk virtualAddr false
  if pt = 0 then 0#64
  else
    let entry := vmm.readEntry pt (ptIndex virtualAddr)
    if !entry.present then 0#64
    else (entry.address &&& pageMask) ||| (virtualAddr &&& ~~~pageMask)

/-- The entry that maps the two megabytes at an index to themselves. -/
def largeEntry (index : Nat) : PageTableEntry :=
  -- The flag comes first, so that the address is stored as that of a large page.
  let entry := (emptyEntry.setHugePage true).setAddress (BitVec.ofNat 64 (index * 0x200000))
  ((entry.setPresent true).setWritable true).setUser false

/-- The large-page entries for the first sixteen megabytes. -/
def mapFirstPages (vmm : VirtualMemoryManager) (pd : Nat) : Nat → VirtualMemoryManager
  | 0 => vmm
  | count + 1 => (vmm.mapFirstPages pd count).writeEntry pd count (largeEntry count)

/-- The flags of the first entry of the second table, before it gets its address. -/
def flagged : PageTableEntry :=
  let entry := ((emptyEntry.setPresent true).setWritable true).setUser false
  ((entry.setPwt false).setPcd false).setAccessed false

/--
Building the tables at boot.

Each missing frame ends the set-up early.
The debug text the source writes to the screen is left out.
-/
def initializeTables (vmm : VirtualMemoryManager) : VirtualMemoryManager :=
  let (pml4, vmm) := vmm.nextFrame
  let vmm := { vmm with pml4 := pml4 }
  if pml4 = 0 then vmm
  else
    let vmm := vmm.clearTable pml4
    let (pdpt, vmm) := vmm.createPageTable
    if pdpt = 0 then vmm
    else
      let vmm := vmm.writeEntry pml4 0 (pointTo emptyEntry (BitVec.ofNat 64 pdpt) true)
      let (pd, vmm) := vmm.createPageTable
      if pd = 0 then vmm
      else
        -- Here the source sets the flags before the address.
        let vmm := vmm.writeEntry pdpt 0 (flagged.setAddress (BitVec.ofNat 64 pd))
        let vmm := vmm.mapFirstPages pd 8
        let (kernelPdpt, vmm) := vmm.createPageTable
        if kernelPdpt = 0 then vmm
        else
          let entry := pointTo (vmm.readEntry pml4 511) (BitVec.ofNat 64 kernelPdpt) true
          let vmm := vmm.writeEntry pml4 511 entry
          -- The screen lies under a large page, so this maps nothing.
          vmm.mapPage 0xB8000#64 0xB8000#64 true

end VirtualMemoryManager

end Pocky
