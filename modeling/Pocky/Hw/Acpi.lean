import Pocky.Fs.Disk
import Pocky.Lib.ByteMemory
import Pocky.Lib.RecordLayout
import Pocky.Lib.Run
import Pocky.Memory.VirtualMemory

/-! Finding the firmware's tables: the root pointer, checksums, and the pages they lie in. -/

namespace Pocky

/-- The root pointer: signature, checksum, vendor, revision, two addresses, length and a second checksum. -/
def acpiRsdp : List Member :=
  [.bytes 8, .bytes 1, .bytes 6, .bytes 1, .word 4, .word 4, .word 8, .bytes 1, .bytes 3]

/-- The header of a table, which starts with its signature and its length. -/
def acpiSdtHeader : List Member :=
  [.bytes 4, .word 4, .bytes 1, .bytes 1, .bytes 6, .bytes 8, .word 4, .word 4, .word 4]

/-- The members of the root pointer leave room behind the last one. -/
theorem acpiRsdp_layout : offsetOf acpiRsdp 3 = 15 ∧ recordEnd acpiRsdp = 36 ∧ recordSize acpiRsdp = 40 := by
  -- The member of eight bytes aligns the whole record.
  decide

/-- The members of a header leave none. -/
theorem acpiSdtHeader_layout :
    offsetOf acpiSdtHeader 1 = 4 ∧ recordEnd acpiSdtHeader = 36 ∧ recordSize acpiSdtHeader = 36 := by
  decide

/-- The bytes that name a root pointer: RSD PTR and a space. -/
def rsdpSignature : List (BitVec 8) := [0x52, 0x53, 0x44, 0x20, 0x50, 0x54, 0x52, 0x20]

/-- Adding up bytes from an address on, in one byte. -/
def byteSum (memory : ByteMemory) (addr : BitVec 64) : Nat → BitVec 8
  | 0 => 0
  | count + 1 => byteSum memory addr count + memory (addr + BitVec.ofNat 64 count)

/-- Comparing the first bytes at an address with the name of a root pointer. -/
def hasSignature (memory : ByteMemory) (addr : BitVec 64) : Bool :=
  (List.range 8).all fun index => memory (addr + BitVec.ofNat 64 index) == rsdpSignature.getD index 0

/-- The revision in a root pointer. -/
def rsdpRevision (memory : ByteMemory) (addr : BitVec 64) : BitVec 8 :=
  memory (addr + BitVec.ofNat 64 (offsetOf acpiRsdp 3))

/-- Whether a root pointer is taken: a later revision is summed up as far as the record goes. -/
def acceptsRsdp (memory : ByteMemory) (addr : BitVec 64) : Bool :=
  hasSignature memory addr && byteSum memory addr 20 == 0 &&
    if 2 ≤ rsdpRevision memory addr then byteSum memory addr (recordSize acpiRsdp) == 0 else true

/-- The loop over addresses that are sixteen bytes apart, with the rounds it may take. -/
def findRsdp (memory : ByteMemory) (stop : BitVec 64) : Nat → BitVec 64 → Run (Option (BitVec 64))
  | 0, _ => .error .diverges
  | rounds + 1, addr =>
    if addr < stop then
      if acceptsRsdp memory addr then .ok (some addr) else findRsdp memory stop rounds (addr + 16#64)
    else .ok none

/-- The length in the header of a table, whose bytes are given by their offsets. -/
def tableLength (table : Buffer) : Nat := wordAt table (offsetOf acpiSdtHeader 1)

/-- Adding up all bytes of a table, in one byte. -/
def tableSum (table : Buffer) : Nat → UInt8
  | 0 => 0
  | count + 1 => tableSum table count + table count

/-- Checking that the bytes of a table add up to zero. -/
def verifyTableChecksum (table : Buffer) : Bool := tableSum table (tableLength table) == 0

/-- Where the kernel's half of the address space shows physical memory. -/
def physicalOffset : BitVec 64 := 0xFFFF800000000000#64

/-- Mapping the pages behind the first one, as long as an offset lies inside the table. -/
def mapRest (phys : BitVec 64) (length offset : Nat) (vmm : VirtualMemoryManager) :
    VirtualMemoryManager :=
  if offset < length then
    mapRest phys length (offset + 4096)
      (vmm.mapPage (phys + physicalOffset + BitVec.ofNat 64 offset) (phys + BitVec.ofNat 64 offset) true)
  else vmm
termination_by length - offset
decreasing_by omega

/-- What mapping a table has done, step by step. -/
structure MappedTable where
  /-- The page tables when the header is read first. -/
  header : VirtualMemoryManager
  /-- The page tables when the bytes are summed up, and afterwards. -/
  summed : VirtualMemoryManager
  /-- The address of the table, unless its sum is wrong. -/
  answer : Option (BitVec 64)

/-- Mapping a table and checking its sum; the message for a wrong sum is left out. -/
def mapAndVerifyTable (vmm : VirtualMemoryManager) (phys : BitVec 64) (table : Buffer) : MappedTable :=
  let virtAddr := phys + physicalOffset
  let header := vmm.mapPage virtAddr phys true
  let summed := mapRest phys (tableLength table) 4096 header
  { header := header
    summed := summed
    answer := if verifyTableChecksum table then some virtAddr else none }

end Pocky
