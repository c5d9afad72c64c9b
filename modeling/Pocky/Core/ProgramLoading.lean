import Pocky.Core.ProcessManager
import Pocky.Fs.Files
import Pocky.Memory.Translation

/-! Loading a program and setting up its stack, with all frames handed out on the way. -/

namespace Pocky

/-- A little-endian word of eight bytes. -/
def longAt (data : Buffer) (offset : Nat) : Nat := wordAt data offset + 2 ^ 32 * wordAt data (offset + 4)

/-- The fields of a program header that are read. -/
structure ProgramHeader where
  /-- The kind of the segment. -/
  type : Nat
  /-- The flag bits. -/
  flags : Nat
  /-- Where the segment lies in the file. -/
  offset : BitVec 64
  /-- Where it goes in memory. -/
  vaddr : BitVec 64
  /-- Its bytes in the file. -/
  filesz : BitVec 64
  /-- Its bytes in memory. -/
  memsz : BitVec 64
  deriving Repr, DecidableEq

/-- The kind of the segments that are loaded. -/
def ptLoad : Nat := 1

namespace ProgramHeader

/-- The segment may be written to. -/
def writable (header : ProgramHeader) : Bool := header.flags.testBit 1

/-- The page it starts in. -/
def vaddrStart (header : ProgramHeader) : BitVec 64 := header.vaddr &&& pageMask

/-- The page boundary it ends at. -/
def vaddrEnd (header : ProgramHeader) : BitVec 64 :=
  (header.vaddr + header.memsz + 0xFFF#64) &&& pageMask

/-- The addresses of its pages; both ends are page-aligned, so there is one for each round. -/
def pages (header : ProgramHeader) : List (BitVec 64) :=
  (List.range ((header.vaddrEnd.toNat - header.vaddrStart.toNat) / 4096)).map
    (PagedMemory.pageAt header.vaddrStart)

/-- The region recorded for it. -/
def region (header : ProgramHeader) : MemoryRegion :=
  ⟨header.vaddrStart, header.vaddrEnd - header.vaddrStart⟩

/-- A header of a file. -/
def read (file : Buffer) (index : Nat) : ProgramHeader :=
  let base := longAt file 32 + 56 * index
  { type := wordAt file base
    flags := wordAt file (base + 4)
    offset := BitVec.ofNat 64 (longAt file (base + 8))
    vaddr := BitVec.ofNat 64 (longAt file (base + 16))
    filesz := BitVec.ofNat 64 (longAt file (base + 32))
    memsz := BitVec.ofNat 64 (longAt file (base + 40)) }

/-- The headers of a file, in order. -/
def readAll (file : Buffer) : List ProgramHeader := (List.range (halfAt file 56)).map (read file)

end ProgramHeader

/-- The checks on the header of a program file. -/
def validateElfHeader (file : Buffer) : Bool :=
  -- Four bytes of magic, the class, the byte order, the type and the number of sections.
  wordAt file 0 == 0x464C457F && file 4 == 2 && file 5 == 1 &&
    (halfAt file 16 == 2 || halfAt file 16 == 3) && halfAt file 60 != 0

/-- The processor accepts an address whose upper bits repeat the forty-eighth. -/
def canonical (virtualAddr : BitVec 64) : Bool :=
  (virtualAddr.setWidth 48).signExtend 64 == virtualAddr

/-- An entry lets writes through. -/
def PageTableEntry.writable (entry : PageTableEntry) : Bool := entry.flag 1

/-- The entries on the way to an address let writes through, as far as the way goes. -/
def VirtualMemoryManager.writableAt (vmm : VirtualMemoryManager) (virtualAddr : BitVec 64) : Bool :=
  let pml4Entry := vmm.readEntry vmm.pml4 (VirtualMemoryManager.pml4Index virtualAddr)
  let pdptEntry :=
    vmm.readEntry pml4Entry.frameBits.toNat (VirtualMemoryManager.pdptIndex virtualAddr)
  let pdEntry := vmm.readEntry pdptEntry.frameBits.toNat (VirtualMemoryManager.pdIndex virtualAddr)
  let ptEntry := vmm.readEntry pdEntry.frameBits.toNat (VirtualMemoryManager.ptIndex virtualAddr)
  pml4Entry.writable && pdptEntry.writable && pdEntry.writable &&
    (pdEntry.hugePage || ptEntry.writable)

/-- A word with one of its bytes replaced, the lowest at zero. -/
def setByte (word : BitVec 64) (index : Nat) (byte : UInt8) : BitVec 64 :=
  (word &&& ~~~(0xFF#64 <<< (8 * index))) ||| (BitVec.ofNat 64 byte.toNat <<< (8 * index))

/-- Frames handed out for pages in a row, up to the first null answer. -/
structure Backing where
  /-- The frames, each with the address of its page, oldest first. -/
  handed : List (BitVec 64 × Nat)
  /-- The allocator gave null for a page. -/
  short : Bool
  /-- The memory afterwards. -/
  memory : PagedMemory

namespace PagedMemory

/-- Backing pages with new frames one after the other, until the allocator gives null. -/
def backAll (memory : PagedMemory) (writable : Bool) : List (BitVec 64) → Backing
  | [] => ⟨[], false, memory⟩
  | addr :: addrs =>
    let (frame, memory) := memory.allocateFrame
    if frame = 0 then ⟨[], true, memory⟩
    else
      let memory := memory.mapPage addr (BitVec.ofNat 64 frame) writable
      let rest := memory.backAll writable addrs
      { rest with handed := (addr, frame) :: rest.handed }

/-- Storing a byte; the processor stops for good at a page that is missing or write-protected. -/
def storeByte (memory : PagedMemory) (virtualAddr : BitVec 64) (byte : UInt8) :
    Option PagedMemory :=
  if canonical virtualAddr && memory.vmm.writableAt virtualAddr then
    (memory.vmm.translate virtualAddr).map fun physicalAddr =>
      let word := physicalAddr.toNat / 8
      { memory with
        vmm := memory.vmm.writeEntry 0 word
          (setByte (memory.vmm.readEntry 0 word) (physicalAddr.toNat % 8) byte) }
  else none

/-- Storing bytes from an address on, in order. -/
def storeBytes (memory : PagedMemory) (virtualAddr : BitVec 64) (data : Buffer) :
    Nat → Option PagedMemory
  | 0 => some memory
  | count + 1 => do
    let memory ← memory.storeBytes virtualAddr data count
    memory.storeByte (virtualAddr + BitVec.ofNat 64 count) (data count)

/-- Loading a segment: its pages are backed, and its bytes copied and padded with zeros. -/
def loadSegment (memory : PagedMemory) (file : Buffer) (header : ProgramHeader) : Option Backing :=
  let backing := memory.backAll header.writable header.pages
  if backing.short then some backing
  else do
    let memory ← backing.memory.storeBytes header.vaddr (shifted file header.offset.toNat)
      header.filesz.toNat
    let memory ←
      if header.filesz < header.memsz then
        memory.storeBytes (header.vaddr + header.filesz) (fun _ => 0)
          (header.memsz - header.filesz).toNat
      else some memory
    return { backing with memory := memory }

end PagedMemory

/-- Segments loaded in a row, up to the first null answer. -/
structure Loading where
  /-- What became of the pages. -/
  backing : Backing
  /-- The regions recorded, newest first. -/
  regions : List MemoryRegion
  /-- The highest end of a segment. -/
  highest : BitVec 64

namespace PagedMemory

/-- Loading the segments of a program one after the other; each is recorded once it is complete. -/
def loadSegments (memory : PagedMemory) (file : Buffer) (regions : List MemoryRegion)
    (highest : BitVec 64) : List ProgramHeader → Option Loading
  | [] => some ⟨⟨[], false, memory⟩, regions, highest⟩
  | header :: headers =>
    if header.type ≠ ptLoad then memory.loadSegments file regions highest headers
    else do
      let first ← memory.loadSegment file header
      if first.short then return ⟨first, regions, highest⟩
      else
        let rest ← first.memory.loadSegments file (header.region :: regions)
          (if highest < header.vaddrEnd then header.vaddrEnd else highest) headers
        return { rest with
          backing := { rest.backing with handed := first.handed ++ rest.backing.handed } }

end PagedMemory

/-- The fields of a process that only its program uses. -/
structure ProgramState where
  /-- Where the program starts. -/
  entryPoint : BitVec 64
  /-- The end of its data. -/
  brk : BitVec 64
  /-- The same, as it was when the program was loaded. -/
  programBreak : BitVec 64
  /-- The end of its stack. -/
  userStack : BitVec 64
  /-- How many arguments it has. -/
  argc : Nat
  /-- Its arguments, by the addresses of their copies. -/
  argv : List (BitVec 64)
  /-- Its environment, by the addresses of the copies. -/
  envp : List (BitVec 64)
  /-- The stack pointer it starts with. -/
  rsp : BitVec 64
  /-- The frame pointer it starts with. -/
  rbp : BitVec 64
  /-- The instruction it starts with. -/
  rip : BitVec 64
  /-- Its code segment. -/
  cs : BitVec 64
  /-- Its stack segment. -/
  ss : BitVec 64
  /-- Its flags. -/
  rflags : BitVec 64
  deriving Repr, DecidableEq

/-- What came of a call that sets up a process. -/
structure SetUp where
  /-- The answer of the call. -/
  told : Bool
  /-- The call failed because the allocator gave null. -/
  short : Bool
  /-- The frames handed out for pages in the call, each with the address of its page. -/
  handed : List (BitVec 64 × Nat)
  /-- The kernel afterwards. -/
  kernel : Kernel
  /-- The program's fields afterwards. -/
  program : ProgramState

/-- Bytes in the stack of a program. -/
def userStackSize : Nat := 8 * 1024 * 1024

/-- Where that stack ends. -/
def userStackTop : BitVec 64 := 0x7FFFFFFFFFFF#64

/-- The addresses of its pages. -/
def userStackPages : List (BitVec 64) :=
  (List.range ((userStackSize + 4095) / 4096)).map
    (PagedMemory.pageAt (userStackTop - BitVec.ofNat 64 userStackSize))

namespace Kernel

/-- Giving a process other memory regions, in other memory. -/
def setRegions (kernel : Kernel) (process : Nat) (memory : PagedMemory)
    (regions : List MemoryRegion) : Kernel :=
  { kernel with
    memory := memory
    records := Function.update kernel.records process
      { kernel.records process with memoryRegions := regions } }

/-- Cleaning up after a call that fails, with the frames it was handed. -/
def abandonSetUp (kernel : Kernel) (process : Nat) (program : ProgramState) (short : Bool)
    (handed : List (BitVec 64 × Nat)) : Run SetUp := do
  let kernel ← kernel.cleanupProcessMemory process
  return ⟨false, short, handed, kernel, { program with brk := 0#64, programBreak := 0#64 }⟩

/--
Loading a program; there is no answer where the processor stops for good.

The buffer for the file is new, and holds anything before the file is read into it.
-/
def loadProgram (kernel : Kernel) (fs : FileSystem) (buffer : Buffer) (program : ProgramState)
    (process : Nat) (path : Name) : Run (Option SetUp) := do
  match ← fs.findFile path with
  | none => return some ⟨false, false, [], kernel, program⟩
  | some found =>
    if isDirectory found.attributes then return some ⟨false, false, [], kernel, program⟩
    else
      let file := fs.readFile found.cluster buffer found.size
      if !validateElfHeader file then return some ⟨false, false, [], kernel, program⟩
      else
        let program := { program with entryPoint := BitVec.ofNat 64 (longAt file 24) }
        match kernel.memory.loadSegments file (kernel.records process).memoryRegions 0#64
            (ProgramHeader.readAll file) with
        | none => return none
        | some loading =>
          let kernel := kernel.setRegions process loading.backing.memory loading.regions
          if loading.backing.short then
            let failed ← kernel.abandonSetUp process program true loading.backing.handed
            return some failed
          else
            return some ⟨true, false, loading.backing.handed, kernel,
              { program with brk := loading.highest, programBreak := loading.highest }⟩

/--
Setting up the stack of a program; there is no answer where the processor stops for good.

Arguments and environment are given by the addresses of their copies on the heap.
-/
def setupProcessStack (kernel : Kernel) (program : ProgramState) (process : Nat)
    (argv envp : Option (List (BitVec 64))) : Run (Option SetUp) := do
  let backing := kernel.memory.backAll true userStackPages
  let kernel := kernel.setRegions process backing.memory (kernel.records process).memoryRegions
  if backing.short then
    let failed ← kernel.abandonSetUp process program true backing.handed
    return some failed
  else
    let arguments := argv.getD []
    let program := { program with userStack := userStackTop, argc := arguments.length }
    -- The number of arguments comes first, and each list ends with null.
    let words := BitVec.ofNat 64 arguments.length :: arguments ++ [0#64] ++
      (envp.map (· ++ [0#64])).getD []
    let required := 8 * words.length
    if required > userStackSize then
      let failed ← kernel.abandonSetUp process program false backing.handed
      return some failed
    else
      let start := userStackTop - BitVec.ofNat 64 required
      let bytes : Buffer := fun index => byteOf (words.getD (index / 8) 0#64).toNat (index % 8)
      match backing.memory.storeBytes start bytes required with
      | none => return none
      | some memory =>
        let region := ⟨userStackTop - BitVec.ofNat 64 userStackSize, BitVec.ofNat 64 userStackSize⟩
        let kernel := kernel.setRegions process memory
          (region :: (kernel.records process).memoryRegions)
        return some ⟨true, false, backing.handed, kernel,
          { program with
            argv := arguments
            envp := envp.getD program.envp
            rsp := start
            rbp := start
            rip := program.entryPoint
            cs := 0x23#64
            ss := 0x1B#64
            rflags := 0x202#64 }⟩

end Kernel

end Pocky
