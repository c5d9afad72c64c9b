import Mathlib.Algebra.Order.Ring.Int
import Mathlib.Logic.Function.Basic

/-! Block transfers to a disk whose blocks may refuse to be read or written. -/

namespace Pocky

/-- The bytes of one transfer. -/
def blockSize : Nat := 512

/-- A buffer, as the byte at each offset. -/
abbrev Buffer := Nat → UInt8

/--
A disk of blocks of 512 bytes.

Which transfers succeed is up to the device.
A read of one block has one outcome between two writes.
-/
structure Disk where
  /-- The byte at each address. -/
  bytes : Buffer
  /-- How many block writes have been tried. -/
  clock : Nat
  /-- Whether a block can be read after so many write attempts. -/
  readOk : Nat → Nat → Bool
  /-- Whether the write attempt of this number succeeds. -/
  writeOk : Nat → Bool

namespace Disk

/-- Reading consecutive blocks; nothing is returned unless every block can be read. -/
def readSectors (disk : Disk) (lba count : Nat) : Option Buffer :=
  if (List.range count).all fun block => disk.readOk disk.clock (lba + block) then
    some fun offset =>
      if offset < blockSize * count then disk.bytes (blockSize * lba + offset) else 0
  else none

/-- The bytes after one block has been overwritten. -/
def putBlock (bytes : Buffer) (lba : Nat) (data : Buffer) : Buffer :=
  fun addr =>
    if blockSize * lba ≤ addr ∧ addr < blockSize * lba + blockSize then
      data (addr - blockSize * lba)
    else bytes addr

/-- Writing consecutive blocks; a refused block ends the transfer, earlier blocks stay written. -/
def writeSectors (disk : Disk) (lba : Nat) (data : Buffer) : Nat → Bool × Disk
  | 0 => (true, disk)
  | count + 1 =>
    if disk.writeOk disk.clock then
      writeSectors
        { disk with bytes := putBlock disk.bytes lba data, clock := disk.clock + 1 }
        (lba + 1) (fun offset => data (offset + blockSize)) count
    else (false, { disk with clock := disk.clock + 1 })

end Disk

/-- A little-endian word of two bytes. -/
def halfAt (data : Buffer) (offset : Nat) : Nat :=
  (data offset).toNat + 256 * (data (offset + 1)).toNat

/-- A little-endian word of four bytes. -/
def wordAt (data : Buffer) (offset : Nat) : Nat :=
  halfAt data offset + 65536 * halfAt data (offset + 2)

/-- The byte of a number at a position, the lowest at zero. -/
def byteOf (value index : Nat) : UInt8 := UInt8.ofNat (value / 256 ^ index)

/-- A buffer with some consecutive bytes replaced. -/
def putBytes (data : Buffer) (offset count : Nat) (source : Buffer) : Buffer :=
  fun index =>
    if offset ≤ index ∧ index < offset + count then source (index - offset) else data index

/-- A buffer with a four-byte word replaced. -/
def putWord (data : Buffer) (offset value : Nat) : Buffer :=
  putBytes data offset 4 (byteOf value)

end Pocky
