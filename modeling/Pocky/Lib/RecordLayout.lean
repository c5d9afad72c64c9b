import Mathlib.Algebra.Order.Ring.Int
import Mathlib.Data.Nat.Basic

/-! Records of members that are aligned, and padded behind the last one. -/

namespace Pocky

/-- A member of a record. -/
structure Member where
  /-- How many bytes it has. -/
  size : Nat
  /-- What its offset is a multiple of. -/
  align : Nat
  deriving Repr, DecidableEq

namespace Member

/-- A number of bytes. -/
def bytes (count : Nat) : Member := ⟨count, 1⟩

/-- A word of so many bytes. -/
def word (size : Nat) : Member := ⟨size, size⟩

end Member

/-- The next multiple of an alignment. -/
def alignUp (position align : Nat) : Nat := (position + (align - 1)) / align * align

/-- The end of the members, each put behind the ones before it. -/
def recordEnd (members : List Member) : Nat :=
  members.foldl (fun position member => alignUp position member.align + member.size) 0

/-- The offset of a member. -/
def offsetOf (members : List Member) (index : Nat) : Nat :=
  alignUp (recordEnd (members.take index)) ((members.map Member.align).getD index 1)

/-- What the offset of a record is a multiple of. -/
def recordAlign (members : List Member) : Nat := members.foldl (fun align member => max align member.align) 1

/-- The size of a record, so that another one can follow. -/
def recordSize (members : List Member) : Nat := alignUp (recordEnd members) (recordAlign members)

end Pocky
