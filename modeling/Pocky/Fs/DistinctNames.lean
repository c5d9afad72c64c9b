import Pocky.Fs.AllOrNothing
import Pocky.Fs.CreateDelete
import Pocky.Fs.Emptiness
import Pocky.Fs.Renaming

/-! Directory sectors whose entries have different names, and the edits that keep them so. -/

namespace Pocky

/-- What a slot leads to: nothing if it is free or part of a long name. Dot entries lead somewhere. -/
def slotTarget (data : Buffer) (slot : Nat) : Option Head :=
  if freeByte (data (slotSize * slot)) = true ∨ entryAttributes data (slotSize * slot) = 0x0F then none
  else some ⟨entryCluster data (slotSize * slot),
    isDirectory (entryAttributes data (slotSize * slot))⟩

/-- A sector in which no live slot follows an unused one, and no two slots have the same name. -/
structure Distinct (data : Buffer) : Prop where
  /-- Lookups pass over no slot. -/
  order : SlotOrder data
  /-- A name is that of one slot. -/
  once : ∀ slot < 16, ∀ other < 16, ∀ name, SlotNames data name (slotSize * slot) →
    SlotNames data name (slotSize * other) → slot = other

/-- A slot with a name leads to its start cluster. -/
theorem SlotNames.target {data : Buffer} {name : Name} {slot : Nat}
    (names : SlotNames data name (slotSize * slot)) : slotTarget data slot =
      some ⟨entryCluster data (slotSize * slot),
        isDirectory (entryAttributes data (slotSize * slot))⟩ := by
  rw [slotTarget, if_neg]
  rintro (free | long)
  · rw [names.1] at free
    cases free
  · exact names.2.1 long

/-- A free slot leads nowhere. -/
theorem slotTarget_free {data : Buffer} {slot : Nat}
    (free : freeByte (data (slotSize * slot)) = true) : slotTarget data slot = none := by
  rw [slotTarget, if_pos (Or.inl free)]

/-- A slot that leads somewhere is live and says where it leads. -/
theorem slotTarget_some {data : Buffer} {slot : Nat} {head : Head}
    (leads : slotTarget data slot = some head) : freeByte (data (slotSize * slot)) = false ∧
      entryAttributes data (slotSize * slot) ≠ 0x0F ∧
      head = ⟨entryCluster data (slotSize * slot),
        isDirectory (entryAttributes data (slotSize * slot))⟩ := by
  rw [slotTarget] at leads
  split at leads
  · cases leads
  · rename_i live
    rw [not_or, Bool.not_eq_true] at live
    exact ⟨live.1, live.2, (Option.some.inj leads).symm⟩

/-- What a slot leads to depends on its bytes. -/
theorem slotTarget_congr {data data' : Buffer} {slot : Nat}
    (same : ∀ byte < slotSize, data' (slotSize * slot + byte) = data (slotSize * slot + byte)) :
    slotTarget data' slot = slotTarget data slot := by
  have first := same 0 (by decide)
  rw [Nat.add_zero] at first
  simp only [slotTarget, first, entryAttributes, same 11 (by decide), entryCluster, halfAt,
    Nat.add_assoc, same 26 (by decide), same (26 + 1) (by decide)]

/-- Whether a slot counts for emptiness depends on its bytes. -/
theorem counted_congr {data data' : Buffer} {slot : Nat}
    (same : ∀ byte < slotSize, data' (slotSize * slot + byte) = data (slotSize * slot + byte)) :
    Counted data' (slotSize * slot) ↔ Counted data (slotSize * slot) := by
  have first := same 0 (by decide)
  rw [Nat.add_zero] at first
  simp only [Counted, first, slotNamed, dot, dotDot, List.cons_append, List.nil_append,
    List.zipIdx_cons, List.zipIdx_nil, List.all_cons, List.all_nil, same (0 + 1) (by decide),
    same (0 + 1 + 1) (by decide), Nat.add_zero]

/-- An entry with a name is found under it: the name is not cut, and its slot is not passed over. -/
def ReadBack (name : Name) (attributes : UInt8) : Prop :=
  name.length ≤ 11 ∧
    SlotNames (FileSystem.entryBytes (FileSystem.shortName name) attributes 0 0) name 0

instance (name : Name) (attributes : UInt8) : Decidable (ReadBack name attributes) :=
  inferInstanceAs (Decidable (_ ∧ _))

/-- A name padded with zeros is read back; only one of eleven bytes loses the spaces at its end. -/
theorem entryName_zeros {data : Buffer} {offset : Nat} {name : Name} (short : name.length ≤ 11)
    (text : 0 ∉ name) (bytes : ∀ index < 11, data (offset + index) = name.getD index 0x00) :
    entryName data offset = if name.length = 11 then name.rdropWhile (· == 0x20) else name := by
  have read : (List.range 11).map (fun index => data (offset + index)) =
      name ++ List.replicate (11 - name.length) 0x00 := by
    rw [← map_getD_range name 0x00 short]
    exact List.map_congr_left fun index member => bytes index (List.mem_range.mp member)
  have nonzero : ∀ byte ∈ name, (byte != 0) = true := by
    intro byte member
    simp only [bne_iff_ne, ne_eq]
    rintro rfl
    exact text member
  rw [entryName, read]
  split
  · rename_i whole
    rw [whole, Nat.sub_self, List.replicate_zero, List.append_nil]
    exact List.takeWhile_eq_self_iff.mpr fun byte member =>
      nonzero byte ((List.rdropWhile_prefix _ (l := name)).subset member)
  · -- The last of the eleven bytes is a zero, and nothing is dropped.
    obtain ⟨count, padding⟩ : ∃ count, 11 - name.length = count + 1 := ⟨10 - name.length, by omega⟩
    rw [padding, List.replicate_succ, rdropWhile_append_cons _ _ (by decide),
      List.takeWhile_append_of_pos nonzero]
    simp

/-- A name that a slot has can be given to another slot. -/
theorem SlotNames.readBack {data : Buffer} {name : Name} {offset : Nat} {attributes : UInt8}
    (names : SlotNames data name offset) (nonempty : name ≠ []) (kind : attributes ≠ 0x0F) :
    ReadBack name attributes := by
  obtain ⟨live, -, named⟩ := names
  -- The name is the front of the eleven bytes, up to a zero or to the spaces at the end.
  generalize eleven : (List.range 11).map (fun index => data (offset + index)) = read
  have named' : (read.rdropWhile (· == 0x20)).takeWhile (· != 0) = name := by
    rw [← eleven]
    exact named
  have length : read.length = 11 := by rw [← eleven, List.length_map, List.length_range]
  have front : name <+: read.rdropWhile (· == 0x20) := named' ▸ List.takeWhile_prefix _
  have inside : name <+: read := front.trans (List.rdropWhile_prefix _ _)
  have short : name.length ≤ 11 := length ▸ inside.length_le
  have text : 0 ∉ name := by
    intro member
    rw [← named'] at member
    simpa using List.mem_takeWhile_imp member
  have whole : FileSystem.shortName name = name := List.take_of_length_le short
  have bytes : ∀ index < 11, FileSystem.entryBytes name attributes 0 0 (0 + index) =
      name.getD index 0x00 := by
    intro index small
    rw [Nat.zero_add, FileSystem.entryBytes, if_pos small, whole]
  obtain ⟨first, rest, rfl⟩ := List.exists_cons_of_ne_nil nonempty
  refine ⟨short, ?_, kind, ?_⟩
  · -- Its first byte is that of the live slot.
    have head : read.head? = some (data offset) := by
      rw [← eleven]
      rfl
    obtain ⟨others, parts⟩ := inside
    rw [← parts] at head
    obtain rfl : first = data offset := Option.some.inj head
    rw [whole]
    exact live
  · rw [whole, entryName_zeros short text bytes]
    split
    · rename_i full
      -- All eleven bytes are the name, so there was no space at the end.
      have same : first :: rest = read := inside.eq_of_length (full.trans length.symm)
      rw [← same] at front
      have dropped := List.rdropWhile_prefix (· == (0x20 : UInt8)) (first :: rest)
      exact dropped.eq_of_length (Nat.le_antisymm dropped.length_le front.length_le)
    · rfl

namespace Distinct

variable {data data' : Buffer} {slot : Nat} {name : Name}

/-- A name that is not found is in no slot. -/
theorem absent (distinct : Distinct data) (none : findName data name 16 0 = none) {slot : Nat}
    (small : slot < 16) : ¬ SlotNames data name (slotSize * slot) := by
  intro names
  refine findName_eq_none_iff.mp none slot small (fun earlier below unused => ?_)
    (by rwa [Nat.zero_add])
  -- An unused slot in front would leave this one free.
  rw [Nat.zero_add] at unused
  have free := distinct.order earlier (Nat.lt_trans below small) unused slot small below
  rw [names.1] at free
  cases free

/-- A slot gets a name that no other slot has. -/
theorem edit (distinct : Distinct data) (change : ChangesSlot slot data data')
    (order : SlotOrder data')
    (other : ∀ name, SlotNames data' name (slotSize * slot) → ∀ place < 16, place ≠ slot →
      ¬ SlotNames data name (slotSize * place)) : Distinct data' := by
  have kept : ∀ place name, place ≠ slot →
      (SlotNames data' name (slotSize * place) ↔ SlotNames data name (slotSize * place)) :=
    fun place name different => slotNames_congr fun byte inside => change.bytes different inside
  refine ⟨order, fun first small second small' name names names' => ?_⟩
  -- The slot edited is one of the two, or neither of them has changed.
  by_cases here : first = slot
  · by_contra different
    rw [here] at names different
    rw [kept second name (Ne.symm different)] at names'
    exact other name names second small' (Ne.symm different) names'
  · by_cases there : second = slot
    · rw [kept first name here] at names
      rw [there] at names'
      exact absurd names (other name names' first small here)
    · rw [kept first name here] at names
      rw [kept second name there] at names'
      exact distinct.once first small second small' name names names'

/-- A slot that gets freed has no name. -/
theorem free (distinct : Distinct data) (slot : Nat) :
    Distinct (Function.update data (slotSize * slot) 0xE5) := by
  have change := changesSlot_update slot data 0xE5
  have marked : freeByte (Function.update data (slotSize * slot) 0xE5 (slotSize * slot)) = true := by
    rw [Function.update_self]
    decide
  refine distinct.edit change (distinct.order.changed change ?_ (Or.inl marked)) fun name names => ?_
  · rw [Function.update_self]
    decide
  · rw [names.1] at marked
    cases marked

/-- The first free slot gets an entry with a name that no other slot has. -/
theorem fill (distinct : Distinct data) {attributes : UInt8} {cluster size : Nat}
    (absent : ∀ place < 16, ¬ SlotNames data name (slotSize * place))
    (first : findFree data 16 0 = some (slotSize * slot)) (back : ReadBack name attributes)
    (few : cluster < 65536)
    (new : data' = putBytes data (slotSize * slot) slotSize
      (FileSystem.entryBytes name attributes cluster size)) :
    ChangesSlot slot data data' ∧ Distinct data' ∧ SlotNames data' name (slotSize * slot) ∧
      slotTarget data' slot = some ⟨cluster, isDirectory attributes⟩ := by
  subst new
  have whole : FileSystem.shortName name = name := List.take_of_length_le back.1
  have bytes : ∀ byte < slotSize, putBytes data (slotSize * slot) slotSize
      (FileSystem.entryBytes name attributes cluster size) (slotSize * slot + byte) =
        FileSystem.entryBytes (FileSystem.shortName name) attributes cluster size byte := by
    intro byte inside
    rw [whole, putBytes_add _ _ _ inside]
  have change := changesSlot_putBytes slot 0 slotSize data
    (FileSystem.entryBytes name attributes cluster size) (by decide)
  rw [Nat.add_zero] at change
  have names := (FileSystem.slotNames_entryBytes bytes).mpr back.2
  have kind := bytes 11 (by decide)
  have start := halfAt_byteOf (bytes 26 (by decide)) (bytes 27 (by decide))
  obtain ⟨slot', -, place, -, before⟩ := findFree_some first
  obtain rfl : slot = slot' := by
    simp only [slotSize] at place
    omega
  refine ⟨change, distinct.edit change ?_ ?_, names, ?_⟩
  · refine distinct.order.changed change names.used (Or.inr fun earlier below => ?_)
    have live := before earlier below
    rw [Nat.zero_add] at live
    exact (freeByte_eq_false live).1
  · intro other names' place small _
    rw [← names'.2.2, names.2.2]
    exact absent place small
  · rw [names.target, entryCluster, start, Nat.mod_eq_of_lt few, entryAttributes, kind]
    rfl

/-- A slot gets a new name, padded with spaces, that no other slot has without its spaces. -/
theorem rename (distinct : Distinct data) {newName : Name} (small : slot < 16)
    (names : SlotNames data name (slotSize * slot)) (short : newName.length ≤ 11) (text : 0 ∉ newName)
    (change : ChangesSlot slot data data')
    (bytes : ∀ byte, data' (slotSize * slot + byte) =
      if byte < 11 then newName.getD byte 0x20 else data (slotSize * slot + byte))
    (absent : newName.rdropWhile (· == 0x20) = name ∨
      ∀ place < 16, ¬ SlotNames data (newName.rdropWhile (· == 0x20)) (slotSize * place)) :
    Distinct data' ∧
      (∀ head, slotTarget data' slot = some head → slotTarget data slot = some head) ∧
      ∀ head, slotTarget data' slot = some head → Counted data' (slotSize * slot) := by
  have padded : ∀ byte, newName.getD byte 0x20 ≠ 0 := by
    intro byte zero
    rw [List.getD_eq_getElem?_getD] at zero
    cases inside : newName[byte]? with
    | none =>
      rw [inside] at zero
      cases zero
    | some character =>
      rw [inside] at zero
      exact text (zero ▸ List.mem_of_getElem? inside)
  have first : data' (slotSize * slot) = newName.getD 0 0x20 := by
    have byte := bytes 0
    rwa [Nat.add_zero, if_pos (by decide)] at byte
  have used : data' (slotSize * slot) ≠ 0x00 := first ▸ padded 0
  have read : entryName data' (slotSize * slot) = newName.rdropWhile (· == 0x20) :=
    entryName_spaces short text fun index inside => (bytes index).trans (if_pos inside)
  have behind : ∀ byte, 11 ≤ byte → data' (slotSize * slot + byte) = data (slotSize * slot + byte) :=
    fun byte late => (bytes byte).trans (if_neg (Nat.not_lt.mpr late))
  refine ⟨distinct.edit change ?_ ?_, ?_, ?_⟩
  · refine distinct.order.changed change used (Or.inr fun earlier below unused => ?_)
    have free := distinct.order earlier (Nat.lt_trans below small) unused slot small below
    rw [names.1] at free
    cases free
  · intro other names' place little different taken
    rw [← names'.2.2, read] at taken
    rcases absent with same | absent
    · rw [same] at taken
      exact different (distinct.once place little slot small name taken names)
    · exact absent place little taken
  · intro head leads
    obtain ⟨-, -, rfl⟩ := slotTarget_some leads
    rw [names.target]
    simp only [entryAttributes, entryCluster, halfAt, Nat.add_assoc, behind 11 (by decide),
      behind 26 (by decide), behind (26 + 1) (by decide)]
  · intro head leads
    refine ⟨(slotTarget_some leads).1, fun dots => ?_⟩
    -- Behind a dot name there would be a zero.
    have second := (bytes 1).trans (if_pos (by decide))
    have third := (bytes 2).trans (if_pos (by decide))
    simp only [slotNamed, dot, dotDot, List.cons_append, List.nil_append, List.zipIdx_cons,
      List.zipIdx_nil, List.all_cons, List.all_nil, Bool.and_true, Bool.and_eq_true, Bool.or_eq_true,
      beq_iff_eq, Nat.zero_add, Nat.reduceAdd, second, third] at dots
    rcases dots with ⟨-, zero⟩ | ⟨-, -, zero⟩
    · exact padded 1 zero
    · exact padded 2 zero

end Distinct

/-- The dot entries of a new directory have different names. -/
theorem distinct_dotSector {pad : UInt8} (padding : pad = 0x00 ∨ pad = 0x20) (cluster parent : Nat) :
    Distinct (FileSystem.dotSector pad cluster parent) := by
  obtain ⟨first, second⟩ := entryName_dotSector padding cluster parent
  have two : ∀ slot name, SlotNames (FileSystem.dotSector pad cluster parent) name (slotSize * slot) →
      slot = 0 ∧ name = dot ∨ slot = 1 ∧ name = dotDot := by
    intro slot name names
    match slot with
    | 0 => exact Or.inl ⟨rfl, names.2.2.symm.trans first⟩
    | 1 => exact Or.inr ⟨rfl, names.2.2.symm.trans second⟩
    | slot + 2 => exact absurd (dotSector_behind pad cluster parent slot) names.used
  refine ⟨?_, ?_⟩
  · intro slot _ unused later _ after
    have used : 2 ≤ later := by
      by_contra early
      obtain rfl : slot = 0 := by omega
      cases unused
    obtain ⟨rest, rfl⟩ := Nat.exists_eq_add_of_le' used
    rw [dotSector_behind]
    decide
  · intro slot _ other _ name names names'
    rcases two slot name names with ⟨rfl, rfl⟩ | ⟨rfl, rfl⟩
    · rcases two other dot names' with ⟨rfl, -⟩ | ⟨-, wrong⟩
      · rfl
      · exact absurd wrong (by decide)
    · rcases two other dotDot names' with ⟨-, wrong⟩ | ⟨rfl, -⟩
      · exact absurd wrong (by decide)
      · rfl

/-- The dot entries of a new directory lead to the directory and to its parent. -/
theorem slotTarget_dotSector {pad : UInt8} {cluster parent slot : Nat} {head : Head}
    (few : cluster < 65536) (few' : parent < 65536)
    (leads : slotTarget (FileSystem.dotSector pad cluster parent) slot = some head) :
    slot < 2 ∧ (head = ⟨cluster, true⟩ ∨ head = ⟨parent, true⟩) := by
  obtain ⟨live, -, rfl⟩ := slotTarget_some leads
  match slot with
  | 0 =>
    have start : entryCluster (FileSystem.dotSector pad cluster parent) (slotSize * 0) = cluster :=
      (halfAt_byteOf rfl rfl).trans (Nat.mod_eq_of_lt few)
    rw [start]
    exact ⟨by decide, Or.inl (congrArg (Head.mk cluster) (show isDirectory 0x10 = true by decide))⟩
  | 1 =>
    have start : entryCluster (FileSystem.dotSector pad cluster parent) (slotSize * 1) = parent :=
      (halfAt_byteOf rfl rfl).trans (Nat.mod_eq_of_lt few')
    rw [start]
    exact ⟨by decide, Or.inr (congrArg (Head.mk parent) (show isDirectory 0x10 = true by decide))⟩
  | slot + 2 =>
    rw [dotSector_behind] at live
    cases live

/-- Dot entries that are padded with spaces count for emptiness. -/
theorem counted_dotSector (cluster parent : Nat) {slot : Nat} (small : slot < 2) :
    Counted (FileSystem.dotSector 0x20 cluster parent) (slotSize * slot) := by
  match slot with
  | 0 => exact ⟨rfl, Bool.not_eq_true _ ▸ rfl⟩
  | 1 => exact ⟨rfl, Bool.not_eq_true _ ▸ rfl⟩

end Pocky
