import Pocky.Fs.ChainLaws
import Pocky.Fs.RemovalLaws

/-! What a directory slot leads to, and which changes of its bytes matter. -/

namespace Pocky

/-- What a directory entry leads to: a start cluster, and whether it is that of a directory. -/
structure Head where
  /-- The start cluster. -/
  cluster : Nat
  /-- Whether it is a directory. -/
  directory : Bool
  deriving Repr, DecidableEq

/--
What a slot of a directory sector leads to.

Free slots, long-name slots and the dot entries lead nowhere.
-/
def slotHead (data : Buffer) (slot : Nat) : Option Head :=
  if freeByte (data (slotSize * slot)) = true ∨ entryAttributes data (slotSize * slot) = 0x0F ∨
      entryName data (slotSize * slot) = dot ∨ entryName data (slotSize * slot) = dotDot then none
  else some ⟨entryCluster data (slotSize * slot),
    isDirectory (entryAttributes data (slotSize * slot))⟩

/-- A name of one to eleven printable characters that is neither of the dot names. -/
structure Plain (name : Name) : Prop where
  /-- The name is accepted. -/
  valid : FileSystem.validateFileName name = true
  /-- It fits in a slot. -/
  short : name.length ≤ 11
  /-- Its characters are printable and no spaces. -/
  printable : ∀ byte ∈ name, 0x21 ≤ byte ∧ byte ≤ 0x7E
  /-- It is not the name of a directory inside itself. -/
  notDot : name ≠ dot
  /-- It is not that of the parent. -/
  notDotDot : name ≠ dotDot

/-- A name of one to eleven printable characters, as a slot can hold it. -/
structure Storable (name : Name) : Prop where
  /-- It has a character. -/
  nonempty : name ≠ []
  /-- It fits in a slot. -/
  short : name.length ≤ 11
  /-- Its characters are printable and no spaces. -/
  printable : ∀ byte ∈ name, 0x21 ≤ byte ∧ byte ≤ 0x7E

namespace Storable

/-- Its characters are neither zero nor spaces, and no mark of a deleted slot. -/
theorem byte_ne {name : Name} (storable : Storable name) {byte : UInt8} (member : byte ∈ name) :
    byte ≠ 0 ∧ byte ≠ 0x20 ∧ byte ≠ 0xE5 := by
  -- All three lie outside the printable range.
  obtain ⟨low, high⟩ := storable.printable byte member
  refine ⟨?_, ?_, ?_⟩
  · rintro rfl
    exact absurd low (by decide)
  · rintro rfl
    exact absurd low (by decide)
  · rintro rfl
    exact absurd high (by decide)

/-- Its characters are neither zero nor spaces. -/
theorem characters {name : Name} (storable : Storable name) :
    ∀ byte ∈ name, byte ≠ 0 ∧ byte ≠ 0x20 :=
  fun _ member => ⟨(storable.byte_ne member).1, (storable.byte_ne member).2.1⟩

/-- Its first byte says that a slot is in use. -/
theorem freeByte_getD {name : Name} (storable : Storable name) (pad : UInt8) :
    freeByte (name.getD 0 pad) = false := by
  -- The name has a first character.
  cases name with
  | nil => exact absurd rfl storable.nonempty
  | cons byte rest =>
    obtain ⟨nonzero, -, unmarked⟩ := storable.byte_ne List.mem_cons_self
    simp [freeByte, nonzero, unmarked]

end Storable

namespace Plain

/-- A plain name has a character. -/
theorem ne_nil {name : Name} (plain : Plain name) : name ≠ [] := by
  -- The empty name is not accepted.
  rintro rfl
  have valid := plain.valid
  cases valid

/-- A slot can hold it. -/
theorem storable {name : Name} (plain : Plain name) : Storable name :=
  ⟨plain.ne_nil, plain.short, plain.printable⟩

end Plain

/-- Dropping from the right stops at a byte that is to be kept. -/
theorem rdropWhile_append_cons {α : Type} {p : α → Bool} {kept : α} (front rest : List α)
    (stays : p kept = false) :
    (front ++ kept :: rest).rdropWhile p = front ++ kept :: rest.rdropWhile p := by
  -- By induction on the rest, from its last element.
  induction rest using List.reverseRecOn with
  | nil => rw [List.rdropWhile_concat_neg _ _ _ (by simp [stays]), List.rdropWhile_nil]
  | append_singleton rest last ih =>
    rw [← List.cons_append, ← List.append_assoc]
    by_cases drops : p last = true
    · rw [List.rdropWhile_concat_pos _ _ _ drops, List.rdropWhile_concat_pos _ _ _ drops, ih]
    · rw [List.rdropWhile_concat_neg _ _ _ drops, List.rdropWhile_concat_neg _ _ _ drops]
      simp

/-- The eleven bytes of a padded name. -/
theorem map_getD_range (name : Name) (pad : UInt8) (short : name.length ≤ 11) :
    (List.range 11).map (fun index => name.getD index pad) =
      name ++ List.replicate (11 - name.length) pad := by
  -- Position by position, inside the name and behind it.
  apply List.ext_getElem
  · simp
    omega
  · intro index inside _
    simp only [List.getElem_map, List.getElem_range, List.getElem_append, List.getElem_replicate]
    split
    · rename_i within
      simp [within]
    · rename_i behind
      simp [List.getD_eq_getElem?_getD, List.getElem?_eq_none (Nat.le_of_not_lt behind)]

/-- Trailing spaces are dropped down to the last character. -/
theorem rdropWhile_spaces (name : Name) (count : Nat) (characters : ∀ byte ∈ name, byte ≠ 0x20) :
    (name ++ List.replicate count (0x20 : UInt8)).rdropWhile (· == 0x20) = name := by
  -- By induction on the number of spaces.
  induction count with
  | zero =>
    rw [List.replicate_zero, List.append_nil, List.rdropWhile_eq_self_iff]
    intro nonempty
    simpa using characters _ (List.getLast_mem nonempty)
  | succ count ih =>
    rw [List.replicate_succ', ← List.append_assoc, List.rdropWhile_concat_pos _ _ _ (by simp), ih]

/-- A padded name is read back from its slot, whether zeros or spaces pad it. -/
theorem entryName_padded {data : Buffer} {offset : Nat} {name : Name} (short : name.length ≤ 11)
    (characters : ∀ byte ∈ name, byte ≠ 0 ∧ byte ≠ 0x20) {pad : UInt8}
    (padding : pad = 0x00 ∨ pad = 0x20)
    (bytes : ∀ index < 11, data (offset + index) = name.getD index pad) :
    entryName data offset = name := by
  have read : (List.range 11).map (fun index => data (offset + index)) =
      name ++ List.replicate (11 - name.length) pad := by
    rw [← map_getD_range name pad short]
    exact List.map_congr_left fun index member => bytes index (List.mem_range.mp member)
  have nonzero : ∀ byte ∈ name, (byte != 0) = true := fun byte member => by
    simpa using (characters byte member).1
  rw [entryName, read]
  rcases padding with rfl | rfl
  · cases count : 11 - name.length with
    | zero =>
      -- A name of eleven characters is not padded.
      have whole := rdropWhile_spaces name 0 fun byte member => (characters byte member).2
      rw [List.replicate_zero, List.append_nil] at whole ⊢
      rw [whole, List.takeWhile_eq_self_iff.mpr nonzero]
    | succ count =>
      rw [List.replicate_succ, rdropWhile_append_cons _ _ (by decide),
        List.takeWhile_append_of_pos nonzero]
      simp
  · rw [rdropWhile_spaces name _ fun byte member => (characters byte member).2,
      List.takeWhile_eq_self_iff.mpr nonzero]

/-- A name depends on its eleven bytes. -/
theorem entryName_congr {data data' : Buffer} {offset : Nat}
    (same : ∀ index < 11, data' (offset + index) = data (offset + index)) :
    entryName data' offset = entryName data offset := by
  have bytes : (List.range 11).map (fun index => data' (offset + index)) =
      (List.range 11).map fun index => data (offset + index) :=
    List.map_congr_left fun index member => same index (List.mem_range.mp member)
  rw [entryName, bytes, entryName]

/-- What a slot leads to depends on its first twenty-eight bytes. -/
theorem slotHead_congr {data data' : Buffer} {slot : Nat}
    (same : ∀ byte < 28, data' (slotSize * slot + byte) = data (slotSize * slot + byte)) :
    slotHead data' slot = slotHead data slot := by
  -- The first byte, the name, the attributes and the start cluster are among them.
  have first := same 0 (by decide)
  rw [Nat.add_zero] at first
  simp only [slotHead, first, entryName_congr fun index small => same index (by omega),
    entryAttributes, same 11 (by decide), entryCluster, halfAt, Nat.add_assoc,
    same 26 (by decide), same (26 + 1) (by decide)]

/-- A change inside one slot. -/
def ChangesSlot (slot : Nat) (data data' : Buffer) : Prop :=
  ∀ index, index / slotSize ≠ slot → data' index = data index

/-- Other slots keep their bytes. -/
theorem ChangesSlot.bytes {slot other : Nat} {data data' : Buffer}
    (change : ChangesSlot slot data data') (different : other ≠ slot) {byte : Nat}
    (inside : byte < slotSize) :
    data' (slotSize * other + byte) = data (slotSize * other + byte) := by
  apply change
  have quotient : (slotSize * other + byte) / slotSize = other := by
    simp only [slotSize] at inside ⊢
    omega
  rw [quotient]
  exact different

/-- Other slots lead where they led. -/
theorem ChangesSlot.slotHead {slot other : Nat} {data data' : Buffer}
    (change : ChangesSlot slot data data') (different : other ≠ slot) :
    slotHead data' other = slotHead data other :=
  slotHead_congr fun _ small => change.bytes different (Nat.lt_trans small (by decide))

/-- Replaced bytes are the new ones. -/
theorem putBytes_add (data source : Buffer) (offset : Nat) {count index : Nat}
    (inside : index < count) : putBytes data offset count source (offset + index) = source index := by
  rw [putBytes, if_pos ⟨Nat.le_add_right _ _, Nat.add_lt_add_left inside _⟩, Nat.add_sub_cancel_left]

/-- Bytes replaced inside a slot. -/
theorem changesSlot_putBytes (slot first count : Nat) (data source : Buffer)
    (fits : first + count ≤ slotSize) :
    ChangesSlot slot data (putBytes data (slotSize * slot + first) count source) := by
  intro index outside
  have away : ¬ (slotSize * slot + first ≤ index ∧ index < slotSize * slot + first + count) := by
    simp only [slotSize] at outside fits ⊢
    omega
  rw [putBytes, if_neg away]

/-- One byte replaced inside a slot. -/
theorem changesSlot_update (slot : Nat) (data : Buffer) (byte : UInt8) :
    ChangesSlot slot data (Function.update data (slotSize * slot) byte) := by
  intro index outside
  rw [Function.update_of_ne]
  rintro rfl
  simp [slotSize] at outside

/-- A free slot leads nowhere. -/
theorem slotHead_free {data : Buffer} {slot : Nat}
    (free : freeByte (data (slotSize * slot)) = true) : slotHead data slot = none := by
  rw [slotHead, if_pos (Or.inl free)]

/-- A slot with a plain name leads to its start cluster. -/
theorem slotHead_plain {data : Buffer} {slot : Nat} {name : Name} (plain : Plain name)
    (live : freeByte (data (slotSize * slot)) = false)
    (kind : entryAttributes data (slotSize * slot) ≠ 0x0F)
    (named : entryName data (slotSize * slot) = name) :
    slotHead data slot = some ⟨entryCluster data (slotSize * slot),
      isDirectory (entryAttributes data (slotSize * slot))⟩ := by
  rw [slotHead, if_neg]
  rintro (free | long | isDot | isDotDot)
  · rw [live] at free
    cases free
  · exact kind long
  · exact plain.notDot (named.symm.trans isDot)
  · exact plain.notDotDot (named.symm.trans isDotDot)

/-- A lookup of a plain name finds a slot that leads somewhere. -/
theorem findName_slotHead {data : Buffer} {name : Name} {offset : Nat} (plain : Plain name)
    (found : findName data name 16 0 = some offset) :
    ∃ slot < 16, offset = slotSize * slot ∧ slotHead data slot =
      some ⟨entryCluster data offset, isDirectory (entryAttributes data offset)⟩ := by
  obtain ⟨slot, small, place, live, kind, named, -⟩ := findName_some found
  rw [Nat.zero_add] at place
  subst place
  exact ⟨slot, small, rfl, slotHead_plain plain live kind named⟩

/-- The lowest sixteen bits of a number. -/
theorem halfAt_byteOf {data : Buffer} {offset value : Nat}
    (low : data offset = byteOf value 0) (high : data (offset + 1) = byteOf value 1) :
    halfAt data offset = value % 65536 := by
  have digit : ∀ index, (byteOf value index).toNat = value / 256 ^ index % 256 := by
    intro index
    rw [byteOf, UInt8.toNat_ofNat']
  rw [halfAt, low, high, digit, digit]
  omega

/-- What the bytes of a new entry say; of the cluster only sixteen bits are kept. -/
theorem entry_of_entryBytes {data : Buffer} {slot : Nat} {name : Name} {attributes : UInt8}
    {cluster size : Nat} (storable : Storable name)
    (bytes : ∀ byte < slotSize, data (slotSize * slot + byte) =
      FileSystem.entryBytes name attributes cluster size byte) :
    freeByte (data (slotSize * slot)) = false ∧
      entryAttributes data (slotSize * slot) = attributes ∧
      entryName data (slotSize * slot) = name ∧
      entryCluster data (slotSize * slot) = cluster % 65536 := by
  have whole : FileSystem.shortName name = name := List.take_of_length_le storable.short
  refine ⟨?_, ?_, ?_, ?_⟩
  · have first := bytes 0 (by decide)
    rw [Nat.add_zero] at first
    rw [first, FileSystem.entryBytes, if_pos (by decide), whole]
    exact storable.freeByte_getD 0
  · rw [entryAttributes, bytes 11 (by decide)]
    rfl
  · refine entryName_padded storable.short storable.characters (Or.inl rfl) fun index inside => ?_
    rw [bytes index (by simp only [slotSize]; omega), FileSystem.entryBytes, if_pos inside, whole]
  · exact halfAt_byteOf (bytes 26 (by decide)) (bytes 27 (by decide))

/-- A new entry leads to its cluster. -/
theorem slotHead_entryBytes {data : Buffer} {slot : Nat} {name : Name} {attributes : UInt8}
    {cluster size : Nat} (plain : Plain name) (small : cluster < 65536)
    (kind : attributes ≠ 0x0F)
    (bytes : ∀ byte < slotSize, data (slotSize * slot + byte) =
      FileSystem.entryBytes name attributes cluster size byte) :
    slotHead data slot = some ⟨cluster, isDirectory attributes⟩ := by
  obtain ⟨live, attr, named, start⟩ := entry_of_entryBytes plain.storable bytes
  rw [slotHead_plain plain live (attr ▸ kind) named, attr, start, Nat.mod_eq_of_lt small]

/-- The bytes of a dot entry padded with zeros are read as a dot name. -/
theorem slotNamed_dot {data : Buffer} {offset : Nat}
    (named : (slotNamed data offset dot || slotNamed data offset dotDot) = true) :
    entryName data offset = dot ∨ entryName data offset = dotDot := by
  have eleven : List.range 11 = [0, 1, 2, 3, 4, 5, 6, 7, 8, 9, 10] := by decide
  rw [Bool.or_eq_true] at named
  rcases named with one | two
  · left
    simp only [slotNamed, dot, List.cons_append, List.nil_append, List.zipIdx_cons, List.zipIdx_nil,
      List.all_cons, List.all_nil, Bool.and_true, Bool.and_eq_true, beq_iff_eq, Nat.add_zero,
      Nat.zero_add] at one
    rw [entryName, eleven]
    simp only [List.map_cons, List.map_nil, Nat.add_zero, one.1, one.2]
    exact congrArg (List.takeWhile _) (rdropWhile_append_cons [0x2E] _ (by decide))
  · right
    simp only [slotNamed, dotDot, List.cons_append, List.nil_append, List.zipIdx_cons,
      List.zipIdx_nil, List.all_cons, List.all_nil, Bool.and_true, Bool.and_eq_true, beq_iff_eq,
      Nat.add_zero, Nat.zero_add, Nat.reduceAdd] at two
    rw [entryName, eleven]
    simp only [List.map_cons, List.map_nil, Nat.add_zero, two.1, two.2.1, two.2.2]
    exact congrArg (List.takeWhile _) (rdropWhile_append_cons [0x2E, 0x2E] _ (by decide))

/-- The slots behind the first two of a new directory are unused. -/
theorem dotSector_behind (pad : UInt8) (cluster parent slot : Nat) :
    FileSystem.dotSector pad cluster parent (slotSize * (slot + 2)) = 0x00 := by
  have behind : ¬ slotSize * (slot + 2) < 32 ∧ ¬ slotSize * (slot + 2) < 64 := by
    simp only [slotSize]
    omega
  rw [FileSystem.dotSector, if_neg behind.1, if_neg behind.2]

/-- The first two slots of a new directory have the dot names. -/
theorem entryName_dotSector {pad : UInt8} (padding : pad = 0x00 ∨ pad = 0x20) (cluster parent : Nat) :
    entryName (FileSystem.dotSector pad cluster parent) (slotSize * 0) = dot ∧
      entryName (FileSystem.dotSector pad cluster parent) (slotSize * 1) = dotDot := by
  refine ⟨?_, ?_⟩
  · refine entryName_padded (by decide) (by decide +kernel) padding fun index inside => ?_
    simp [FileSystem.dotSector, FileSystem.dotEntry, slotSize, inside, show index < 32 by omega]
  · refine entryName_padded (by decide) (by decide +kernel) padding fun index inside => ?_
    simp [FileSystem.dotSector, FileSystem.dotEntry, slotSize, inside,
      show ¬ 32 + index < 32 by omega, show 32 + index < 64 by omega]

/-- A new directory leads nowhere, whatever its dot entries are padded with. -/
theorem slotHead_dotSector {pad : UInt8} (padding : pad = 0x00 ∨ pad = 0x20) (cluster parent : Nat)
    {slot : Nat} (small : slot < 16) :
    slotHead (FileSystem.dotSector pad cluster parent) slot = none := by
  obtain ⟨first, second⟩ := entryName_dotSector padding cluster parent
  match slot with
  | 0 => rw [slotHead, if_pos (Or.inr (Or.inr (Or.inl first)))]
  | 1 => rw [slotHead, if_pos (Or.inr (Or.inr (Or.inr second)))]
  | slot + 2 =>
    apply slotHead_free
    rw [dotSector_behind]
    decide

/-- A directory in which a plain name is found is not empty. -/
theorem emptyVerdict_of_findName {data : Buffer} {name : Name} (plain : Plain name)
    {remaining offset entry : Nat} (found : findName data name remaining offset = some entry) :
    emptyVerdict data remaining offset = some false := by
  -- By induction on the slots that are left; both searches skip the same slots.
  induction remaining generalizing offset with
  | zero => cases found
  | succ remaining ih =>
    rw [findName] at found
    rw [emptyVerdict]
    split at found
    · cases found
    · rename_i used
      rw [if_neg used]
      split at found
      · rename_i deleted
        rw [if_pos deleted]
        exact ih found
      · rename_i kept
        rw [if_neg kept]
        split
        · -- A dot entry is not the one found.
          rename_i dots
          split at found
          · exact ih found
          · split at found
            · rename_i named
              rcases slotNamed_dot dots with isDot | isDotDot
              · exact absurd (named.symm.trans isDot) plain.notDot
              · exact absurd (named.symm.trans isDotDot) plain.notDotDot
            · exact ih found
        · rfl

end Pocky
