import Pocky.Fs.ChainLaws
import Pocky.Lib.Arcs

/-! Which boot sectors are accepted, and which of them describe areas that keep apart on the drive. -/

namespace Pocky

/-- How many blocks the drive can number: the driver hands it 28 bits of a block number. -/
def driveBlocks : Nat := 2 ^ 28

/-- An area of the volume: a copy of the table, or the data area. -/
inductive Area where
  /-- A copy of the table. -/
  | table (copy : Nat)
  /-- The clusters below the number of clusters. -/
  | data
  deriving DecidableEq

namespace Bpb

variable (bpb : Bpb)

/-- Sectors of a copy of the table. -/
def fatSize : Nat := if bpb.tableSize16 ≠ 0 then bpb.tableSize16 else bpb.tableSize32

/-- Sectors of the volume. -/
def totalSectors : Nat := if bpb.totalSectors16 ≠ 0 then bpb.totalSectors16 else bpb.totalSectors32

/-- Sectors of a fixed root directory. -/
def rootDirSectors : Nat := (bpb.rootEntryCount * 32 + (bpb.bytesPerSector - 1)) / bpb.bytesPerSector

/-- Where the data area starts, as an exact number. -/
def dataStart : Nat := bpb.reservedSectorCount + bpb.tableCount * bpb.fatSize + bpb.rootDirSectors

/-- Where an area starts; the copies are always the 32-bit table size apart. -/
def areaStart : Area → Nat
  | .table copy => bpb.reservedSectorCount + copy * bpb.tableSize32
  | .data => bpb.dataStart

/-- How many sectors of an area are used. -/
def areaSectors : Area → Nat
  | .table _ => bpb.fatSize
  | .data => ((bpb.totalSectors - bpb.dataStart) / bpb.sectorsPerCluster - 2) * bpb.sectorsPerCluster

/-- The areas that have sectors. -/
def HasArea : Area → Prop
  | .table copy => copy < bpb.tableCount
  | .data => 0 < bpb.areaSectors .data

/-- How many blocks the transfers of an area take up. -/
def areaBlocks (area : Area) : Nat :=
  bpb.areaSectors area - 1 + FileSystem.blockCount bpb.bytesPerSector

/-- A boot sector whose areas fit the volume and keep apart. -/
structure SoundHeader : Prop where
  /-- The data area starts inside the volume. -/
  fits : bpb.dataStart ≤ bpb.totalSectors
  /-- A sector is one block, unless an area has only one sector. -/
  single : ∀ area, bpb.HasArea area → bpb.areaSectors area = 1 ∨
    FileSystem.blockCount bpb.bytesPerSector = 1 ∧ bpb.areaSectors area ≤ driveBlocks
  /-- The areas have no block in common. -/
  apart : ∀ area other, bpb.HasArea area → bpb.HasArea other → area ≠ other →
    ArcsApart driveBlocks (bpb.areaStart area) (bpb.areaBlocks area)
      (bpb.areaStart other) (bpb.areaBlocks other)
  /-- They end inside the volume. -/
  below : ∀ area, bpb.HasArea area → ArcBelow driveBlocks (bpb.areaStart area) (bpb.areaBlocks area)
    (bpb.totalSectors * bpb.bytesPerSector / 512)

end Bpb

namespace FileSystem

/-- A sector that is transferred: one of a copy of the table, or one of a cluster. -/
inductive Part where
  /-- A sector of a copy of the table. -/
  | table (copy index : Nat)
  /-- A sector of a cluster. -/
  | data (cluster index : Nat)

/-- The sectors of all copies of the table, and of the clusters below the number of clusters. -/
def HasPart (fs : FileSystem) : Part → Prop
  | .table copy index => copy < fs.bpb.tableCount ∧ index < fs.bpb.fatSize
  | .data cluster index => fs.InVolume cluster ∧ index < fs.bpb.sectorsPerCluster

/-- The number a sector is transferred under, on 32-bit words. -/
def partSector (fs : FileSystem) : Part → Nat
  | .table copy index =>
    ((fs.firstFatSector + index) % 2 ^ 32 + copy * fs.bpb.tableSize32) % 2 ^ 32
  | .data cluster index => (fs.clusterSector cluster + index) % 2 ^ 32

/-- A block of the drive is touched when a sector is read or written. -/
def Touches (fs : FileSystem) (part : Part) (block : Nat) : Prop :=
  Arc driveBlocks (fs.partSector part) (blockCount fs.bpb.bytesPerSector) block

/-- A geometry without a wrapped number, whose transfers keep apart and inside the volume. -/
structure SoundGeometry (fs : FileSystem) : Prop where
  /-- The start of the data area has not wrapped. -/
  dataStart : fs.firstDataSector = fs.bpb.dataStart
  /-- Nor has the number of its sectors. -/
  dataSectors : fs.firstDataSector + fs.dataSectors = fs.bpb.totalSectors
  /-- The clusters fit into the volume. -/
  fits : fs.firstDataSector + fs.totalClusters * fs.bpb.sectorsPerCluster ≤ fs.bpb.totalSectors
  /-- Different sectors have no block in common. -/
  apart : ∀ part other, fs.HasPart part → fs.HasPart other → part ≠ other →
    ∀ block, fs.Touches part block → ¬ fs.Touches other block
  /-- Every block lies inside the volume. -/
  inside : ∀ part, fs.HasPart part → ∀ block, fs.Touches part block →
    512 * (block + 1) ≤ fs.bpb.totalSectors * fs.bpb.bytesPerSector

/-- A state that a boot sector has been accepted for. -/
def Accepted (fs : FileSystem) : Prop :=
  ∃ before bootSector, initializeVolume before bootSector = (true, fs)

/-- What accepting a boot sector comes to. -/
structure Derived (fs : FileSystem) : Prop where
  /-- The boot sector is valid. -/
  valid : validateBootSector fs.bpb = true
  /-- The number of sectors fits in 32 bits. -/
  small : fs.bpb.totalSectors < 2 ^ 32
  /-- The first table starts behind the reserved sectors. -/
  firstFatSector : fs.firstFatSector = fs.bpb.reservedSectorCount
  /-- The start of the data area is reduced to 32 bits. -/
  firstDataSector : fs.firstDataSector = fs.bpb.dataStart % 2 ^ 32
  /-- So is the number of its sectors. -/
  dataSectors : fs.dataSectors = (fs.bpb.totalSectors + 2 ^ 32 - fs.firstDataSector) % 2 ^ 32
  /-- And its clusters are counted. -/
  totalClusters : fs.totalClusters = fs.dataSectors / fs.bpb.sectorsPerCluster

variable {fs : FileSystem}

/-- The fields of an accepted boot sector are those derived from it. -/
theorem Accepted.derived (accepted : fs.Accepted) : fs.Derived := by
  obtain ⟨before, bootSector, returned⟩ := accepted
  rw [initializeVolume] at returned
  by_cases valid : validateBootSector (Bpb.parse bootSector) = true
  · simp only [valid, Bool.not_true, Bool.false_eq_true, if_false] at returned
    obtain ⟨-, rfl⟩ := Prod.mk.inj returned
    refine ⟨valid, ?_, rfl, rfl, rfl, rfl⟩
    -- Either number of sectors is a word of at most 32 bits.
    have byte : ∀ offset, (bootSector offset).toNat < 256 := fun offset => UInt8.toNat_lt _
    have half : ∀ offset, halfAt bootSector offset < 2 ^ 16 := by
      intro offset
      have low := byte offset
      have high := byte (offset + 1)
      rw [halfAt]
      omega
    have word : ∀ offset, wordAt bootSector offset < 2 ^ 32 := by
      intro offset
      have low := half offset
      have high := half (offset + 2)
      rw [wordAt]
      omega
    show (if halfAt bootSector 19 ≠ 0 then halfAt bootSector 19 else wordAt bootSector 32) < 2 ^ 32
    split
    · exact Nat.lt_of_lt_of_le (half 19) (by decide)
    · exact word 32
  · simp [valid] at returned

/-- The area a sector belongs to. -/
def Part.area : Part → Area
  | .table copy _ => .table copy
  | .data _ _ => .data

/-- The place of a sector in its area. -/
def Part.place (fs : FileSystem) : Part → Nat
  | .table _ index => index
  | .data cluster index => (cluster - 2) * fs.bpb.sectorsPerCluster + index

/-- No derived number has wrapped exactly if the data area starts inside the volume. -/
theorem Derived.fits_iff (derived : fs.Derived) :
    (fs.firstDataSector = fs.bpb.dataStart ∧
      fs.firstDataSector + fs.dataSectors = fs.bpb.totalSectors ∧
      fs.firstDataSector + fs.totalClusters * fs.bpb.sectorsPerCluster ≤ fs.bpb.totalSectors) ↔
      fs.bpb.dataStart ≤ fs.bpb.totalSectors := by
  have small := derived.small
  constructor
  · rintro ⟨start, sectors, -⟩
    omega
  · intro fits
    have start : fs.firstDataSector = fs.bpb.dataStart := by
      rw [derived.firstDataSector, Nat.mod_eq_of_lt (by omega)]
    have sectors : fs.dataSectors = fs.bpb.totalSectors - fs.bpb.dataStart := by
      rw [derived.dataSectors, start]
      omega
    have clusters := Nat.div_mul_le_self fs.dataSectors fs.bpb.sectorsPerCluster
    rw [derived.totalClusters]
    exact ⟨start, by omega, by omega⟩

/-- A sector of one bit or more is valid only with clusters and copies. -/
theorem Derived.positive (derived : fs.Derived) :
    0 < fs.bpb.sectorsPerCluster ∧ 0 < fs.bpb.tableCount ∧ 0 < fs.bpb.fatSize := by
  have valid := derived.valid
  simp only [validateBootSector, powerOfTwo, Bool.and_eq_true, decide_eq_true_eq] at valid
  obtain ⟨⟨⟨⟨⟨-, cluster, -⟩, -⟩, copies⟩, size⟩, -⟩ := valid
  exact ⟨Nat.pos_of_ne_zero cluster, Nat.pos_of_ne_zero copies, Nat.pos_of_ne_zero size⟩

/-- Every transfer moves a block. -/
theorem blockCount_pos (size : Nat) : 0 < blockCount size := by
  rw [blockCount]
  split <;> omega

/-- The numbers of the data area. -/
theorem Derived.numbers (derived : fs.Derived) (fits : fs.bpb.dataStart ≤ fs.bpb.totalSectors) :
    fs.firstDataSector = fs.bpb.dataStart ∧
    fs.bpb.areaSectors .data = (fs.totalClusters - 2) * fs.bpb.sectorsPerCluster ∧
    fs.totalClusters < 2 ^ 32 := by
  obtain ⟨start, sectors, -⟩ := derived.fits_iff.mpr fits
  have small := derived.small
  have rest : fs.dataSectors = fs.bpb.totalSectors - fs.bpb.dataStart := by omega
  refine ⟨start, ?_, ?_⟩
  · rw [derived.totalClusters, rest]
    rfl
  · have quotient := Nat.div_le_self fs.dataSectors fs.bpb.sectorsPerCluster
    rw [derived.totalClusters]
    omega

/-- The blocks a sector touches start as far from the start of its area as its place says. -/
theorem Derived.touches_iff (derived : fs.Derived)
    (fits : fs.bpb.dataStart ≤ fs.bpb.totalSectors) {part : Part} (has : fs.HasPart part) (block : Nat) :
    fs.Touches part block ↔ Arc driveBlocks (fs.bpb.areaStart part.area + part.place fs)
      (blockCount fs.bpb.bytesPerSector) block := by
  obtain ⟨start, -, few⟩ := derived.numbers fits
  -- Numbers of 32 bits and exact numbers have the same 28 bits.
  have same : ∀ step, (fs.partSector part + step) % driveBlocks =
      (fs.bpb.areaStart part.area + part.place fs + step) % driveBlocks := by
    intro step
    rw [driveBlocks]
    cases part with
    | table copy index =>
      simp only [partSector, Part.area, Part.place, Bpb.areaStart, derived.firstFatSector]
      omega
    | data cluster index =>
      have number : (cluster + 2 ^ 32 - 2) % 2 ^ 32 = cluster - 2 := by
        obtain ⟨⟨low, high⟩, -⟩ := has
        omega
      simp only [partSector, Part.area, Part.place, Bpb.areaStart, clusterSector, number, start]
      omega
  simp only [Touches, Arc, same]

/-- Sectors lie inside their areas. -/
theorem Derived.place_lt (derived : fs.Derived) (fits : fs.bpb.dataStart ≤ fs.bpb.totalSectors)
    {part : Part} (has : fs.HasPart part) :
    fs.bpb.HasArea part.area ∧ part.place fs < fs.bpb.areaSectors part.area := by
  obtain ⟨-, length, -⟩ := derived.numbers fits
  cases part with
  | table copy index => exact has
  | data cluster index =>
    obtain ⟨⟨low, high⟩, inside⟩ := has
    have whole : (cluster - 2 + 1) * fs.bpb.sectorsPerCluster ≤
        (fs.totalClusters - 2) * fs.bpb.sectorsPerCluster := Nat.mul_le_mul_right _ (by omega)
    rw [Nat.succ_mul] at whole
    have below : (cluster - 2) * fs.bpb.sectorsPerCluster + index < fs.bpb.areaSectors .data := by
      omega
    exact ⟨Nat.lt_of_le_of_lt (Nat.zero_le _) below, below⟩

/-- Every place of an area is that of a sector. -/
theorem Derived.part_at (derived : fs.Derived) (fits : fs.bpb.dataStart ≤ fs.bpb.totalSectors)
    {area : Area} (has : fs.bpb.HasArea area) {place : Nat}
    (inside : place < fs.bpb.areaSectors area) :
    ∃ part, fs.HasPart part ∧ part.area = area ∧ part.place fs = place := by
  obtain ⟨-, length, -⟩ := derived.numbers fits
  have positive := derived.positive.1
  cases area with
  | table copy => exact ⟨.table copy place, ⟨has, inside⟩, rfl, rfl⟩
  | data =>
    rw [length] at inside
    -- Quotient and remainder by the sectors of a cluster.
    have cluster : place / fs.bpb.sectorsPerCluster < fs.totalClusters - 2 :=
      Nat.div_lt_of_lt_mul (by rw [Nat.mul_comm]; exact inside)
    have quotient := Nat.zero_le (place / fs.bpb.sectorsPerCluster)
    refine ⟨.data (place / fs.bpb.sectorsPerCluster + 2) (place % fs.bpb.sectorsPerCluster),
      ⟨⟨by omega, by omega⟩, Nat.mod_lt _ positive⟩, rfl, ?_⟩
    rw [Part.place, Nat.add_sub_cancel, Nat.mul_comm]
    exact Nat.div_add_mod _ _

/-- A sector is known by its area and its place. -/
theorem Derived.part_inj (derived : fs.Derived) {part other : Part} (has : fs.HasPart part) (has' : fs.HasPart other)
    (area : part.area = other.area) (place : part.place fs = other.place fs) : part = other := by
  have positive := derived.positive.1
  cases part with
  | table copy index =>
    cases other with
    | table copy' index' =>
      obtain rfl := Area.table.inj area
      obtain rfl : index = index' := place
      rfl
    | data => cases area
  | data cluster index =>
    cases other with
    | table => cases area
    | data cluster' index' =>
      obtain ⟨⟨low, -⟩, inside⟩ := has
      obtain ⟨⟨low', -⟩, inside'⟩ := has'
      have quotient : ∀ a i, i < fs.bpb.sectorsPerCluster →
          (a * fs.bpb.sectorsPerCluster + i) / fs.bpb.sectorsPerCluster = a := by
        intro a i small
        rw [Nat.add_comm, Nat.add_mul_div_right _ _ positive, Nat.div_eq_of_lt small, Nat.zero_add]
      have clusters := congrArg (· / fs.bpb.sectorsPerCluster) place
      simp only [Part.place, quotient _ _ inside, quotient _ _ inside'] at clusters
      simp only [Part.place, clusters] at place
      obtain rfl : cluster = cluster' := by omega
      obtain rfl : index = index' := by omega
      rfl

/-- Transfers keep apart and inside the volume exactly if the areas do. -/
theorem Derived.parts_iff (derived : fs.Derived) (fits : fs.bpb.dataStart ≤ fs.bpb.totalSectors) :
    ((∀ part other, fs.HasPart part → fs.HasPart other → part ≠ other →
        ∀ block, fs.Touches part block → ¬ fs.Touches other block) ∧
      ∀ part, fs.HasPart part → ∀ block, fs.Touches part block →
        512 * (block + 1) ≤ fs.bpb.totalSectors * fs.bpb.bytesPerSector) ↔ fs.bpb.SoundHeader := by
  have round : 0 < driveBlocks := by decide
  have one := blockCount_pos fs.bpb.bytesPerSector
  have some : ∀ area, fs.bpb.HasArea area → 0 < fs.bpb.areaSectors area := by
    intro area has
    cases area with
    | table copy => exact derived.positive.2.2
    | data => exact has
  have many : ∀ area, 0 < fs.bpb.areaBlocks area := fun area => Nat.lt_of_lt_of_le one (Nat.le_add_left _ _)
  have limit : ∀ block, 512 * (block + 1) ≤ fs.bpb.totalSectors * fs.bpb.bytesPerSector ↔
      block < fs.bpb.totalSectors * fs.bpb.bytesPerSector / 512 := by
    intro block
    omega
  constructor
  · rintro ⟨apart, inside⟩
    -- Sectors of areas are sectors that are transferred.
    have disjoint : ∀ area other, fs.bpb.HasArea area → fs.bpb.HasArea other →
        ∀ place < fs.bpb.areaSectors area, ∀ place' < fs.bpb.areaSectors other,
        (area, place) ≠ (other, place') → ∀ block,
        Arc driveBlocks (fs.bpb.areaStart area + place) (blockCount fs.bpb.bytesPerSector) block →
        ¬ Arc driveBlocks (fs.bpb.areaStart other + place') (blockCount fs.bpb.bytesPerSector) block := by
      intro area other has has' place few place' few' different block touched touched'
      obtain ⟨part, here, rfl, rfl⟩ := derived.part_at fits has few
      obtain ⟨part', there, rfl, rfl⟩ := derived.part_at fits has' few'
      refine apart part part' here there ?_ block ((derived.touches_iff fits here block).mpr touched)
        ((derived.touches_iff fits there block).mpr touched')
      rintro rfl
      exact different rfl
    refine ⟨fits, fun area has => ?_, fun area other has has' different => ?_, fun area has => ?_⟩
    · refine (arc_run_disjoint_iff (fs.bpb.areaStart area) round (some area has) one).mp ?_
      intro place few place' few' different
      exact disjoint area area has has place few place' few' fun same => different (Prod.mk.inj same).2
    · refine (arcs_disjoint_iff round (many area) (many other)).mp fun block here there => ?_
      obtain ⟨place, few, touched⟩ := (arc_run (some area has) one).mpr here
      obtain ⟨place', few', touched'⟩ := (arc_run (some other has') one).mpr there
      exact disjoint area other has has' place few place' few'
        (fun same => different (Prod.mk.inj same).1) block touched touched'
    · refine (arc_below_iff round (many area)).mp fun block here => (limit block).mp ?_
      obtain ⟨place, few, touched⟩ := (arc_run (some area has) one).mpr here
      obtain ⟨part, there, rfl, rfl⟩ := derived.part_at fits has few
      exact inside part there block ((derived.touches_iff fits there block).mpr touched)
  · intro sound
    refine ⟨fun part other has has' different block touched touched' => ?_,
      fun part has block touched => (limit block).mpr ?_⟩
    · obtain ⟨area, few⟩ := derived.place_lt fits has
      obtain ⟨area', few'⟩ := derived.place_lt fits has'
      rw [derived.touches_iff fits has] at touched
      rw [derived.touches_iff fits has'] at touched'
      by_cases same : part.area = other.area
      · -- Sectors of one area differ in their places.
        rw [← same] at few' touched'
        refine (arc_run_disjoint_iff _ round (some _ area) one).mpr (sound.single _ area) _ few _ few' ?_
          block touched touched'
        exact fun place => different (derived.part_inj has has' same place)
      · refine (arcs_disjoint_iff round (many _) (many _)).mpr (sound.apart _ _ area area' same) block ?_ ?_
        · exact (arc_run (some _ area) one).mp ⟨_, few, touched⟩
        · exact (arc_run (some _ area') one).mp ⟨_, few', touched'⟩
    · obtain ⟨area, few⟩ := derived.place_lt fits has
      rw [derived.touches_iff fits has] at touched
      exact (arc_below_iff round (many _)).mpr (sound.below _ area) block
        ((arc_run (some _ area) one).mp ⟨_, few, touched⟩)

/-- Copies that lie side by side in front of the data area keep apart if the volume is not too large. -/
theorem Derived.soundHeader (derived : fs.Derived) (sector512 : fs.bpb.bytesPerSector = 512)
    (wide : fs.bpb.tableSize16 = 0) (small : fs.bpb.totalSectors ≤ driveBlocks)
    (fits : fs.bpb.dataStart ≤ fs.bpb.totalSectors) : fs.bpb.SoundHeader := by
  have one : blockCount fs.bpb.bytesPerSector = 1 := by rw [sector512]; decide
  have size : fs.bpb.fatSize = fs.bpb.tableSize32 := by
    rw [Bpb.fatSize, if_neg (by simp [wide])]
  have length : fs.bpb.areaSectors .data ≤ fs.bpb.totalSectors - fs.bpb.dataStart := by
    have quotient := Nat.div_mul_le_self (fs.bpb.totalSectors - fs.bpb.dataStart) fs.bpb.sectorsPerCluster
    have fewer := Nat.mul_le_mul_right fs.bpb.sectorsPerCluster
      (Nat.sub_le ((fs.bpb.totalSectors - fs.bpb.dataStart) / fs.bpb.sectorsPerCluster) 2)
    exact Nat.le_trans fewer quotient
  -- A copy ends where the next one starts, and the last one in front of the data area.
  have row : ∀ copy other, copy < other → other ≤ fs.bpb.tableCount →
      copy * fs.bpb.tableSize32 + fs.bpb.tableSize32 ≤ other * fs.bpb.tableSize32 ∧
        other * fs.bpb.tableSize32 ≤ fs.bpb.tableCount * fs.bpb.tableSize32 := by
    intro copy other before within
    have next := Nat.mul_le_mul_right fs.bpb.tableSize32 (Nat.succ_le_of_lt before)
    rw [Nat.succ_mul] at next
    exact ⟨next, Nat.mul_le_mul_right _ within⟩
  have start : fs.bpb.dataStart = fs.bpb.reservedSectorCount +
      fs.bpb.tableCount * fs.bpb.tableSize32 + fs.bpb.rootDirSectors := by
    rw [Bpb.dataStart, size]
  have positive := derived.positive.2.2
  have ends : ∀ area, fs.bpb.HasArea area → fs.bpb.areaStart area + fs.bpb.areaSectors area ≤
      fs.bpb.totalSectors ∧ 0 < fs.bpb.areaSectors area := by
    intro area has
    cases area with
    | table copy =>
      obtain ⟨next, last⟩ := row copy fs.bpb.tableCount has (Nat.le_refl _)
      simp only [Bpb.areaStart, Bpb.areaSectors]
      omega
    | data =>
      have some : 0 < fs.bpb.areaSectors .data := has
      have begins : fs.bpb.areaStart .data = fs.bpb.dataStart := rfl
      omega
  have blocks : ∀ area, fs.bpb.HasArea area → fs.bpb.areaBlocks area = fs.bpb.areaSectors area := by
    intro area has
    have some := (ends area has).2
    rw [Bpb.areaBlocks, one]
    omega
  have order : ∀ area other, fs.bpb.HasArea area → fs.bpb.HasArea other → area ≠ other →
      fs.bpb.areaStart area + fs.bpb.areaSectors area ≤ fs.bpb.areaStart other ∨
        fs.bpb.areaStart other + fs.bpb.areaSectors other ≤ fs.bpb.areaStart area := by
    intro area other has has' different
    cases area with
    | table copy =>
      obtain ⟨next, last⟩ := row copy fs.bpb.tableCount has (Nat.le_refl _)
      cases other with
      | table copy' =>
        have unequal : copy ≠ copy' := fun same => different (by rw [same])
        simp only [Bpb.areaStart, Bpb.areaSectors]
        rcases Nat.lt_or_gt_of_ne unequal with before | behind
        · have step := (row copy copy' before (Nat.le_of_lt has')).1
          omega
        · have step := (row copy' copy behind (Nat.le_of_lt has)).1
          omega
      | data =>
        simp only [Bpb.areaStart, Bpb.areaSectors]
        omega
    | data =>
      cases other with
      | table copy' =>
        obtain ⟨next, last⟩ := row copy' fs.bpb.tableCount has' (Nat.le_refl _)
        simp only [Bpb.areaStart, Bpb.areaSectors]
        omega
      | data => exact absurd rfl different
  rw [driveBlocks] at small
  refine ⟨fits, fun area has => ?_, fun area other has has' different => ?_, fun area has => ?_⟩
  · have inside := (ends area has).1
    refine Or.inr ⟨one, ?_⟩
    rw [driveBlocks]
    omega
  · rw [blocks area has, blocks other has', ArcsApart, gap, driveBlocks]
    have inside := ends area has
    have inside' := ends other has'
    rcases order area other has has' different with before | behind
    · omega
    · omega
  · rw [blocks area has, ArcBelow, driveBlocks, sector512, Nat.mul_div_cancel _ (by decide)]
    have inside := ends area has
    omega

/--
An accepted boot sector describes a sound geometry exactly if its areas fit the volume and keep apart.

With sectors of one block, the 32-bit table size and no more blocks than the driver can number, this
means that the data area starts inside the volume.
-/
theorem accepted_geometry_sound_iff (fs : FileSystem) (accepted : fs.Accepted) :
    (fs.SoundGeometry ↔ fs.bpb.SoundHeader) ∧
      (fs.bpb.bytesPerSector = 512 → fs.bpb.tableSize16 = 0 → fs.bpb.totalSectors ≤ driveBlocks →
        (fs.SoundGeometry ↔ fs.bpb.dataStart ≤ fs.bpb.totalSectors)) := by
  have derived := accepted.derived
  have sound : fs.SoundGeometry ↔ fs.bpb.SoundHeader := by
    constructor
    · rintro ⟨start, sectors, clusters, apart, inside⟩
      have fits := derived.fits_iff.mp ⟨start, sectors, clusters⟩
      exact (derived.parts_iff fits).mp ⟨apart, inside⟩
    · intro header
      obtain ⟨start, sectors, clusters⟩ := derived.fits_iff.mpr header.fits
      obtain ⟨apart, inside⟩ := (derived.parts_iff header.fits).mpr header
      exact ⟨start, sectors, clusters, apart, inside⟩
  refine ⟨sound, fun sector512 wide small => ?_⟩
  rw [sound]
  exact ⟨fun header => header.fits, derived.soundHeader sector512 wide small⟩

/-- The boot sector of the small volume. -/
def smallBoot : Buffer := fun offset =>
  match offset with
  | 12 => 2
  | 13 | 14 | 16 | 36 => 1
  | 32 => 22
  | 66 => 0x29
  | _ => 0

/-- The small volume is one that its boot sector is accepted for. -/
theorem smallVolume_accepted (bytes : Buffer) (current : Nat) : (smallVolume bytes current).Accepted :=
  ⟨smallVolume bytes current, smallBoot, rfl⟩

/-- The geometry of the small volume is sound. -/
theorem accepted_geometry_sound_iff_small : (smallVolume (fun _ => 0) 2).SoundGeometry :=
  ((accepted_geometry_sound_iff _ (smallVolume_accepted (fun _ => 0) 2)).2 rfl rfl
    (by decide +kernel)).mpr (by decide +kernel)

/-- A boot sector with two copies whose size is in the 16-bit field only. -/
def doubledBoot : Buffer := fun offset =>
  match offset with
  | 12 | 16 => 2
  | 13 | 14 | 22 => 1
  | 19 => 100
  | 66 => 0x29
  | _ => 0

/-- It is accepted, and both of its copies are written to the same block. -/
theorem initialize_accepts_copies_on_top_of_each_other :
    ∃ fs, initializeVolume (smallVolume (fun _ => 0) 2) doubledBoot = (true, fs) ∧
      fs.bpb.bytesPerSector = 512 ∧ fs.HasPart (.table 0 0) ∧ fs.HasPart (.table 1 0) ∧
      fs.Touches (.table 0 0) 1 ∧ fs.Touches (.table 1 0) 1 ∧ ¬ fs.SoundGeometry := by
  have first : ((initializeVolume (smallVolume (fun _ => 0) 2) doubledBoot).2).HasPart (.table 0 0) :=
    ⟨by decide +kernel, by decide +kernel⟩
  have second : ((initializeVolume (smallVolume (fun _ => 0) 2) doubledBoot).2).HasPart (.table 1 0) :=
    ⟨by decide +kernel, by decide +kernel⟩
  have touched : ((initializeVolume (smallVolume (fun _ => 0) 2) doubledBoot).2).Touches (.table 0 0) 1 :=
    ⟨0, by decide +kernel, by decide +kernel⟩
  have touched' : ((initializeVolume (smallVolume (fun _ => 0) 2) doubledBoot).2).Touches (.table 1 0) 1 :=
    ⟨0, by decide +kernel, by decide +kernel⟩
  refine ⟨_, rfl, by decide +kernel, first, second, touched, touched', fun sound => ?_⟩
  exact sound.apart _ _ first second (by intro same; cases same) 1 touched touched'

end FileSystem

end Pocky
