import Mathlib.Data.Finset.Prod
import Mathlib.Data.Finite.Prod
import Mathlib.Data.Set.Finite.Basic
import Pocky.Fs.Geometry
import Pocky.Fs.Tables
import Pocky.Lib.Consuming

/-! When the loops over a chain of clusters come to an end, whatever the table holds. -/

namespace Pocky

namespace FileSystem

/-- Where a chain goes on, unless an end mark, a bad cluster or a failed read ends it. -/
def link (fs : FileSystem) (cluster : Nat) : Option Nat :=
  if badMark ≤ fs.readFatEntry cluster then none else some (fs.readFatEntry cluster)

/-- A scan ends at a cluster: a sector of it cannot be read, or decides. -/
def settles (fs : FileSystem) (decides : Buffer → Bool) (cluster : Nat) : Bool :=
  (List.range' 0 fs.bpb.sectorsPerCluster).any fun index =>
    match fs.readSector ((fs.clusterSector cluster + index) % 2 ^ 32) with
    | none => true
    | some data => decides data

/-- A scan goes on along the chain as long as nothing ends it. -/
def scanStep (fs : FileSystem) (decides : Buffer → Bool) (cluster : Nat) : Option Nat :=
  if fs.settles decides cluster then none else fs.link cluster

variable {fs : FileSystem}

/-- Entries have 28 bits. -/
theorem readFatEntry_small (fs : FileSystem) (cluster : Nat) : fs.readFatEntry cluster < 2 ^ 28 := by
  rw [readFatEntry]
  split
  · decide
  · split
    · decide
    · exact Nat.mod_lt _ (by decide)

/-- A chain goes on at numbers of 28 bits. -/
theorem link_small {cluster next : Nat} (leads : fs.link cluster = some next) : next < 2 ^ 28 := by
  rw [link] at leads
  split at leads
  · cases leads
  · obtain rfl := Option.some.inj leads
    exact fs.readFatEntry_small cluster

/-- A chain that does not go on has come to an end mark or looks bad. -/
theorem link_eq_none {cluster : Nat} : fs.link cluster = none ↔
    endMark ≤ fs.readFatEntry cluster ∨ fs.readFatEntry cluster = badMark := by
  -- The two marks are neighbours.
  have neighbours : endMark = badMark + 1 := by decide
  rw [link]
  split
  · simp only [true_iff]
    omega
  · simp only [reduceCtorEq, false_iff]
    omega

/-- A chain that goes on has come to a number that is no mark. -/
theorem link_eq_some {cluster next : Nat} : fs.link cluster = some next ↔
    ¬ endMark ≤ fs.readFatEntry cluster ∧ fs.readFatEntry cluster ≠ badMark ∧
      fs.readFatEntry cluster = next := by
  have neighbours : endMark = badMark + 1 := by decide
  rw [link]
  split
  · simp only [reduceCtorEq, false_iff]
    omega
  · simp only [Option.some.injEq]
    omega

section Scan

variable {α : Type} {find : Nat → Buffer → Option α} {failed ended : α} {decides : Buffer → Bool}

/-- A scan of one cluster decides if one of its sectors does or cannot be read. -/
theorem scanSectors_isSome (same : ∀ sector data, (find sector data).isSome = decides data)
    (sector remaining index : Nat) :
    (fs.scanSectors find failed sector remaining index).isSome =
      (List.range' index remaining).any fun index =>
        match fs.readSector ((sector + index) % 2 ^ 32) with
        | none => true
        | some data => decides data := by
  -- By induction on the sectors that are left.
  induction remaining generalizing index with
  | zero => rfl
  | succ remaining ih =>
    rw [scanSectors, List.range'_succ, List.any_cons]
    cases fs.readSector ((sector + index) % 2 ^ 32) with
    | none => rfl
    | some data =>
      have told := same ((sector + index) % 2 ^ 32) data
      dsimp only
      cases found : find ((sector + index) % 2 ^ 32) data with
      | some answer =>
        rw [found] at told
        rw [← told]
        rfl
      | none =>
        rw [found] at told
        rw [← told, ih]
        rfl

/-- A scan of a chain returns if the walk along it stops within its steps. -/
theorem scanChain_returns_iff (same : ∀ sector data, (find sector data).isSome = decides data)
    (steps cluster : Nat) : (∃ answer, fs.scanChain find failed ended steps cluster = .ok answer) ↔
      walkFrom (fs.scanStep decides) cluster steps = none := by
  -- By induction on the steps.
  induction steps generalizing cluster with
  | zero =>
    constructor
    · rintro ⟨answer, returned⟩
      cases returned
    · intro stopped
      cases stopped
  | succ steps ih =>
    have settled : (fs.scanSectors find failed (fs.clusterSector cluster) fs.bpb.sectorsPerCluster
        0).isSome = fs.settles decides cluster := scanSectors_isSome same _ _ _
    rw [Nat.add_comm, walkFrom_add, walkFrom_one, Nat.add_comm, scanChain, scanStep]
    cases scanned : fs.scanSectors find failed (fs.clusterSector cluster) fs.bpb.sectorsPerCluster 0 with
    | some answer =>
      rw [scanned] at settled
      rw [← settled]
      exact ⟨fun _ => rfl, fun _ => ⟨answer, rfl⟩⟩
    | none =>
      rw [scanned] at settled
      rw [← settled]
      simp only [Option.isSome_none, Bool.false_eq_true, if_false]
      cases leads : fs.link cluster with
      | none =>
        -- Both marks end the scan.
        refine ⟨fun _ => rfl, fun _ => ?_⟩
        rcases link_eq_none.mp leads with last | bad
        · exact ⟨ended, by rw [if_pos last]⟩
        · refine ⟨failed, ?_⟩
          rw [bad, if_neg (by decide), if_pos rfl]
      | some next =>
        obtain ⟨inner, good, number⟩ := link_eq_some.mp leads
        rw [if_neg inner, if_neg good, number]
        exact ih next

/-- So does a scan. -/
theorem scanStep_small {cluster next : Nat} (leads : fs.scanStep decides cluster = some next) :
    next < 2 ^ 28 := by
  rw [scanStep] at leads
  split at leads
  · cases leads
  · exact link_small leads

/-- A scan of a chain returns exactly if it comes to no cluster twice. -/
theorem scanChain_ends_iff (same : ∀ sector data, (find sector data).isSome = decides data)
    {cluster : Nat} (small : cluster < 2 ^ 28) :
    (∃ answer, fs.scanChain find failed ended walkSteps cluster = .ok answer) ↔
      NeverTwice id (fs.scanStep decides) cluster := by
  rw [scanChain_returns_iff same]
  constructor
  · exact fun stopped => Stops.neverTwice_id ⟨walkSteps, stopped⟩
  · intro never
    -- There are fewer numbers than steps.
    have stopped := never.stopped_below small fun _ _ => scanStep_small
    have enough : 2 ^ 28 + (walkSteps - 2 ^ 28) = walkSteps := by decide
    rw [← enough]
    exact walkFrom_stopped stopped _

/-- A lookup that returns has come to the end of its walk. -/
theorem stops_of_findFileInDirectory {cluster : Nat} {name : Name} {answer : Option Found}
    (returned : fs.findFileInDirectory cluster name = .ok answer) :
    Stops (fs.scanStep fun data => (findName data name fs.slotsPerSector 0).isSome) cluster := by
  rw [findFileInDirectory] at returned
  refine ⟨walkSteps, (scanChain_returns_iff ?_ walkSteps cluster).mp ⟨answer, returned⟩⟩
  exact fun _ _ => Option.isSome_map

end Scan

section Free

/-- One round of the freeing loop that does not end it: the state after it and the next cluster. -/
def freeStep : FileSystem × Nat → Option (FileSystem × Nat)
  | (fs, cluster) => (fs.link cluster).map fun next => (fs.freeCluster cluster, next)

/-- The freeing loop returns if the walk of its rounds stops within its steps. -/
theorem freeChain_returns_iff (steps : Nat) {cluster : Nat} (low : cluster < endMark) :
    (∃ after, fs.freeChain steps cluster = .ok after) ↔
      walkFrom freeStep (fs, cluster) steps = none := by
  -- By induction on the steps.
  induction steps generalizing fs cluster with
  | zero =>
    constructor
    · rintro ⟨after, returned⟩
      cases returned
    · intro stopped
      cases stopped
  | succ steps ih =>
    rw [Nat.add_comm, walkFrom_add, walkFrom_one, Nat.add_comm, freeChain, if_neg (Nat.not_le.mpr low),
      freeStep]
    cases leads : fs.link cluster with
    | none =>
      -- Both marks end the loop.
      refine ⟨fun _ => rfl, fun _ => ⟨fs.freeCluster cluster, ?_⟩⟩
      rcases link_eq_none.mp leads with last | bad
      · simp only [if_pos last]
      · simp only [bad, if_true, ite_self]
    | some next =>
      obtain ⟨inner, good, number⟩ := link_eq_some.mp leads
      rw [number] at inner good
      simp only [number, if_neg inner, if_neg good]
      exact ih (Nat.lt_of_not_le inner)

/-- The freeing loop returns at last exactly if the walk of its rounds stops. -/
theorem freeChain_ends_iff (cluster : Nat) : (∃ steps after, fs.freeChain steps cluster = .ok after) ↔
    endMark ≤ cluster ∨ Stops freeStep (fs, cluster) := by
  by_cases low : cluster < endMark
  · rw [or_iff_right (Nat.not_le.mpr low), Stops]
    exact exists_congr fun steps => freeChain_returns_iff steps low
  · have high := Nat.le_of_not_lt low
    exact ⟨fun _ => Or.inl high, fun _ => ⟨1, fs, by rw [freeChain, if_pos high]⟩⟩

/-- The device treats a block in the same way at any time. -/
structure Steady (fs : FileSystem) : Prop where
  /-- A block can always be read or never. -/
  read : ∀ clock lba, fs.disk.readOk clock lba = fs.disk.readOk 0 lba
  /-- Writes always succeed or never. -/
  write : ∀ attempt, fs.disk.writeOk attempt = fs.disk.writeOk 0

/-- A device that refuses nothing is steady. -/
theorem Reliable.steady (reliable : fs.Reliable) : fs.Steady :=
  ⟨fun clock lba => by rw [reliable.read, reliable.read], fun attempt => by
    rw [reliable.write, reliable.write]⟩

/-- Two states with the same bytes on the disk, after more or fewer writes. -/
structure SameBytes (fs other : FileSystem) : Prop where
  /-- At most the disks differ. -/
  same : SameVolume fs other
  /-- Their bytes are the same. -/
  bytes : other.disk.bytes = fs.disk.bytes

/-- States of one volume, the same in all bytes that have no 32-bit sector number. -/
structure Near (fs after : FileSystem) : Prop where
  /-- At most the disks differ. -/
  same : SameVolume fs after
  /-- Bytes far away are the same. -/
  far : ∀ addr, 512 * 2 ^ 32 ≤ addr → after.disk.bytes addr = fs.disk.bytes addr

/-- Nothing has changed. -/
theorem Near.refl (fs : FileSystem) : fs.Near fs := ⟨SameVolume.refl fs, fun _ _ => rfl⟩

/-- Two changes are one. -/
theorem Near.trans {middle after : FileSystem} (left : fs.Near middle) (right : middle.Near after) :
    fs.Near after :=
  ⟨left.same.trans right.same, fun addr high => (right.far addr high).trans (left.far addr high)⟩

/-- The device is still steady. -/
theorem Steady.same {after : FileSystem} (steady : fs.Steady) (same : SameVolume fs after) :
    after.Steady := by
  constructor
  · rw [same.readOk]
    exact steady.read
  · rw [same.writeOk]
    exact steady.write

variable {other : FileSystem}

/-- A write of a sector leaves bytes far away alone. -/
theorem writeSector_near (sector512 : fs.bpb.bytesPerSector = 512) {sector : Nat} (data : Buffer)
    (small : sector < 2 ^ 32) : fs.Near (fs.writeSector sector data).2 := by
  rw [writeSector_cases sector512]
  split
  · refine ⟨fs.store_same sector data, fun addr high => ?_⟩
    have outside : ¬ (512 * sector ≤ addr ∧ addr < 512 * sector + 512) := by omega
    simp only [store, Disk.putBlock, blockSize]
    exact if_neg outside
  · exact ⟨⟨rfl, rfl, rfl⟩, fun _ _ => rfl⟩

/-- The same bytes have the same sectors. -/
theorem SameBytes.block (equal : fs.SameBytes other) (sector : Nat) : other.block sector = fs.block sector := by
  rw [FileSystem.block, equal.bytes, FileSystem.block]

/-- On a steady device, the same is read from the same bytes. -/
theorem SameBytes.readSector (equal : fs.SameBytes other) (sector512 : fs.bpb.bytesPerSector = 512)
    (steady : fs.Steady) (sector : Nat) : other.readSector sector = fs.readSector sector := by
  have sector512' : other.bpb.bytesPerSector = 512 := by
    rw [equal.same.bytesPerSector, sector512]
  rw [readSector_cases sector512', readSector_cases sector512, equal.block, equal.same.readOk,
    steady.read, steady.read fs.disk.clock]

/-- Entries are the same. -/
theorem SameBytes.readFatEntry (equal : fs.SameBytes other) (sector512 : fs.bpb.bytesPerSector = 512)
    (steady : fs.Steady) (cluster : Nat) : other.readFatEntry cluster = fs.readFatEntry cluster := by
  have size : other.bpb.bytesPerSector = fs.bpb.bytesPerSector := equal.same.bytesPerSector
  obtain ⟨place, position⟩ := equal.same.fatSector cluster
  rw [FileSystem.readFatEntry, size, place, position, equal.readSector sector512 steady,
    FileSystem.readFatEntry]

/-- On a steady device, the same writes to the same bytes succeed and leave the same bytes. -/
theorem SameBytes.writeSector (equal : fs.SameBytes other) (sector512 : fs.bpb.bytesPerSector = 512)
    (steady : fs.Steady) (sector : Nat) (data : Buffer) :
    (other.writeSector sector data).1 = (fs.writeSector sector data).1 ∧
      (fs.writeSector sector data).2.SameBytes (other.writeSector sector data).2 := by
  have sector512' : other.bpb.bytesPerSector = 512 := by
    rw [equal.same.bytesPerSector, sector512]
  have fields := equal.same.fields
  rw [writeSector_cases sector512', writeSector_cases sector512, equal.same.writeOk, steady.write,
    steady.write fs.disk.clock]
  split
  · refine ⟨rfl, ⟨?_, equal.same.readOk, equal.same.writeOk⟩, ?_⟩
    · rw [store, store, fields]
    · simp only [store, equal.bytes]
  · refine ⟨rfl, ⟨?_, equal.same.readOk, equal.same.writeOk⟩, equal.bytes⟩
    rw [refuse, refuse, fields]

/-- Writing a sector of the table into its copies leaves bytes far away alone. -/
theorem writeCopies_near (sector512 : fs.bpb.bytesPerSector = 512) (sector : Nat) (data : Buffer)
    (remaining copy : Nat) : fs.Near (fs.writeCopies sector data remaining copy).2 := by
  -- By induction on the copies that are left.
  induction remaining generalizing fs copy with
  | zero => exact Near.refl fs
  | succ remaining ih =>
    have near := writeSector_near sector512 data
      (Nat.mod_lt (sector + copy * fs.bpb.tableSize32) (show 0 < 2 ^ 32 by decide))
    rw [writeCopies]
    cases written : fs.writeSector ((sector + copy * fs.bpb.tableSize32) % 2 ^ 32) data with
    | mk told after =>
      rw [written] at near
      cases told with
      | false => exact near
      | true => exact near.trans (ih (by rw [near.same.bytesPerSector, sector512]) (copy + 1))

/-- The copies are written in the same way to the same bytes. -/
theorem SameBytes.writeCopies (equal : fs.SameBytes other) (sector512 : fs.bpb.bytesPerSector = 512)
    (steady : fs.Steady) (sector : Nat) (data : Buffer) (remaining copy : Nat) :
    (fs.writeCopies sector data remaining copy).2.SameBytes
      (other.writeCopies sector data remaining copy).2 := by
  -- By induction on the copies that are left.
  induction remaining generalizing fs other copy with
  | zero => exact equal
  | succ remaining ih =>
    have size : other.bpb.tableSize32 = fs.bpb.tableSize32 := by rw [equal.same.fields]
    have near := writeSector_near sector512 data
      (Nat.mod_lt (sector + copy * fs.bpb.tableSize32) (show 0 < 2 ^ 32 by decide))
    obtain ⟨told, equal'⟩ := equal.writeSector sector512 steady
      ((sector + copy * fs.bpb.tableSize32) % 2 ^ 32) data
    rw [FileSystem.writeCopies, FileSystem.writeCopies, size]
    cases written : fs.writeSector ((sector + copy * fs.bpb.tableSize32) % 2 ^ 32) data with
    | mk accepted after =>
      cases written' : other.writeSector ((sector + copy * fs.bpb.tableSize32) % 2 ^ 32) data with
      | mk accepted' after' =>
        rw [written, written'] at told equal'
        rw [written] at near
        obtain rfl : accepted' = accepted := told
        cases accepted' with
        | false => exact equal'
        | true =>
          exact ih equal' (by rw [near.same.bytesPerSector, sector512]) (steady.same near.same) (copy + 1)

/-- Freeing a cluster leaves bytes far away alone. -/
theorem freeCluster_near (sector512 : fs.bpb.bytesPerSector = 512) (cluster : Nat) :
    fs.Near (fs.freeCluster cluster) := by
  rw [freeCluster]
  split
  · exact Near.refl fs
  · rw [updateFatEntry]
    split
    · exact Near.refl fs
    · exact writeCopies_near sector512 _ _ _ _

/-- A cluster is freed in the same way in the same bytes. -/
theorem SameBytes.freeCluster (equal : fs.SameBytes other) (sector512 : fs.bpb.bytesPerSector = 512)
    (steady : fs.Steady) (cluster : Nat) :
    (fs.freeCluster cluster).SameBytes (other.freeCluster cluster) := by
  have total : other.totalClusters = fs.totalClusters := by rw [equal.same.fields]
  have copies : other.bpb.tableCount = fs.bpb.tableCount := by rw [equal.same.fields]
  obtain ⟨place, position⟩ := equal.same.fatSector cluster
  rw [FileSystem.freeCluster, FileSystem.freeCluster, total]
  split
  · exact equal
  · rw [updateFatEntry, updateFatEntry, place, position, copies, equal.readSector sector512 steady]
    cases fs.readSector (fs.fatSector cluster) with
    | none => exact equal
    | some data => exact equal.writeCopies sector512 steady _ _ _ _

/-- The rounds of the freeing loop stay on the volume. -/
theorem freeStep_keeps (sector512 : fs.bpb.bytesPerSector = 512) (place target : FileSystem × Nat)
    (here : fs.Near place.1 ∧ place.2 < 2 ^ 28) (leads : freeStep place = some target) :
    fs.Near target.1 ∧ target.2 < 2 ^ 28 := by
  obtain ⟨near, -⟩ := here
  obtain ⟨next, goes, rfl⟩ := Option.map_eq_some_iff.mp leads
  have sector512' : place.1.bpb.bytesPerSector = 512 := by rw [near.same.bytesPerSector, sector512]
  exact ⟨near.trans (freeCluster_near sector512' place.2), link_small goes⟩

/-- On a steady device, a round does the same at the same cluster of the same bytes. -/
theorem freeStep_view (sector512 : fs.bpb.bytesPerSector = 512) (steady : fs.Steady)
    (place other : FileSystem × Nat) (here : fs.Near place.1 ∧ place.2 < 2 ^ 28)
    (there : fs.Near other.1 ∧ other.2 < 2 ^ 28)
    (same : (place.1.disk.bytes, place.2) = (other.1.disk.bytes, other.2)) :
    (freeStep place).map (fun place => (place.1.disk.bytes, place.2)) =
      (freeStep other).map fun place => (place.1.disk.bytes, place.2) := by
  obtain ⟨first, cluster⟩ := place
  obtain ⟨second, cluster'⟩ := other
  dsimp only at here there same
  obtain ⟨bytes, rfl⟩ := Prod.mk.inj same
  obtain ⟨⟨fields, readOk, writeOk⟩, -⟩ := here.1
  obtain ⟨⟨fields', readOk', writeOk'⟩, -⟩ := there.1
  have equal : first.SameBytes second :=
    ⟨⟨by rw [fields', fields], readOk'.trans readOk.symm, writeOk'.trans writeOk.symm⟩, bytes.symm⟩
  have sector512' : first.bpb.bytesPerSector = 512 := by rw [fields]; exact sector512
  have steady' := steady.same here.1.same
  have links : second.link cluster = first.link cluster := by
    rw [link, link, equal.readFatEntry sector512' steady']
  simp only [freeStep, links]
  cases first.link cluster with
  | none => rfl
  | some next =>
    simp only [Option.map_some, (equal.freeCluster sector512' steady' cluster).bytes]

/-- Only finitely many disks agree far away. -/
theorem near_finite (bytes : Buffer) :
    {other : Buffer | ∀ addr, 512 * 2 ^ 32 ≤ addr → other addr = bytes addr}.Finite := by
  -- The bytes that are not far away tell such disks apart.
  have bits : Function.Injective (fun byte : UInt8 => (⟨byte.toNat, byte.toNat_lt⟩ : Fin (2 ^ 8))) :=
    fun first second same => UInt8.toNat_inj.mp (Fin.mk.inj same)
  have small : Finite UInt8 := Finite.of_injective _ bits
  have embed : Function.Injective fun (other : {other : Buffer |
      ∀ addr, 512 * 2 ^ 32 ≤ addr → other addr = bytes addr}) =>
        fun addr : Fin (512 * 2 ^ 32) => other.1 addr := by
    intro first second same
    apply Subtype.ext
    funext addr
    rcases Nat.lt_or_ge addr (512 * 2 ^ 32) with low | high
    · exact congrFun same ⟨addr, low⟩
    · rw [first.2 addr high, second.2 addr high]
  have few := Finite.of_injective _ embed
  exact Set.toFinite _

/-- On a steady device, the rounds stop exactly if no cluster comes back while the bytes are the same. -/
theorem freeStep_stops_iff (sector512 : fs.bpb.bytesPerSector = 512) (steady : fs.Steady)
    {cluster : Nat} (small : cluster < 2 ^ 28) : Stops freeStep (fs, cluster) ↔
      NeverTwice (fun place => (place.1.disk.bytes, place.2)) freeStep (fs, cluster) := by
  classical
  have here : fs.Near (fs, cluster).1 ∧ (fs, cluster).2 < 2 ^ 28 := ⟨Near.refl fs, small⟩
  constructor
  · exact Stops.neverTwice (freeStep_keeps sector512) (freeStep_view sector512 steady) here
  · intro never
    refine ⟨_, never.stopped ((near_finite fs.disk.bytes).toFinset ×ˢ Finset.range (2 ^ 28)) ?_⟩
    intro count place reached
    obtain ⟨near, low⟩ := walkFrom_keeps (fun place => fs.Near place.1 ∧ place.2 < 2 ^ 28)
      (freeStep_keeps sector512) here reached
    exact Finset.mem_product.mpr ⟨(near_finite fs.disk.bytes).mem_toFinset.mpr near.far,
      Finset.mem_range.mpr low⟩

/-- Whether a freed cluster's entry is set, or the cluster is ignored. -/
def isFreed (fs : FileSystem) (cluster : Nat) : Bool := decide (2 ≤ cluster ∧ cluster < fs.totalClusters)

/-- All clusters of the way along a chain have entries in the first copy of the table. -/
def ListedFrom (fs : FileSystem) (start : Nat) : Prop :=
  ∀ count cluster, walkFrom fs.link start count = some cluster → fs.Listed cluster

/-- Freeing a cluster clears its entry or changes nothing. -/
theorem freeCluster_entries (tables : fs.Tables) (reliable : fs.Reliable) {cluster : Nat}
    (listed : fs.Listed cluster) : SameVolume fs (fs.freeCluster cluster) ∧
      ∀ other, fs.Listed other → (fs.freeCluster cluster).fatEntry other =
        if fs.isFreed cluster = true ∧ other = cluster then 0 else fs.fatEntry other := by
  by_cases freed : fs.isFreed cluster = true
  · have inside : 2 ≤ cluster ∧ cluster < fs.totalClusters := of_decide_eq_true freed
    obtain ⟨after, told, updated⟩ := updateFatEntry_updated tables reliable listed 0
    have state : fs.freeCluster cluster = after := by
      rw [freeCluster, if_neg (by omega), told]
    rw [state]
    refine ⟨updated.same, fun other listed' => ?_⟩
    rw [updated.fatEntry tables listed', Nat.zero_mod]
    simp only [freed, true_and]
  · have outside : ¬ (2 ≤ cluster ∧ cluster < fs.totalClusters) := fun inside =>
      freed (decide_eq_true inside)
    have state : fs.freeCluster cluster = fs := by
      rw [freeCluster, if_pos (by omega)]
    rw [state]
    refine ⟨SameVolume.refl fs, fun other _ => ?_⟩
    rw [if_neg fun both => freed both.1]

/-- The freeing loop is a walk that consumes: a freed cluster leads to cluster zero. -/
theorem freeStep_consumes (tables : fs.Tables) (reliable : fs.Reliable) {start : Nat}
    (listed : fs.ListedFrom start) (listed' : fs.ListedFrom 0) (count : Nat) :
    walkFrom (consumingStep fs.link fs.isFreed 0) (∅, start) count = none ∧
      walkFrom freeStep (fs, start) count = none ∨
    ∃ gone cluster after,
      walkFrom (consumingStep fs.link fs.isFreed 0) (∅, start) count = some (gone, cluster) ∧
      walkFrom freeStep (fs, start) count = some (after, cluster) ∧ SameVolume fs after ∧
      ∀ other, fs.Listed other → after.fatEntry other = if other ∈ gone then 0 else fs.fatEntry other := by
  -- By induction on the rounds; the table holds zero where something is gone.
  induction count with
  | zero => exact Or.inr ⟨∅, start, fs, rfl, rfl, SameVolume.refl fs, fun _ _ => by simp⟩
  | succ count ih =>
    rcases ih with ⟨stopped, stopped'⟩ | ⟨gone, cluster, after, reached, reached', same, table⟩
    · exact Or.inl ⟨walkFrom_stopped stopped 1, walkFrom_stopped stopped' 1⟩
    · have inside : fs.Listed cluster := by
        obtain ⟨steps, way | way⟩ := consuming_place fs.link fs.isFreed 0 start ∅ count reached
        · exact listed steps cluster way
        · exact listed' steps cluster way
      have tables' := tables.same same
      have reliable' := reliable.same same
      have freed : after.isFreed cluster = fs.isFreed cluster := by
        rw [isFreed, same.fields, isFreed]
      have entry := table cluster inside
      have links : after.link cluster = if cluster ∈ gone then some 0 else fs.link cluster := by
        rw [link, readFatEntry_eq tables'.sector reliable', entry]
        split
        · rfl
        · rw [link, readFatEntry_eq tables.sector reliable]
      rw [walkFrom, walkFrom, reached, reached']
      simp only [Option.bind_some, consumingStep, freeStep, links]
      cases (if cluster ∈ gone then some 0 else fs.link cluster) with
      | none => exact Or.inl ⟨rfl, rfl⟩
      | some next =>
        obtain ⟨same', cleared⟩ := freeCluster_entries tables' reliable' (same.listed.mpr inside)
        refine Or.inr ⟨_, next, _, rfl, rfl, same.trans same', fun other known => ?_⟩
        rw [cleared other (same.listed.mpr known), table other known, freed]
        by_cases gives : fs.isFreed cluster = true
        · by_cases here : other = cluster
          · simp [gives, here]
          · simp [gives, here]
        · simp [gives]

/-- Where the copies do not disturb each other, the rounds stop if the chain does, or if the loop is
led to cluster zero and the chain from there stops. -/
theorem freeStep_stops_of_listed (tables : fs.Tables) (reliable : fs.Reliable) {start : Nat}
    (listed : fs.ListedFrom start) (listed' : fs.ListedFrom 0) :
    Stops freeStep (fs, start) ↔
      Stops fs.link start ∨ Stops fs.link 0 ∧ ConsumedAgain fs.link fs.isFreed start := by
  rw [← consuming_stops_iff]
  refine exists_congr fun count => ?_
  rcases freeStep_consumes tables reliable listed listed' count with
    ⟨stopped, stopped'⟩ | ⟨gone, cluster, after, reached, reached', -, -⟩
  · simp only [stopped, stopped']
  · simp only [reached, reached', reduceCtorEq]

end Free

/--
The loops over a chain come to an end exactly if they do not come back to where they were.

For the freeing loop that is a cluster with the disk as it was then.
On a table whose copies keep apart, this means that the chain comes to no cluster twice, or that it
does so with a cluster that is freed, and that the chain from cluster zero comes to no cluster twice.
-/
theorem chain_loops_end_iff (fs : FileSystem) (sector512 : fs.bpb.bytesPerSector = 512)
    (cluster : Nat) (small : cluster < 2 ^ 28) :
    (∀ name, (∃ answer, fs.findFileInDirectory cluster name = .ok answer) ↔
      NeverTwice id (fs.scanStep fun data => (findName data name fs.slotsPerSector 0).isSome) cluster) ∧
    ((∃ answer, fs.findFreeDirectoryEntry cluster = .ok answer) ↔
      NeverTwice id (fs.scanStep fun data => (findFree data fs.slotsPerSector 0).isSome) cluster) ∧
    ((∃ answer, fs.isDirectoryEmpty cluster = .ok answer) ↔
      NeverTwice id (fs.scanStep fun data => (emptyVerdict data fs.slotsPerSector 0).isSome) cluster) ∧
    (fs.Steady → ((∃ steps after, fs.freeChain steps cluster = .ok after) ↔ endMark ≤ cluster ∨
      NeverTwice (fun place => (place.1.disk.bytes, place.2)) freeStep (fs, cluster))) ∧
    (fs.Tables → fs.Reliable → fs.ListedFrom cluster → fs.ListedFrom 0 →
      ((∃ steps after, fs.freeChain steps cluster = .ok after) ↔ endMark ≤ cluster ∨
        NeverTwice id fs.link cluster ∨
          NeverTwice id fs.link 0 ∧ ConsumedAgain fs.link fs.isFreed cluster)) := by
  refine ⟨fun name => ?_, ?_, ?_, fun steady => ?_, fun tables reliable listed listed' => ?_⟩
  · simp only [findFileInDirectory]
    refine scanChain_ends_iff ?_ small
    exact fun _ _ => Option.isSome_map
  · simp only [findFreeDirectoryEntry]
    refine scanChain_ends_iff ?_ small
    exact fun _ _ => Option.isSome_map
  · simp only [isDirectoryEmpty]
    refine scanChain_ends_iff ?_ small
    exact fun _ _ => rfl
  · rw [freeChain_ends_iff, freeStep_stops_iff sector512 steady small]
  · rw [freeChain_ends_iff, freeStep_stops_of_listed tables reliable listed listed',
      stops_iff_neverTwice small fun _ _ => link_small,
      stops_iff_neverTwice (show 0 < 2 ^ 28 by decide) fun _ _ => link_small]

/-- A chain of one cluster, on which all loops come to an end. -/
theorem chain_loops_end_iff_single :
    (∃ answer, (smallVolume (withLink 2 endMark fun _ => 0) 2).findFileInDirectory 2 [0x41] =
      .ok answer) ∧
    ∃ steps after, (smallVolume (withLink 2 endMark fun _ => 0) 2).freeChain steps 2 = .ok after := by
  have ends := chain_loops_end_iff (smallVolume (withLink 2 endMark fun _ => 0) 2) rfl 2 (by decide)
  have last : (smallVolume (withLink 2 endMark fun _ => 0) 2).link 2 = none := by decide +kernel
  have scan : ∀ decides, Stops ((smallVolume (withLink 2 endMark fun _ => 0) 2).scanStep decides) 2 :=
    fun decides => ⟨1, by rw [walkFrom_one, scanStep, last, ite_self]⟩
  have rounds : Stops freeStep (smallVolume (withLink 2 endMark fun _ => 0) 2, 2) :=
    ⟨1, by rw [walkFrom_one, freeStep, last, Option.map_none]⟩
  have steady := (smallVolume_reliable (withLink 2 endMark fun _ => 0) 2).steady
  exact ⟨(ends.1 _).mpr (scan _).neverTwice_id,
    (ends.2.2.2.1 steady).mpr (Or.inr ((freeStep_stops_iff rfl steady (by decide)).mp rounds))⟩

/-- On an empty table, chains lead to cluster zero for ever. -/
theorem chain_loops_run_for_ever_on_empty_table :
    (smallVolume (fun _ => 0) 2).Accepted ∧ (smallVolume (fun _ => 0) 2).bpb.bytesPerSector = 512 ∧
      (∀ answer, (smallVolume (fun _ => 0) 2).findFileInDirectory 5 [0x41] ≠ .ok answer) ∧
      ∀ steps after, (smallVolume (fun _ => 0) 2).freeChain steps 5 ≠ .ok after := by
  have zero : (smallVolume (fun _ => 0) 2).link 0 = some 0 := by decide +kernel
  have five : (smallVolume (fun _ => 0) 2).link 5 = some 0 := by decide +kernel
  refine ⟨smallVolume_accepted _ 2, rfl, fun answer returned => ?_, fun steps after returned => ?_⟩
  · -- No sector of the two clusters decides.
    have zero' : (smallVolume (fun _ => 0) 2).scanStep (fun data =>
        (findName data [0x41] (smallVolume (fun _ => 0) 2).slotsPerSector 0).isSome) 0 = some 0 := by
      decide +kernel
    have five' : (smallVolume (fun _ => 0) 2).scanStep (fun data =>
        (findName data [0x41] (smallVolume (fun _ => 0) 2).slotsPerSector 0).isSome) 5 = some 0 := by
      decide +kernel
    exact not_stops_of_loop zero' ((stops_iff_of_reached ((walkFrom_one _ 5).trans five')).mp
      (stops_of_findFileInDirectory returned))
  · have listed : ∀ start, start = 5 ∨ start = 0 → (smallVolume (fun _ => 0) 2).ListedFrom start := by
      intro start here count cluster reached
      have known := walkFrom_keeps (fun place => place = 5 ∨ place = 0) (fun place target here leads => by
        rcases here with rfl | rfl
        · exact Or.inr (Option.some.inj (five.symm.trans leads)).symm
        · exact Or.inr (Option.some.inj (zero.symm.trans leads)).symm) here reached
      rcases known with rfl | rfl
      · exact ⟨by decide +kernel, by decide⟩
      · exact ⟨by decide +kernel, by decide⟩
    have stuck := not_stops_of_loop zero
    rcases (freeChain_ends_iff 5).mp ⟨steps, after, returned⟩ with high | rounds
    · exact absurd high (by decide)
    · rcases (freeStep_stops_of_listed (smallVolume_layout _ 2).tables (smallVolume_reliable _ 2)
        (listed 5 (Or.inl rfl)) (listed 0 (Or.inr rfl))).mp rounds with stops | ⟨stops, -⟩
      · exact stuck ((stops_iff_of_reached ((walkFrom_one _ 5).trans five)).mp stops)
      · exact stuck stops

end FileSystem

end Pocky
