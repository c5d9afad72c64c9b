import Pocky.Fs.LongNames

/-! Clusters handed out while writes may be refused: which of them are handed out again. -/

namespace Pocky

namespace FileSystem

/-- Every block can be read at any time, whatever becomes of the writes. -/
def Readable (fs : FileSystem) : Prop := ∀ clock lba, fs.disk.readOk clock lba = true

/-- The next write is accepted; for a cluster being taken it is that of the first copy's entry. -/
def NextWriteAccepted (fs : FileSystem) : Prop := fs.disk.writeOk fs.disk.clock = true

/-- Two states of one volume between which no entry of a cluster in use has become zero. -/
structure KeepsTaken (fs after : FileSystem) : Prop where
  /-- The geometry is the same. -/
  bpb : after.bpb = fs.bpb
  /-- The data area starts where it did. -/
  firstDataSector : after.firstDataSector = fs.firstDataSector
  /-- The table starts where it did. -/
  firstFatSector : after.firstFatSector = fs.firstFatSector
  /-- The clusters are the same. -/
  totalClusters : after.totalClusters = fs.totalClusters
  /-- The same reads succeed. -/
  readOk : after.disk.readOk = fs.disk.readOk
  /-- Clusters in use are still in use. -/
  used : ∀ cluster, fs.InVolume cluster → fs.fatEntry cluster ≠ 0 → after.fatEntry cluster ≠ 0

/-- A volume on which sectors of long names never get to a sector number of zero. -/
def Roomy (fs : FileSystem) : Prop :=
  fs.firstDataSector + fs.totalClusters * fs.bpb.sectorsPerCluster + 20 ≤ 2 ^ 32

variable {fs mid after : FileSystem}

/-- Two stretches of time are one. -/
theorem KeepsTaken.trans (left : fs.KeepsTaken mid) (right : mid.KeepsTaken after) :
    fs.KeepsTaken after where
  bpb := right.bpb.trans left.bpb
  firstDataSector := right.firstDataSector.trans left.firstDataSector
  firstFatSector := right.firstFatSector.trans left.firstFatSector
  totalClusters := right.totalClusters.trans left.totalClusters
  readOk := right.readOk.trans left.readOk
  used := fun cluster valid used =>
    right.used cluster (by rw [InVolume, left.totalClusters]; exact valid) (left.used cluster valid used)

/-- Entries that have stayed or become other than zero are kept in use. -/
theorem SameVolume.keepsTaken (same : SameVolume fs after)
    (used : ∀ cluster, fs.InVolume cluster → fs.fatEntry cluster ≠ 0 → after.fatEntry cluster ≠ 0) :
    fs.KeepsTaken after := by
  have fields := same.fields
  refine ⟨?_, ?_, ?_, ?_, same.readOk, used⟩
  · rw [fields]
  · rw [fields]
  · rw [fields]
  · rw [fields]

/-- An update to a value other than zero keeps all clusters in use, even if it is refused. -/
theorem Updates.keepsTaken {cluster value : Nat} (updates : fs.Updates cluster value after)
    (nonzero : value % 2 ^ 28 ≠ 0) : fs.KeepsTaken after := by
  refine updates.same.keepsTaken fun other valid used => ?_
  by_cases equal : other = cluster
  · subst equal
    by_cases accepted : fs.disk.readOk fs.disk.clock (fs.fatSector other) = true ∧
        fs.disk.writeOk fs.disk.clock = true
    · rw [(updates.accepted accepted.1 accepted.2).1]
      exact nonzero
    · rw [updates.refused accepted]
      exact used
  · rw [updates.others other valid.2 equal]
    exact used

/-- The volume is still laid out. -/
theorem KeepsTaken.layout (keeps : fs.KeepsTaken after) (layout : fs.Layout) : after.Layout := by
  -- All the numbers that the layout speaks of are the same.
  obtain ⟨bpb, first, table, total, -, -⟩ := keeps
  refine ⟨?_, ?_, ?_, ?_, ?_, ?_, ?_⟩
  · rw [bpb]; exact layout.sector
  · rw [bpb]; exact layout.cluster
  · rw [bpb]; exact layout.copies
  · rw [bpb, first, table]; exact layout.apart
  · rw [bpb, first, total]; exact layout.bounded
  · rw [bpb, total]; exact layout.covered
  · rw [total]; exact layout.numbered

/-- Long names still stay in the volume. -/
theorem KeepsTaken.roomy (keeps : fs.KeepsTaken after) (roomy : fs.Roomy) : after.Roomy := by
  rw [Roomy, keeps.firstDataSector, keeps.totalClusters, keeps.bpb]
  exact roomy

/-- Blocks can still be read. -/
theorem KeepsTaken.readable (keeps : fs.KeepsTaken after) (readable : fs.Readable) :
    after.Readable := by
  rw [Readable, keeps.readOk]
  exact readable

/-- A table that can be read is read. -/
theorem Readable.readFatEntry (readable : fs.Readable) (layout : fs.Layout) (cluster : Nat) :
    fs.readFatEntry cluster = fs.fatEntry cluster := by
  rw [readFatEntry_cases layout.sector, if_pos (readable _ _)]

/-- A cluster that is taken was free, and others in use stay so, as it does if the write is accepted. -/
theorem Readable.allocateCluster (readable : fs.Readable) (layout : fs.Layout) {cluster : Nat}
    (taken : fs.allocateCluster = (cluster, after)) (given : cluster ≠ 0) :
    fs.InVolume cluster ∧ fs.fatEntry cluster = 0 ∧ fs.KeepsTaken after ∧
      fs.Updates cluster endMark after ∧
      (fs.NextWriteAccepted → after.fatEntry cluster ≠ 0) ∧
      ∀ other, 2 ≤ other → other < cluster → fs.fatEntry other ≠ 0 := by
  have read := readable.readFatEntry layout
  rcases allocateCluster_cases layout with ⟨none, -⟩ | ⟨found, state, told, valid, zero, updates, used⟩
  · rw [none] at taken
    exact absurd (Prod.mk.inj taken).1.symm given
  · obtain ⟨rfl, rfl⟩ := Prod.mk.inj (told.symm.trans taken)
    have mark : endMark % 2 ^ 28 ≠ 0 := by decide
    refine ⟨valid, by rw [← read, zero], updates.keepsTaken mark, updates, fun accepted => ?_,
      fun other low high => by rw [← read]; exact used other low high⟩
    rw [(updates.accepted (readable _ _) accepted).1]
    exact mark

/-- What a creation that has succeeded went through. -/
theorem createEntry_some {name : Name} {attributes : UInt8} {parent cluster : Nat}
    (created : fs.createEntry name attributes = .ok (some (parent, cluster), after)) :
    validateFileName name = true ∧ parent = fs.currentDirectoryCluster ∧ cluster ≠ 0 ∧
      fs.findFileInDirectory fs.currentDirectoryCluster name = .ok none ∧
      ∃ taken named, fs.allocateCluster = (cluster, taken) ∧
        (if 11 < name.length then
          taken.writeLFNEntries fs.currentDirectoryCluster name
            (calculateShortNameChecksum (shortName name))
        else .ok (true, taken)) = .ok (true, named) ∧
        named.writeDirectoryEntry fs.currentDirectoryCluster (shortName name) attributes cluster 0 =
          .ok (true, after) := by
  rw [createEntry] at created
  by_cases valid : validateFileName name = true
  · have nonempty : name ≠ [] := by
      rintro rfl
      cases valid
    simp only [valid, Bool.not_true, Bool.false_eq_true, if_false, startOf_of_valid valid,
      if_neg nonempty] at created
    obtain ⟨answer, looked, created⟩ := Run.bind_eq_ok.mp created
    cases answer with
    | some found => cases created
    | none =>
      -- The taken cluster, the long name and the entry are dealt with in this order.
      cases allocated : fs.allocateCluster with
      | mk number taken =>
        simp only [allocated] at created
        by_cases given : number = 0
        · simp [given] at created
        · simp only [if_neg given] at created
          -- Whatever has become of the name, the entry has been made last.
          have entry : ∀ named : FileSystem, (do
              let result ← named.writeDirectoryEntry fs.currentDirectoryCluster (shortName name)
                attributes number 0
              if !result.1 then return (none, result.2.freeCluster number)
              return (some (fs.currentDirectoryCluster, number), result.2)) =
                (.ok (some (parent, cluster), after) : Run (Option (Nat × Nat) × FileSystem)) →
              parent = fs.currentDirectoryCluster ∧ cluster = number ∧
                named.writeDirectoryEntry fs.currentDirectoryCluster (shortName name) attributes
                  cluster 0 = .ok (true, after) := by
            intro named done
            obtain ⟨⟨told, entered⟩, entry, done⟩ := Run.bind_eq_ok.mp done
            cases told with
            | false => simp at done
            | true =>
              simp only [Bool.not_true, Bool.false_eq_true, if_false, Run.pure_eq, Except.ok.injEq,
                Prod.mk.injEq, Option.some.injEq] at done
              obtain ⟨⟨rfl, rfl⟩, rfl⟩ := done
              exact ⟨rfl, rfl, entry⟩
          split at created
          · rename_i long
            obtain ⟨⟨told, named⟩, wrote, created⟩ := Run.bind_eq_ok.mp created
            cases told with
            | false => simp at created
            | true =>
              obtain ⟨rfl, rfl, entered⟩ := entry named created
              exact ⟨valid, rfl, given, looked, taken, named, rfl, by rw [if_pos long, wrote], entered⟩
          · rename_i short
            obtain ⟨rfl, rfl, entered⟩ := entry taken created
            exact ⟨valid, rfl, given, looked, taken, taken, rfl, if_neg short, entered⟩
  · simp [valid] at created

/-- Once its cluster is taken, a creation writes to the data area only. -/
theorem createEntry_table {name : Name} {attributes : UInt8} {parent cluster : Nat}
    (layout : fs.Layout) (roomy : fs.Roomy) (here : fs.InVolume fs.currentDirectoryCluster)
    (created : fs.createEntry name attributes = .ok (some (parent, cluster), after)) :
    cluster ≠ 0 ∧ ∃ taken, fs.allocateCluster = (cluster, taken) ∧ SameVolume fs taken ∧
      SameVolume taken after ∧
      ∀ other < fs.totalClusters, after.fatEntry other = taken.fatEntry other := by
  obtain ⟨valid, -, given, -, taken, named, allocated, wrote, entered⟩ := createEntry_some created
  have same : SameVolume fs taken := by
    rcases allocateCluster_cases layout with ⟨none, -⟩ | ⟨found, state, told, -, -, updates, -⟩
    · rw [none] at allocated
      exact absurd (Prod.mk.inj allocated).1.symm given
    · obtain ⟨-, rfl⟩ := Prod.mk.inj (told.symm.trans allocated)
      exact updates.same
  have layout' := layout.same same
  have total : taken.totalClusters = fs.totalClusters := by rw [same.fields]
  obtain ⟨high, bounded⟩ := layout.clusterSector_small here roomy
  have high' : taken.firstDataSector ≤ taken.clusterSector fs.currentDirectoryCluster := by
    rw [same.clusterSector, show taken.firstDataSector = fs.firstDataSector by rw [same.fields]]
    exact high
  -- The long name goes to a sector of the data area, and so does the entry.
  have naming : SameVolume taken named ∧
      ∀ other < fs.totalClusters, named.fatEntry other = taken.fatEntry other := by
    split at wrote
    · rename_i long
      have short : name.length ≤ 255 := by
        simp only [validateFileName, Bool.and_eq_true, decide_eq_true_eq] at valid
        omega
      have searched : ∃ answer, taken.findFreeDirectoryEntry fs.currentDirectoryCluster = .ok answer := by
        rw [writeLFNEntries] at wrote
        split at wrote
        · cases wrote
        · obtain ⟨answer, found, -⟩ := Run.bind_eq_ok.mp wrote
          exact ⟨answer, found⟩
      rcases writeLFNEntries_cases layout'.sector (calculateShortNameChecksum (shortName name)) short
        (by rw [same.clusterSector]; exact bounded) searched with ⟨last, -, -, told⟩ | ⟨-, told | told⟩
      · rw [told] at wrote
        obtain ⟨-, rfl⟩ := Prod.mk.inj (Except.ok.inj wrote)
        refine ⟨withLongName_same _ _ _ _ _, fun other small => ?_⟩
        exact fatEntry_store layout' _ (Nat.le_trans high' (Nat.le_add_right _ _)) (by rw [total]; exact small)
      · rw [told] at wrote
        cases wrote
      · rw [told] at wrote
        cases wrote
    · obtain ⟨-, rfl⟩ := Prod.mk.inj (Except.ok.inj wrote)
      exact ⟨SameVolume.refl _, fun _ _ => rfl⟩
  obtain ⟨same', table⟩ := naming
  have layout'' := layout'.same same'
  obtain ⟨slot, -, -, -, rfl⟩ := writeDirectoryEntry_store layout''.sector entered
  refine ⟨given, taken, allocated, same, same'.trans (store_same _ _ _), fun other small => ?_⟩
  rw [fatEntry_store layout'' _ ?_ ?_, table other small]
  · rw [same'.clusterSector, show named.firstDataSector = taken.firstDataSector by rw [same'.fields]]
    exact high'
  · rw [show named.totalClusters = taken.totalClusters by rw [same'.fields], total]
    exact small

/-- A cluster that was handed out is the first free one, and in use if the next write is accepted. -/
structure HandsOut (fs : FileSystem) (cluster : Nat) (after : FileSystem) : Prop where
  /-- It is a cluster of the volume. -/
  valid : fs.InVolume cluster
  /-- It was free. -/
  free : fs.fatEntry cluster = 0
  /-- The clusters before it were not. -/
  first : ∀ other, 2 ≤ other → other < cluster → fs.fatEntry other ≠ 0
  /-- Clusters in use are still in use. -/
  keeps : fs.KeepsTaken after
  /-- It is in use if the write to the first copy was accepted, and else free. -/
  taken : after.fatEntry cluster = 0 ↔ ¬ fs.NextWriteAccepted

/-- Taking a cluster hands it out. -/
theorem allocateCluster_handsOut (layout : fs.Layout) (readable : fs.Readable) {cluster : Nat}
    (allocated : fs.allocateCluster = (cluster, after)) (given : cluster ≠ 0) :
    fs.HandsOut cluster after := by
  have read := readable.readFatEntry layout
  have mark : endMark % 2 ^ 28 ≠ 0 := by decide
  rcases allocateCluster_cases layout with ⟨none, -⟩ | ⟨found, state, told, valid, zero, updates, used⟩
  · rw [none] at allocated
    exact absurd (Prod.mk.inj allocated).1.symm given
  · obtain ⟨rfl, rfl⟩ := Prod.mk.inj (told.symm.trans allocated)
    rw [read] at zero
    refine ⟨valid, zero, fun other low high => ?_, updates.keepsTaken mark, fun free accepted => ?_,
      fun refused => ?_⟩
    · rw [← read]
      exact used other low high
    · rw [(updates.accepted (readable _ _) accepted).1] at free
      exact mark free
    · rw [updates.refused fun both => refused both.2, zero]

/-- So does the creation of an entry. -/
theorem createEntry_handsOut {name : Name} {attributes : UInt8} {parent cluster : Nat}
    (layout : fs.Layout) (readable : fs.Readable) (roomy : fs.Roomy)
    (here : fs.InVolume fs.currentDirectoryCluster)
    (created : fs.createEntry name attributes = .ok (some (parent, cluster), after)) :
    fs.HandsOut cluster after := by
  obtain ⟨given, taken, allocated, same, same', table⟩ := createEntry_table layout roomy here created
  obtain ⟨valid, free, first, keeps, taken⟩ := allocateCluster_handsOut layout readable allocated given
  refine ⟨valid, free, first, keeps.trans (same'.keepsTaken fun other inside used => ?_), ?_⟩
  · rw [table other (same.inVolume.mp inside).2]
    exact used
  · rw [table cluster valid.2]
    exact taken

/-- The next cluster is another one exactly if this one is in use by then. -/
theorem HandsOut.again_iff {later : FileSystem} {cluster again : Nat}
    (first : fs.HandsOut cluster mid) (between : mid.KeepsTaken later)
    (second : later.HandsOut again after) : again ≠ cluster ↔ later.fatEntry cluster ≠ 0 := by
  have keeps := first.keeps.trans between
  have valid : ∀ other, later.InVolume other ↔ fs.InVolume other := by
    intro other
    rw [InVolume, keeps.totalClusters, InVolume]
  constructor
  · intro different free
    -- The clusters before it are still in use, so it would be the first free one again.
    rcases Nat.lt_or_gt_of_ne different with below | above
    · have inside := (valid again).mp second.valid
      exact keeps.used again inside (first.first again inside.1 below) second.free
    · exact second.first cluster first.valid.1 above free
  · rintro used rfl
    exact used second.free

/-- If the calls follow each other, it is another one exactly if the write has been accepted. -/
theorem HandsOut.next_iff {cluster again : Nat} (first : fs.HandsOut cluster mid)
    (second : mid.HandsOut again after) : again ≠ cluster ↔ fs.NextWriteAccepted := by
  have unchanged : mid.KeepsTaken mid := ⟨rfl, rfl, rfl, rfl, rfl, fun _ _ used => used⟩
  rw [first.again_iff unchanged second, ne_eq, first.taken, not_not]

/-- A file has been created on a cluster of its own. -/
def CreatesFile (fs : FileSystem) (name : Name) (attributes : UInt8) (cluster : Nat)
    (after : FileSystem) : Prop :=
  fs.createFile name attributes = .ok (true, after) ∧
    ∃ parent, fs.createEntry name attributes = .ok (some (parent, cluster), after)

/--
Clusters handed out one after the other, the latest in front, for themselves or for new files.

In between anything may happen that does not free a cluster.
Whenever a cluster is taken, the write to the first copy of its entry is accepted.
-/
inductive HandedOut : FileSystem → List Nat → FileSystem → Prop where
  /-- Nothing has been handed out yet. -/
  | start {fs : FileSystem} : HandedOut fs [] fs
  /-- A cluster is taken. -/
  | allocate {fs mid after : FileSystem} {clusters : List Nat} {cluster : Nat}
      (before : HandedOut fs clusters mid) (allocated : mid.allocateCluster = (cluster, after))
      (given : cluster ≠ 0) (accepted : mid.NextWriteAccepted) :
      HandedOut fs (cluster :: clusters) after
  /-- A file is created in a directory of the volume, where long names find room. -/
  | create {fs mid after : FileSystem} {clusters : List Nat} {cluster : Nat} {name : Name}
      {attributes : UInt8} (before : HandedOut fs clusters mid)
      (here : mid.InVolume mid.currentDirectoryCluster) (roomy : mid.Roomy)
      (created : mid.CreatesFile name attributes cluster after) (accepted : mid.NextWriteAccepted) :
      HandedOut fs (cluster :: clusters) after
  /-- Something else happens. -/
  | other {fs mid after : FileSystem} {clusters : List Nat} (before : HandedOut fs clusters mid)
      (keeps : mid.KeepsTaken after) : HandedOut fs clusters after

/-- All clusters handed out are in use, and none has been handed out twice. -/
theorem HandedOut.used {clusters : List Nat} (handed : HandedOut fs clusters after)
    (layout : fs.Layout) (readable : fs.Readable) :
    fs.KeepsTaken after ∧ clusters.Nodup ∧
      ∀ cluster ∈ clusters, fs.InVolume cluster ∧ after.fatEntry cluster ≠ 0 := by
  -- What one cluster handed out adds to those before it.
  have one : ∀ {fs mid after : FileSystem} {clusters : List Nat} {cluster : Nat},
      fs.KeepsTaken mid → clusters.Nodup →
      (∀ other ∈ clusters, fs.InVolume other ∧ mid.fatEntry other ≠ 0) →
      mid.HandsOut cluster after → mid.NextWriteAccepted →
      fs.KeepsTaken after ∧ (cluster :: clusters).Nodup ∧
        ∀ other ∈ cluster :: clusters, fs.InVolume other ∧ after.fatEntry other ≠ 0 := by
    intro fs mid after clusters cluster keeps distinct used hands accepted
    have valid : ∀ other, mid.InVolume other ↔ fs.InVolume other := by
      intro other
      rw [InVolume, keeps.totalClusters, InVolume]
    refine ⟨keeps.trans hands.keeps, List.nodup_cons.mpr ⟨fun member => ?_, distinct⟩, ?_⟩
    · exact (used cluster member).2 hands.free
    · intro other member
      rcases List.mem_cons.mp member with rfl | member
      · exact ⟨(valid other).mp hands.valid, fun free => hands.taken.mp free accepted⟩
      · obtain ⟨inside, nonzero⟩ := used other member
        exact ⟨inside, hands.keeps.used other ((valid other).mpr inside) nonzero⟩
  -- By induction on what has happened.
  induction handed with
  | start =>
    exact ⟨⟨rfl, rfl, rfl, rfl, rfl, fun _ _ used => used⟩, List.nodup_nil,
      fun _ member => absurd member List.not_mem_nil⟩
  | allocate _ allocated given accepted ih =>
    obtain ⟨keeps, distinct, used⟩ := ih
    exact one keeps distinct used
      (allocateCluster_handsOut (keeps.layout layout) (keeps.readable readable) allocated given) accepted
  | create _ here roomy created accepted ih =>
    obtain ⟨keeps, distinct, used⟩ := ih
    obtain ⟨-, parent, entered⟩ := created
    exact one keeps distinct used
      (createEntry_handsOut (keeps.layout layout) (keeps.readable readable) roomy here entered)
      accepted
  | other _ between ih =>
    obtain ⟨keeps, distinct, used⟩ := ih
    refine ⟨keeps.trans between, distinct, fun cluster member => ?_⟩
    obtain ⟨inside, nonzero⟩ := used cluster member
    exact ⟨inside, between.used cluster (by rw [InVolume, keeps.totalClusters]; exact inside) nonzero⟩

/--
No cluster is handed out twice if the writes to the first copy are accepted, whatever becomes of the
other writes; of two calls in a row, the second hands out the same cluster if that write is refused.
-/
theorem clusters_handed_out_once (fs : FileSystem) (layout : fs.Layout) (readable : fs.Readable) :
    (∀ clusters after, HandedOut fs clusters after → clusters.Nodup) ∧
    (∀ cluster mid again after, fs.allocateCluster = (cluster, mid) → cluster ≠ 0 →
      mid.allocateCluster = (again, after) → again ≠ 0 → (again ≠ cluster ↔ fs.NextWriteAccepted)) ∧
    ∀ name attributes cluster mid name' attributes' again after,
      fs.InVolume fs.currentDirectoryCluster → fs.Roomy →
      fs.CreatesFile name attributes cluster mid → mid.CreatesFile name' attributes' again after →
      (again ≠ cluster ↔ fs.NextWriteAccepted) := by
  refine ⟨fun clusters after handed => (handed.used layout readable).2.1, ?_, ?_⟩
  · intro cluster mid again after first given second given'
    have hands := allocateCluster_handsOut layout readable first given
    exact hands.next_iff (allocateCluster_handsOut (hands.keeps.layout layout)
      (hands.keeps.readable readable) second given')
  · rintro name attributes cluster mid name' attributes' again after here roomy ⟨-, parent, first⟩
      ⟨-, parent', second⟩
    have hands := createEntry_handsOut layout readable roomy here first
    obtain ⟨-, taken, -, same, same', -⟩ := createEntry_table layout roomy here first
    have here' : mid.InVolume mid.currentDirectoryCluster := by
      rw [(same.trans same').fields]
      exact here
    exact hands.next_iff (createEntry_handsOut (hands.keeps.layout layout)
      (hands.keeps.readable readable) (hands.keeps.roomy roomy) here' second)

/-- A small volume that refuses its first write. -/
def refusingOnce : FileSystem :=
  { smallVolume (fun _ => 0) 2 with disk := ⟨fun _ => 0, 0, fun _ _ => true, fun attempt => attempt ≠ 0⟩ }

/-- On a device that refuses nothing, two clusters taken from an empty volume are different. -/
theorem clusters_handed_out_once_empty :
    [(smallVolume (fun _ => 0) 2).allocateCluster.2.allocateCluster.1,
      (smallVolume (fun _ => 0) 2).allocateCluster.1].Nodup ∧
    (smallVolume (fun _ => 0) 2).allocateCluster.2.allocateCluster.1 ≠
      (smallVolume (fun _ => 0) 2).allocateCluster.1 := by
  have once := clusters_handed_out_once (smallVolume (fun _ => 0) 2) (smallVolume_layout _ 2)
    (fun _ _ => rfl)
  have first : (smallVolume (fun _ => 0) 2).allocateCluster.1 ≠ 0 := by decide +kernel
  have second : (smallVolume (fun _ => 0) 2).allocateCluster.2.allocateCluster.1 ≠ 0 := by
    decide +kernel
  have accepted : (smallVolume (fun _ => 0) 2).allocateCluster.2.disk.writeOk
      (smallVolume (fun _ => 0) 2).allocateCluster.2.disk.clock = true := by decide +kernel
  exact ⟨once.1 _ _ (.allocate (.allocate .start rfl first rfl) rfl second accepted),
    (once.2.1 _ _ _ _ rfl first rfl second).mpr rfl⟩

/-- After a refused write the same cluster is taken a second time. -/
theorem allocateCluster_twice_after_refusal :
    refusingOnce.allocateCluster.1 = 2 ∧ refusingOnce.allocateCluster.2.allocateCluster.1 = 2 := by
  decide +kernel

end FileSystem

end Pocky
