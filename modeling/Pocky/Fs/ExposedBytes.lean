import Pocky.Fs.AllOrNothing
import Pocky.Fs.DataWrites

/-! Which bytes of a volume reading a file exposes: two runs on volumes that agree on the file. -/

namespace Pocky

namespace FileSystem

/-- The byte at a place of a chain, unless the chain ends before or its sector cannot be read. -/
def chainByte (fs : FileSystem) (startCluster place : Nat) : Option UInt8 :=
  if fs.bpb.sectorsPerCluster = 0 ∨ fs.bpb.bytesPerSector = 0 then none
  else (walkFrom fs.link startCluster
      (place / (fs.bpb.bytesPerSector * fs.bpb.sectorsPerCluster))).bind fun cluster =>
    (fs.readSector ((fs.clusterSector cluster + place % (fs.bpb.bytesPerSector *
      fs.bpb.sectorsPerCluster) / fs.bpb.bytesPerSector) % 2 ^ 32)).map fun data =>
        data (place % fs.bpb.bytesPerSector)

/-- A buffer whose first bytes are those of a chain, the others being untouched. -/
structure Filled (fs : FileSystem) (startCluster : Nat) (original : Buffer) (count : Nat)
    (buffer : Buffer) : Prop where
  /-- The first bytes have been read. -/
  read : ∀ place < count, fs.chainByte startCluster place = some (buffer place)
  /-- The others are as before. -/
  rest : ∀ place, count ≤ place → buffer place = original place

section Reading

variable {fs : FileSystem} {start cluster : Nat} {original buffer : Buffer}

/-- A place of a cluster as a number of clusters, a number of sectors and an offset. -/
theorem place_parts {size sectors index offset : Nat} (count : Nat) (inside : index < sectors)
    (within : offset < size) :
    (size * sectors * count + size * index + offset) / (size * sectors) = count ∧
      (size * sectors * count + size * index + offset) % (size * sectors) / size = index ∧
      (size * sectors * count + size * index + offset) % size = offset := by
  have positive : 0 < size := Nat.lt_of_le_of_lt (Nat.zero_le _) within
  have small : size * index + offset < size * sectors := by
    have next := Nat.mul_le_mul_left size (Nat.succ_le_of_lt inside)
    rw [Nat.mul_succ] at next
    omega
  rw [Nat.add_assoc]
  refine ⟨?_, ?_, ?_⟩
  · rw [Nat.mul_add_div (by omega), Nat.div_eq_of_lt small, Nat.add_zero]
  · rw [Nat.mul_add_mod, Nat.mod_eq_of_lt small, Nat.mul_add_div positive, Nat.div_eq_of_lt within,
      Nat.add_zero]
  · rw [Nat.mul_assoc, Nat.mul_add_mod, Nat.mul_add_mod, Nat.mod_eq_of_lt within]

/-- The bytes of a sector of a cluster that a chain comes to. -/
theorem chainByte_eq (parameters : ¬ (fs.bpb.sectorsPerCluster = 0 ∨ fs.bpb.bytesPerSector = 0))
    {count index offset : Nat} (reached : walkFrom fs.link start count = some cluster)
    (inside : index < fs.bpb.sectorsPerCluster) (within : offset < fs.bpb.bytesPerSector) :
    fs.chainByte start (fs.bpb.bytesPerSector * fs.bpb.sectorsPerCluster * count +
        fs.bpb.bytesPerSector * index + offset) =
      (fs.readSector ((fs.clusterSector cluster + index) % 2 ^ 32)).map fun data => data offset := by
  obtain ⟨clusters, sectors, rest⟩ := place_parts count inside within
  rw [chainByte, if_neg parameters, clusters, sectors, rest, reached]
  rfl

/-- Copying the sectors of a cluster fills a buffer up to its end, the end of the cluster or a gap. -/
theorem readCluster_filled (parameters : ¬ (fs.bpb.sectorsPerCluster = 0 ∨ fs.bpb.bytesPerSector = 0))
    {count : Nat} (reached : walkFrom fs.link start count = some cluster) (bufferSize : Nat)
    {remaining index : Nat} (all : index + remaining = fs.bpb.sectorsPerCluster)
    (filled : fs.Filled start original (min bufferSize (fs.bpb.bytesPerSector *
      fs.bpb.sectorsPerCluster * count + fs.bpb.bytesPerSector * index)) buffer) :
    (∃ buffer', fs.readCluster (fs.clusterSector cluster) bufferSize remaining index
        (min bufferSize (fs.bpb.bytesPerSector * fs.bpb.sectorsPerCluster * count +
          fs.bpb.bytesPerSector * index)) buffer =
        (some (min bufferSize (fs.bpb.bytesPerSector * fs.bpb.sectorsPerCluster * (count + 1))),
          buffer') ∧
      fs.Filled start original (min bufferSize (fs.bpb.bytesPerSector * fs.bpb.sectorsPerCluster *
        (count + 1))) buffer') ∨
    ∃ buffer' place, fs.readCluster (fs.clusterSector cluster) bufferSize remaining index
        (min bufferSize (fs.bpb.bytesPerSector * fs.bpb.sectorsPerCluster * count +
          fs.bpb.bytesPerSector * index)) buffer = (none, buffer') ∧
      fs.Filled start original place buffer' ∧ place < bufferSize ∧
        fs.chainByte start place = none := by
  -- By induction on the sectors that are left.
  induction remaining generalizing index buffer with
  | zero =>
    obtain rfl : index = fs.bpb.sectorsPerCluster := all
    rw [← Nat.mul_succ] at filled ⊢
    exact Or.inl ⟨buffer, rfl, filled⟩
  | succ remaining ih =>
    have inside : index < fs.bpb.sectorsPerCluster := by omega
    have positive : 0 < fs.bpb.bytesPerSector := by omega
    generalize base : fs.bpb.bytesPerSector * fs.bpb.sectorsPerCluster * count +
      fs.bpb.bytesPerSector * index = before at filled ⊢
    have bytes : ∀ offset < fs.bpb.bytesPerSector, fs.chainByte start (before + offset) =
        (fs.readSector ((fs.clusterSector cluster + index) % 2 ^ 32)).map fun data => data offset := by
      intro offset within
      rw [← base]
      exact chainByte_eq parameters reached inside within
    rw [readCluster]
    by_cases more : min bufferSize before < bufferSize
    · have here : min bufferSize before = before := by omega
      rw [if_pos more]
      cases read : fs.readSector ((fs.clusterSector cluster + index) % 2 ^ 32) with
      | none =>
        -- The gap is at the start of this sector.
        refine Or.inr ⟨buffer, before, rfl, by rw [← here]; exact filled, by omega, ?_⟩
        have gap := bytes 0 positive
        rw [read, Nat.add_zero] at gap
        exact gap
      | some data =>
        rw [here] at filled ⊢
        have next : before + min (bufferSize - before) fs.bpb.bytesPerSector =
            min bufferSize (fs.bpb.bytesPerSector * fs.bpb.sectorsPerCluster * count +
              fs.bpb.bytesPerSector * (index + 1)) := by
          rw [Nat.mul_succ]
          omega
        have filled' : fs.Filled start original
            (before + min (bufferSize - before) fs.bpb.bytesPerSector)
            (putBytes buffer before (min (bufferSize - before) fs.bpb.bytesPerSector) data) := by
          constructor
          · intro place small
            rw [putBytes]
            split
            · have told := bytes (place - before) (by omega)
              rw [read, Nat.add_sub_cancel' (by omega)] at told
              exact told
            · exact filled.read place (by omega)
          · intro place large
            rw [putBytes, if_neg (by omega)]
            exact filled.rest place (by omega)
        rw [next] at filled'
        dsimp only
        rw [next]
        exact ih (by omega) filled'
    · -- The buffer is full already.
      rw [if_neg more]
      have full : min bufferSize before = bufferSize := by omega
      have full' : min bufferSize (fs.bpb.bytesPerSector * fs.bpb.sectorsPerCluster * (count + 1)) =
          bufferSize := by
        have fits : fs.bpb.bytesPerSector * index ≤ fs.bpb.bytesPerSector * fs.bpb.sectorsPerCluster :=
          Nat.mul_le_mul_left _ (Nat.le_of_lt inside)
        rw [Nat.mul_succ]
        omega
      rw [full] at filled ⊢
      rw [full']
      exact Or.inl ⟨buffer, rfl, filled⟩

/-- Reading along a chain fills a buffer up to its end or to the first place without a byte. -/
theorem readChain_filled (parameters : ¬ (fs.bpb.sectorsPerCluster = 0 ∨ fs.bpb.bytesPerSector = 0))
    (bufferSize steps : Nat) {count : Nat} (reached : walkFrom fs.link start count = some cluster)
    (filled : fs.Filled start original (min bufferSize (fs.bpb.bytesPerSector *
      fs.bpb.sectorsPerCluster * count)) buffer)
    (enough : bufferSize < min bufferSize (fs.bpb.bytesPerSector * fs.bpb.sectorsPerCluster * count) +
      steps) :
    ∃ place ≤ bufferSize, fs.Filled start original place (fs.readChain bufferSize steps cluster
        (min bufferSize (fs.bpb.bytesPerSector * fs.bpb.sectorsPerCluster * count)) buffer) ∧
      (place = bufferSize ∨ fs.chainByte start place = none) := by
  -- By induction on the rounds; the clusters before have been read.
  induction steps generalizing cluster count buffer with
  | zero => omega
  | succ steps ih =>
    have positive : 0 < fs.bpb.bytesPerSector * fs.bpb.sectorsPerCluster := by
      have sectors : 0 < fs.bpb.sectorsPerCluster := by omega
      have bytes : 0 < fs.bpb.bytesPerSector := by omega
      exact Nat.mul_pos bytes sectors
    rw [readChain]
    by_cases more : min bufferSize (fs.bpb.bytesPerSector * fs.bpb.sectorsPerCluster * count) <
        bufferSize
    · rw [if_pos more]
      have filled' := filled
      rw [← Nat.add_zero (fs.bpb.bytesPerSector * fs.bpb.sectorsPerCluster * count),
        ← Nat.mul_zero fs.bpb.bytesPerSector] at filled'
      have round := readCluster_filled parameters reached bufferSize (Nat.zero_add _) filled'
      rw [Nat.mul_zero, Nat.add_zero] at round
      rcases round with ⟨buffer', returned, done⟩ | ⟨buffer', place, returned, done, early, gap⟩
      · rw [returned]
        dsimp only
        by_cases full : bufferSize ≤
            min bufferSize (fs.bpb.bytesPerSector * fs.bpb.sectorsPerCluster * (count + 1))
        · rw [if_pos full]
          exact ⟨_, Nat.min_le_left _ _, done, Or.inl (by omega)⟩
        · rw [if_neg full]
          have here : min bufferSize (fs.bpb.bytesPerSector * fs.bpb.sectorsPerCluster * (count + 1)) =
              fs.bpb.bytesPerSector * fs.bpb.sectorsPerCluster * (count + 1) := by omega
          have onward : walkFrom fs.link start (count + 1) = fs.link cluster := by
            rw [walkFrom, reached]
            rfl
          -- Both marks leave no byte behind the last cluster.
          have gap : fs.link cluster = none → fs.chainByte start
              (min bufferSize (fs.bpb.bytesPerSector * fs.bpb.sectorsPerCluster * (count + 1))) =
                none := by
            intro last
            rw [here, chainByte, if_neg parameters, Nat.mul_div_cancel_left _ positive, onward, last]
            rfl
          split
          · rename_i last
            exact ⟨_, Nat.min_le_left _ _, done, Or.inr (gap (link_eq_none.mpr (Or.inl last)))⟩
          · split
            · rename_i bad
              exact ⟨_, Nat.min_le_left _ _, done, Or.inr (gap (link_eq_none.mpr (Or.inr bad)))⟩
            · rename_i inner good
              refine ih (onward.trans (link_eq_some.mpr ⟨inner, good, rfl⟩)) done ?_
              rw [Nat.mul_succ] at here ⊢
              omega
      · rw [returned]
        exact ⟨place, Nat.le_of_lt early, done, Or.inr gap⟩
    · rw [if_neg more]
      exact ⟨_, Nat.min_le_left _ _, filled, Or.inl (by omega)⟩

/-- Reading a file fills a buffer up to its end or to the first place of the chain without a byte. -/
theorem readFile_filled (fs : FileSystem) (start : Nat) (original : Buffer) (bufferSize : Nat) :
    ∃ place ≤ bufferSize, fs.Filled start original place (fs.readFile start original bufferSize) ∧
      (place = bufferSize ∨ fs.chainByte start place = none) := by
  rw [readFile]
  by_cases parameters : fs.bpb.sectorsPerCluster = 0 ∨ fs.bpb.bytesPerSector = 0
  · rw [if_pos parameters]
    refine ⟨0, Nat.zero_le _, ⟨fun place wrong => absurd wrong (Nat.not_lt_zero _), fun _ _ => rfl⟩,
      Or.inr ?_⟩
    rw [chainByte, if_pos parameters]
  · rw [if_neg parameters]
    have none : fs.Filled start original (min bufferSize (fs.bpb.bytesPerSector *
        fs.bpb.sectorsPerCluster * 0)) original := by
      rw [Nat.mul_zero, Nat.min_zero]
      exact ⟨fun place wrong => absurd wrong (Nat.not_lt_zero _), fun _ _ => rfl⟩
    have read := readChain_filled parameters bufferSize (bufferSize + 1)
      (show walkFrom fs.link start 0 = some start from rfl) none (by omega)
    rw [Nat.mul_zero, Nat.min_zero] at read
    exact read

/-- Reading depends on the bytes of the chain up to the end of the buffer or to the first gap. -/
theorem readFile_congr {other : FileSystem} {limit bufferSize : Nat}
    (same : ∀ place < limit, other.chainByte start place = fs.chainByte start place)
    (enough : bufferSize ≤ limit ∨ ∃ place ≤ limit, fs.chainByte start place = none ∧
      other.chainByte start place = none) (original : Buffer) :
    other.readFile start original bufferSize = fs.readFile start original bufferSize := by
  obtain ⟨count, few, filled, ended⟩ := fs.readFile_filled start original bufferSize
  obtain ⟨count', few', filled', ended'⟩ := other.readFile_filled start original bufferSize
  -- Neither run comes behind the limit.
  have within : ∀ place, place < count → place < limit := by
    intro place small
    rcases enough with fits | ⟨gap, low, none, -⟩
    · omega
    · by_contra behind
      have byte := filled.read gap (by omega)
      rw [none] at byte
      cases byte
  have within' : ∀ place, place < count' → place < limit := by
    intro place small
    rcases enough with fits | ⟨gap, low, -, none⟩
    · omega
    · by_contra behind
      have byte := filled'.read gap (by omega)
      rw [none] at byte
      cases byte
  have equal : count = count' := by
    rcases Nat.lt_trichotomy count count' with less | equal | more
    · rcases ended with full | gap
      · omega
      · have byte := filled'.read count less
        rw [same count (within' count less), gap] at byte
        cases byte
    · exact equal
    · rcases ended' with full | gap
      · omega
      · have byte := filled.read count' more
        rw [← same count' (within count' more), gap] at byte
        cases byte
  subst equal
  funext place
  by_cases inside : place < count
  · have byte := filled'.read place inside
    rw [same place (within place inside), filled.read place inside] at byte
    exact (Option.some.inj byte).symm
  · rw [filled'.rest place (by omega), filled.rest place (by omega)]

end Reading

section Lookups

variable {fs other : FileSystem}

/-- Scans that read the same sectors of a cluster say the same. -/
theorem scanSectors_congr {α : Type} {find : Nat → Buffer → Option α} {failed : α}
    {sector remaining index : Nat}
    (same : ∀ step, index ≤ step → step < index + remaining →
      other.readSector ((sector + step) % 2 ^ 32) = fs.readSector ((sector + step) % 2 ^ 32)) :
    other.scanSectors find failed sector remaining index =
      fs.scanSectors find failed sector remaining index := by
  -- By induction on the sectors that are left.
  induction remaining generalizing index with
  | zero => rfl
  | succ remaining ih =>
    rw [scanSectors, scanSectors, same index (Nat.le_refl _) (by omega)]
    cases fs.readSector ((sector + index) % 2 ^ 32) with
    | none => rfl
    | some data =>
      dsimp only
      cases find ((sector + index) % 2 ^ 32) data with
      | some answer => rfl
      | none => exact ih fun step low high => same step (by omega) (by omega)

/-- Scans that read the same sectors and entries along a chain say the same. -/
theorem scanChain_congr {α : Type} {find : Nat → Buffer → Option α} {failed ended : α}
    (sectors : other.bpb.sectorsPerCluster = fs.bpb.sectorsPerCluster)
    (first : ∀ cluster, other.clusterSector cluster = fs.clusterSector cluster)
    (table : ∀ cluster, other.readFatEntry cluster = fs.readFatEntry cluster) (steps : Nat)
    {start : Nat} (same : ∀ place cluster, walkFrom fs.link start place = some cluster →
      ∀ sector, fs.SectorOf cluster sector → other.readSector sector = fs.readSector sector) :
    other.scanChain find failed ended steps start = fs.scanChain find failed ended steps start := by
  -- By induction on the steps.
  induction steps generalizing start with
  | zero => rfl
  | succ steps ih =>
    rw [scanChain, scanChain, first, sectors, table, scanSectors_congr fun step _ high =>
      same 0 start rfl _ ⟨step, by omega, rfl⟩]
    split
    · rfl
    · dsimp only
      split
      · rfl
      · split
        · rfl
        · rename_i inner good
          refine ih fun place cluster reached => same (1 + place) cluster ?_
          have leads : fs.link start = some (fs.readFatEntry start) := link_eq_some.mpr ⟨inner, good, rfl⟩
          rw [walkFrom_add, walkFrom_one, leads]
          exact reached

variable {inside : Nat → Prop}

/-- Resolving components goes the same way where lookups do. -/
theorem findComponents_congr
    (same : ∀ directory, inside directory → ∀ name,
      other.findFileInDirectory directory name = fs.findFileInDirectory directory name)
    (closed : ∀ directory, inside directory → ∀ name found,
      fs.findFileInDirectory directory name = .ok (some found) →
        isDirectory found.attributes = true → inside found.cluster)
    {start : Nat} (here : inside start) (names : List Name) :
    other.findComponents start names = fs.findComponents start names := by
  -- By induction on the components.
  induction names generalizing start with
  | nil => rfl
  | cons dirname rest ih =>
    cases rest with
    | nil =>
      rw [findComponents, findComponents, same start here]
    | cons second rest =>
      rw [findComponents, findComponents]
      · cases copied : copyPath dirname with
        | error fault => rw [Run.error_bind, Run.error_bind]
        | ok copy =>
          rw [Run.ok_bind, Run.ok_bind, same start here]
          cases looked : fs.findFileInDirectory start copy with
          | error fault => rw [Run.error_bind, Run.error_bind]
          | ok answer =>
            cases answer with
            | none => simp only [Run.ok_bind]
            | some middle =>
              simp only [Run.ok_bind]
              cases kind : isDirectory middle.attributes with
              | false => simp only [Bool.not_false, if_true]
              | true => rw [ih (closed start here copy middle looked kind)]
      · simp
      · simp

/-- What resolves to a directory lies where lookups lead. -/
theorem findComponents_inside
    (closed : ∀ directory, inside directory → ∀ name found,
      fs.findFileInDirectory directory name = .ok (some found) →
        isDirectory found.attributes = true → inside found.cluster)
    {start : Nat} (here : inside start) {names : List Name} {found : Found}
    (resolved : fs.findComponents start names = .ok (some found))
    (kind : isDirectory found.attributes = true) : inside found.cluster := by
  -- By induction on the components.
  induction names generalizing start with
  | nil =>
    obtain rfl := Option.some.inj (Except.ok.inj resolved)
    exact here
  | cons dirname rest ih =>
    cases rest with
    | nil =>
      rw [findComponents] at resolved
      split at resolved
      · obtain rfl := Option.some.inj (Except.ok.inj resolved)
        exact here
      · exact closed start here dirname found resolved kind
    | cons second rest =>
      obtain ⟨middle, looked, kind', ⟨-, rfl⟩ | further⟩ := findComponents_cons resolved
      · exact closed start here dirname found looked kind
      · exact ih (closed start here dirname middle looked kind') further

/-- Looking names up does not depend on the current directory. -/
theorem findFileInDirectory_movedTo (fs : FileSystem) (cluster : Nat) (path dirName : Name)
    (directory : Nat) (name : Name) :
    (fs.movedTo cluster path dirName).findFileInDirectory directory name =
      fs.findFileInDirectory directory name := by
  have slots : (fs.movedTo cluster path dirName).slotsPerSector = fs.slotsPerSector := rfl
  have sectors : (fs.movedTo cluster path dirName).bpb.sectorsPerCluster = fs.bpb.sectorsPerCluster :=
    rfl
  have first : ∀ other, (fs.movedTo cluster path dirName).clusterSector other = fs.clusterSector other :=
    fun _ => rfl
  have table : ∀ other, (fs.movedTo cluster path dirName).readFatEntry other = fs.readFatEntry other :=
    fun _ => rfl
  rw [findFileInDirectory, findFileInDirectory, slots]
  exact scanChain_congr sectors first table walkSteps fun _ _ _ sector _ =>
    show (fs.movedTo cluster path dirName).readSector sector = fs.readSector sector from rfl

/-- Nor does resolving components. -/
theorem findComponents_movedTo (fs : FileSystem) (cluster : Nat) (path dirName : Name) (start : Nat)
    (names : List Name) :
    (fs.movedTo cluster path dirName).findComponents start names = fs.findComponents start names :=
  @findComponents_congr fs (fs.movedTo cluster path dirName) (fun _ => True)
    (fun directory _ name => findFileInDirectory_movedTo fs cluster path dirName directory name)
    (fun _ _ _ _ _ _ => trivial) start trivial names

end Lookups

/-- A cluster that lookups may start at: of the root, the current directory, or one found in another. -/
inductive HeadsDirectory (fs : FileSystem) : Nat → Prop where
  /-- The root. -/
  | root : HeadsDirectory fs rootCluster
  /-- The current directory. -/
  | current : HeadsDirectory fs fs.currentDirectoryCluster
  /-- A directory found in another one. -/
  | child {directory : Nat} {name : Name} {found : Found} : HeadsDirectory fs directory →
    fs.findFileInDirectory directory name = .ok (some found) →
    isDirectory found.attributes = true → HeadsDirectory fs found.cluster

/-- Two volumes agree on the table, on all directories, and on the first bytes of a chain. -/
structure AgreesOn (fs other : FileSystem) (startCluster size : Nat) : Prop where
  /-- At most the bytes of the disk differ. -/
  same : other = { fs with disk := { fs.disk with bytes := other.disk.bytes } }
  /-- The entries of the table are the same. -/
  table : ∀ cluster, other.readFatEntry cluster = fs.readFatEntry cluster
  /-- The sectors of the directories are the same. -/
  directories : ∀ directory, fs.HeadsDirectory directory → ∀ place cluster,
    walkFrom fs.link directory place = some cluster → ∀ sector, fs.SectorOf cluster sector →
      other.readSector sector = fs.readSector sector
  /-- The first bytes of the chain are the same. -/
  contents : ∀ place < size, other.chainByte startCluster place = fs.chainByte startCluster place

/-- A path leads to an entry in a directory that can be entered. -/
def Opens (fs : FileSystem) (path : Name) (found : Found) : Prop :=
  ∃ dirPath filename entered, fs.splitPath path = .ok (dirPath, filename) ∧
    fs.enterDirectory dirPath = .ok (some entered) ∧ entered.findFile filename = .ok (some found)

/-- Reading a path leaves the same buffer on volumes that agree on the file, its rest untouched. -/
def ExposesOnly (fs : FileSystem) (path : Name) (found : Found) (bufferSize : Nat) : Prop :=
  ∀ other, fs.AgreesOn other found.cluster found.size → ∀ buffer : Buffer, ∃ read after after',
    fs.readFileByPath path buffer bufferSize = .ok ((true, read), after) ∧
    other.readFileByPath path buffer bufferSize = .ok ((true, read), after') ∧
    ∀ place, found.size ≤ place → read place = buffer place

section Agreement

variable {fs other : FileSystem} {startCluster size : Nat}

/-- The table leads the same way. -/
theorem AgreesOn.link (agrees : fs.AgreesOn other startCluster size) : other.link = fs.link := by
  funext cluster
  rw [FileSystem.link, agrees.table, FileSystem.link]

/-- The same sectors can be read. -/
theorem AgreesOn.readSector (agrees : fs.AgreesOn other startCluster size) (sector : Nat) :
    (other.readSector sector).isSome = (fs.readSector sector).isSome := by
  rw [agrees.same]
  simp only [FileSystem.readSector, diskRead, Disk.readSectors]
  split
  · rfl
  · split
    · rfl
    · rfl

/-- A place of a chain has a byte on both volumes or on none. -/
theorem AgreesOn.chainByte (agrees : fs.AgreesOn other startCluster size) (start place : Nat) :
    (other.chainByte start place).isSome = (fs.chainByte start place).isSome := by
  have geometry : other.bpb = fs.bpb ∧ other.firstDataSector = fs.firstDataSector := by
    rw [agrees.same]
    exact ⟨rfl, rfl⟩
  rw [FileSystem.chainByte, FileSystem.chainByte, agrees.link, geometry.1]
  split
  · rfl
  · cases walkFrom fs.link start (place / (fs.bpb.bytesPerSector * fs.bpb.sectorsPerCluster)) with
    | none => simp only [Option.bind_none]
    | some cluster =>
      have number : other.clusterSector cluster = fs.clusterSector cluster := by
        rw [clusterSector, clusterSector, geometry.1, geometry.2]
      simp only [Option.bind_some, Option.isSome_map, number, agrees.readSector]

/-- Lookups in directories say the same. -/
theorem AgreesOn.findFileInDirectory (agrees : fs.AgreesOn other startCluster size) {directory : Nat}
    (heads : fs.HeadsDirectory directory) (name : Name) :
    other.findFileInDirectory directory name = fs.findFileInDirectory directory name := by
  have geometry : other.bpb = fs.bpb ∧ other.firstDataSector = fs.firstDataSector := by
    rw [agrees.same]
    exact ⟨rfl, rfl⟩
  rw [FileSystem.findFileInDirectory, FileSystem.findFileInDirectory, slotsPerSector, slotsPerSector,
    geometry.1]
  refine scanChain_congr (congrArg Bpb.sectorsPerCluster geometry.1) (fun cluster => ?_) agrees.table
    walkSteps (agrees.directories directory heads)
  rw [clusterSector, clusterSector, geometry.1, geometry.2]

/-- Where a path starts is a directory. -/
theorem heads_startOf (fs : FileSystem) (name : Name) : fs.HeadsDirectory (fs.startOf name).1 := by
  cases name with
  | nil => exact .current
  | cons byte rest =>
    rw [startOf]
    split
    · exact .root
    · exact .current

/-- Paths resolve to the same. -/
theorem AgreesOn.findFile (agrees : fs.AgreesOn other startCluster size) (name : Name) :
    other.findFile name = fs.findFile name := by
  have starts : other.startOf name = fs.startOf name := by
    rw [agrees.same]
    rfl
  rw [FileSystem.findFile, FileSystem.findFile, starts]
  exact findComponents_congr (fun directory heads name => agrees.findFileInDirectory heads name)
    (fun directory heads name found looked kind => .child heads looked kind) (fs.heads_startOf name) _

/-- Entering a directory makes it the current one, on both volumes. -/
theorem AgreesOn.enterDirectory (agrees : fs.AgreesOn other startCluster size) {dirPath : Name}
    {entered : FileSystem} (returned : fs.enterDirectory dirPath = .ok (some entered)) :
    ∃ cluster path dirName, fs.HeadsDirectory cluster ∧ entered = fs.movedTo cluster path dirName ∧
      other.enterDirectory dirPath = .ok (some (other.movedTo cluster path dirName)) := by
  rw [FileSystem.enterDirectory] at returned ⊢
  split at returned
  · rename_i atRoot
    obtain rfl := Option.some.inj (Except.ok.inj returned)
    refine ⟨fs.currentDirectoryCluster, fs.currentPath, fs.currentDirName, .current, rfl, ?_⟩
    rw [if_pos atRoot]
    have fields : other.currentDirectoryCluster = fs.currentDirectoryCluster ∧
        other.currentPath = fs.currentPath ∧ other.currentDirName = fs.currentDirName := by
      rw [agrees.same]
      exact ⟨rfl, rfl, rfl⟩
    rw [← fields.1, ← fields.2.1, ← fields.2.2]
    rfl
  · rename_i deeper
    rw [if_neg deeper, agrees.findFile]
    obtain ⟨answer, resolved, further⟩ := Run.bind_eq_ok.mp returned
    rw [resolved, Run.ok_bind]
    cases answer with
    | none => cases further
    | some found =>
      dsimp only at further ⊢
      cases kind : isDirectory found.attributes with
      | false =>
        rw [kind] at further
        cases further
      | true =>
        simp only [kind, Bool.not_true, Bool.false_eq_true, if_false, Run.pure_eq] at further ⊢
        obtain rfl := Option.some.inj (Except.ok.inj further)
        refine ⟨found.cluster, _, _, ?_, rfl, rfl⟩
        exact findComponents_inside (fun directory heads name found looked kind =>
          .child heads looked kind) (fs.heads_startOf dirPath) resolved kind

end Agreement

section MovedTo

variable {fs other : FileSystem} {startCluster size cluster : Nat}

/-- Directories of a volume do not depend on which of them is the current one. -/
theorem HeadsDirectory.of_movedTo {path dirName : Name} (heads : fs.HeadsDirectory cluster)
    {directory : Nat} (heads' : (fs.movedTo cluster path dirName).HeadsDirectory directory) :
    fs.HeadsDirectory directory := by
  -- By induction on how the directory is found.
  induction heads' with
  | root => exact .root
  | current => exact heads
  | child _ looked kind ih =>
    rw [findFileInDirectory_movedTo] at looked
    exact .child ih looked kind

/-- Volumes that agree go on agreeing when the same directory is entered. -/
theorem AgreesOn.movedTo (agrees : fs.AgreesOn other startCluster size)
    (heads : fs.HeadsDirectory cluster) (path dirName : Name) :
    (fs.movedTo cluster path dirName).AgreesOn (other.movedTo cluster path dirName) startCluster
      size := by
  refine ⟨?_, agrees.table, fun directory heads' place cluster' reached sector own =>
    agrees.directories directory (heads.of_movedTo heads') place cluster' reached sector own,
    agrees.contents⟩
  rw [agrees.same]
  rfl

/-- Reading does not depend on the current directory. -/
theorem readFile_movedTo (fs : FileSystem) (cluster : Nat) (path dirName : Name) (start : Nat)
    (buffer : Buffer) (bufferSize : Nat) :
    (fs.movedTo cluster path dirName).readFile start buffer bufferSize =
      fs.readFile start buffer bufferSize := by
  have same : ∀ place, (fs.movedTo cluster path dirName).chainByte start place =
      fs.chainByte start place := fun _ => rfl
  exact readFile_congr (fun place _ => same place) (Or.inl (Nat.le_refl bufferSize)) buffer

/-- A path that leads to an entry reads the chain of that entry, on all volumes that agree. -/
theorem AgreesOn.readFileByPath {path : Name} {found : Found}
    (agrees : fs.AgreesOn other startCluster size) (opens : fs.Opens path found) (buffer : Buffer)
    (bufferSize : Nat) : ∃ after, other.readFileByPath path buffer bufferSize =
      .ok ((true, other.readFile found.cluster buffer bufferSize), after) := by
  obtain ⟨dirPath, filename, entered, split, enter, resolved⟩ := opens
  obtain ⟨cluster, here, dirName, heads, rfl, enter'⟩ := agrees.enterDirectory enter
  have split' : other.splitPath path = .ok (dirPath, filename) := by
    rw [← split, agrees.same]
    rfl
  rw [← (agrees.movedTo heads here dirName).findFile] at resolved
  refine ⟨(other.movedTo cluster here dirName).restoreDirectory other, ?_⟩
  rw [FileSystem.readFileByPath, inDirectory, split', Run.ok_bind]
  dsimp only
  rw [enter', Run.ok_bind]
  dsimp only
  rw [resolved, Run.ok_bind]
  simp only [readFile_movedTo, Run.pure_eq, Run.ok_bind]

/-- A volume agrees with itself. -/
theorem AgreesOn.refl (fs : FileSystem) (startCluster size : Nat) : fs.AgreesOn fs startCluster size :=
  ⟨rfl, fun _ => rfl, fun _ _ _ _ _ _ _ => rfl, fun _ _ => rfl⟩

end MovedTo

/--
Reading a path exposes nothing but the contents of the file exactly if the buffer is no longer than
the recorded size, or the chain ends or cannot be read within that size.
-/
theorem readFileByPath_exposes_only_iff (fs : FileSystem) (path : Name) (found : Found)
    (bufferSize : Nat) (opens : fs.Opens path found) :
    fs.ExposesOnly path found bufferSize ↔ bufferSize ≤ found.size ∨
      ∃ place ≤ found.size, fs.chainByte found.cluster place = none := by
  constructor
  · intro only
    by_contra beyond
    obtain ⟨long, through⟩ := not_or.mp beyond
    have reads : ∀ place ≤ found.size, ∃ byte, fs.chainByte found.cluster place = some byte := by
      intro place inside
      cases told : fs.chainByte found.cluster place with
      | some byte => exact ⟨byte, rfl⟩
      | none => exact absurd ⟨place, inside, told⟩ through
    -- A buffer whose byte behind the recorded size differs from the chain's does not keep it.
    obtain ⟨byte, behind⟩ := reads found.size (Nat.le_refl _)
    obtain ⟨read, after, -, returned, -, untouched⟩ :=
      only fs (AgreesOn.refl fs _ _) fun _ => byte + 1
    obtain ⟨after', returned'⟩ :=
      (AgreesOn.refl fs 0 0).readFileByPath opens (fun _ => byte + 1) bufferSize
    rw [returned'] at returned
    obtain ⟨told, -⟩ := Prod.mk.inj (Except.ok.inj returned)
    obtain ⟨-, rfl⟩ := Prod.mk.inj told
    have kept := untouched found.size (Nat.le_refl _)
    obtain ⟨count, few, filled, ended⟩ :=
      fs.readFile_filled found.cluster (fun _ => byte + 1) bufferSize
    have inside : found.size < count := by
      rcases ended with full | gap
      · omega
      · by_contra early
        obtain ⟨byte', some⟩ := reads count (by omega)
        rw [gap] at some
        cases some
    have told := filled.read found.size inside
    rw [behind, kept] at told
    exact absurd (Option.some.inj told) (by simp)
  · intro enough other agrees buffer
    obtain ⟨after, returned⟩ := (AgreesOn.refl fs 0 0).readFileByPath opens buffer bufferSize
    obtain ⟨after', returned'⟩ := agrees.readFileByPath opens buffer bufferSize
    have gaps : ∀ place, fs.chainByte found.cluster place = none →
        other.chainByte found.cluster place = none := by
      intro place gap
      have same := agrees.chainByte found.cluster place
      rw [gap, Option.isSome_none] at same
      exact Option.isSome_eq_false_iff.mp same |> Option.isNone_iff_eq_none.mp
    have equal := readFile_congr agrees.contents (enough.imp_right fun ⟨place, inside, gap⟩ =>
      ⟨place, inside, gap, gaps place gap⟩) buffer
    rw [equal] at returned'
    refine ⟨_, after, after', returned, returned', fun place behind => ?_⟩
    obtain ⟨count, few, filled, -⟩ := fs.readFile_filled found.cluster buffer bufferSize
    refine filled.rest place ?_
    rcases enough with fits | ⟨gap, inside, none⟩
    · omega
    · by_contra more
      have byte := filled.read gap (by omega)
      rw [none] at byte
      cases byte

/-- A root directory with a file of a recorded size in cluster three, whose sector is full of bytes. -/
def recordedFile (size : Nat) : Buffer :=
  withLink 2 endMark <| withLink 3 endMark <|
    putBytes (putBytes (fun _ => 0) (512 * 2) slotSize (entryBytes [0x41] 0x20 3 size)) (512 * 3) 512
      fun _ => 0x53

/-- A file that fills its only cluster exposes its contents only, whatever the buffer. -/
theorem readFileByPath_exposes_only_iff_full :
    (smallVolume (recordedFile 512) 2).ExposesOnly [0x41] ⟨3, 512, 0x20, some (2, 0)⟩ 1024 := by
  have opens : (smallVolume (recordedFile 512) 2).Opens [0x41] ⟨3, 512, 0x20, some (2, 0)⟩ :=
    ⟨[slash], [0x41], smallVolume (recordedFile 512) 2, by decide +kernel, rfl, by decide +kernel⟩
  exact (readFileByPath_exposes_only_iff _ [0x41] _ 1024 opens).mpr
    (Or.inr ⟨512, Nat.le_refl _, by decide +kernel⟩)

/-- A file of recorded size zero exposes what its cluster held before. -/
theorem readFileByPath_exposes_remains :
    (smallVolume (recordedFile 0) 2).Accepted ∧ (smallVolume (recordedFile 0) 2).Layout ∧
      (smallVolume (recordedFile 0) 2).Reliable ∧
      (smallVolume (recordedFile 0) 2).Opens [0x41] ⟨3, 0, 0x20, some (2, 0)⟩ ∧
      (smallVolume (recordedFile 0) 2).readFile 3 (fun _ => 0) 1 0 = 0x53 ∧
      ¬ (smallVolume (recordedFile 0) 2).ExposesOnly [0x41] ⟨3, 0, 0x20, some (2, 0)⟩ 1 := by
  have opens : (smallVolume (recordedFile 0) 2).Opens [0x41] ⟨3, 0, 0x20, some (2, 0)⟩ :=
    ⟨[slash], [0x41], smallVolume (recordedFile 0) 2, by decide +kernel, rfl, by decide +kernel⟩
  have byte : (smallVolume (recordedFile 0) 2).readFile 3 (fun _ => 0) 1 0 = 0x53 := by decide +kernel
  refine ⟨smallVolume_accepted _ 2, smallVolume_layout _ 2, smallVolume_reliable _ 2, opens, byte,
    fun only => ?_⟩
  obtain ⟨read, after, -, returned, -, untouched⟩ := only _ (AgreesOn.refl _ _ _) fun _ => 0
  obtain ⟨after', returned'⟩ := (AgreesOn.refl _ 0 0).readFileByPath opens (fun _ => 0) 1
  rw [returned'] at returned
  obtain ⟨told, -⟩ := Prod.mk.inj (Except.ok.inj returned)
  obtain ⟨-, rfl⟩ := Prod.mk.inj told
  have kept := untouched 0 (Nat.le_refl 0)
  rw [byte] at kept
  exact absurd kept (by decide)

end FileSystem

end Pocky
