import Pocky.Drivers.AtaLaws
import Pocky.Lib.Simulation

/-! What sequences of transfers do to a drive, and the disk that the file system sees. -/

namespace Pocky

/-- The calls of the driver. -/
inductive AtaCall where
  /-- Reading sectors into a buffer. -/
  | read (lba : Nat) (sectors : UInt8) (buffer : Buffer)
  /-- Writing sectors from a buffer. -/
  | write (lba : Nat) (sectors : UInt8) (data : Buffer)

/-- What the calls return. -/
inductive AtaAnswer where
  /-- Whether the driver succeeded, and the buffer. -/
  | read (told : Bool) (buffer : Buffer)
  /-- Whether the driver succeeded. -/
  | wrote (told : Bool)

/-- What a drive with these bytes may answer, and its bytes then; a quick one lets every call succeed. -/
inductive AtaDrive.May (drive : AtaDrive) (quick : Prop) (bytes : Buffer) :
    AtaCall → AtaAnswer → Buffer → Prop where
  /-- The first of the sectors are in the buffer, or junk from a bad sector on. -/
  | read {lba done : Nat} {sectors : UInt8} {buffer : Buffer} {told : Bool} (most : done ≤ sectors.toNat)
    (whole : told = true → done = sectors.toNat) (prompt : quick → told = true) :
    May drive quick bytes (.read lba sectors buffer)
      (.read told (putBytes buffer 0 (blockSize * done) (drive.shown bytes (ataSector lba)))) bytes
  /-- The first of the sectors are on the drive, but none from a bad sector on. -/
  | write {lba done : Nat} {sectors : UInt8} {data : Buffer} {told : Bool} (most : done ≤ sectors.toNat)
    (whole : told = true → done = sectors.toNat) (prompt : quick → told = true) :
    May drive quick bytes (.write lba sectors data) (.wrote told)
      (drive.stored bytes (ataSector lba) done data)

/-- What a drive may answer if less is known about it. -/
theorem AtaDrive.May.mono {drive : AtaDrive} {quick quick' : Prop} {bytes bytes' : Buffer} {call : AtaCall}
    {answer : AtaAnswer} (may : drive.May quick bytes call answer bytes') (less : quick' → quick) :
    drive.May quick' bytes call answer bytes' := by
  cases may with
  | read most whole prompt => exact .read most whole fun known => prompt (less known)
  | write most whole prompt => exact .write most whole fun known => prompt (less known)

namespace CATADriver

/-- What the driver does for a call. -/
def perform (drive : AtaDrive) (driver : CATADriver) : AtaCall → Except Empty (AtaAnswer × CATADriver)
  | .read lba sectors buffer =>
    let ((told, buffer), driver) := driver.readSectors drive lba sectors buffer
    .ok (.read told buffer, driver)
  | .write lba sectors data =>
    let (told, driver) := driver.writeSectors drive lba sectors data
    .ok (.wrote told, driver)

/-- One call is answered as the drive may answer it, and a quick drive stays quick. -/
theorem perform_may (drive : AtaDrive) (driver : CATADriver) (call : AtaCall) :
    ∃ answer next, driver.perform drive call = .ok (answer, next) ∧
      drive.May (Quick drive driver) driver.device.bytes call answer next.device.bytes ∧
      (Quick drive driver → Quick drive next) := by
  cases call with
  | read lba sectors buffer =>
    obtain ⟨done, most, told, next, answered, whole, same, prompt⟩ :=
      readSectors_reads drive driver lba sectors buffer
    refine ⟨_, next, by rw [perform, answered], ?_, fun quick => (prompt quick).2⟩
    rw [same]
    exact .read most whole fun quick => (prompt quick).1
  | write lba sectors data =>
    obtain ⟨done, most, told, next, answered, whole, same, prompt⟩ :=
      writeSectors_writes drive driver lba sectors data
    refine ⟨_, next, by rw [perform, answered], ?_, fun quick => (prompt quick).2⟩
    rw [same]
    exact .write most whole fun quick => (prompt quick).1

/-- Every sequence of reads and writes is answered as the drive may answer it: whenever the driver
reports success, every sector has been transferred, up to the first bad one, from which on the driver
fetches junk and stores nothing without noticing; a sector number stands for its lowest 28 bits, and
no other sector changes. If the drive is quick, every call reports success. -/
theorem driver_serves_drive (drive : AtaDrive) (driver : CATADriver) (calls : List AtaCall) :
    Simulation.Follows (perform drive) (fun _ bytes => drive.May (Quick drive driver) bytes) driver
      driver.device.bytes calls := by
  have step : ∀ (before : CATADriver) (bytes : Buffer) (call : AtaCall),
      (before.device.bytes = bytes ∧ (Quick drive driver → Quick drive before)) → True →
        ∃ answer next bytes', before.perform drive call = .ok (answer, next) ∧
          drive.May (Quick drive driver) bytes call answer bytes' ∧
          next.device.bytes = bytes' ∧ (Quick drive driver → Quick drive next) := by
    rintro before bytes call ⟨rfl, quick⟩ -
    obtain ⟨answer, next, performed, may, stays⟩ := perform_may drive before call
    exact ⟨answer, next, _, performed, may.mono quick, rfl, fun first => stays (quick first)⟩
  exact Simulation.follows_of_step step (fun _ _ => trivial) ⟨rfl, id⟩

end CATADriver

/-- What the disk of the file system does for a call. -/
def Disk.transfer (disk : Disk) : AtaCall → AtaAnswer × Disk
  | .read lba sectors buffer =>
    match disk.readSectors lba sectors.toNat with
    | some data => (.read true (putBytes buffer 0 (blockSize * sectors.toNat) data), disk)
    | none => (.read false buffer, disk)
  | .write lba sectors data =>
    let (told, disk) := disk.writeSectors lba data sectors.toNat
    (.wrote told, disk)

/-- The sectors of a call lie below a limit. -/
def AtaCall.Below (limit : Nat) : AtaCall → Prop
  | .read lba sectors _ | .write lba sectors _ => lba + sectors.toNat ≤ limit

namespace Disk

/-- A disk that refuses no transfer. -/
def Willing (disk : Disk) : Prop :=
  (∀ clock lba, disk.readOk clock lba = true) ∧ ∀ clock, disk.writeOk clock = true

/-- Everything can be read from such a disk. -/
theorem readSectors_willing {disk : Disk} (willing : disk.Willing) (lba count : Nat) :
    disk.readSectors lba count = some fun offset =>
      if offset < blockSize * count then disk.bytes (blockSize * lba + offset) else 0 := by
  rw [readSectors, if_pos]
  exact List.all_eq_true.mpr fun block _ => willing.1 _ _

/-- Everything can be written to such a disk. -/
theorem writeSectors_willing {disk : Disk} (willing : disk.Willing) (lba count : Nat) (data : Buffer) :
    disk.writeSectors lba data count =
      (true, { disk with
        bytes := putBytes disk.bytes (blockSize * lba) (blockSize * count) data
        clock := disk.clock + count }) := by
  -- By induction on the blocks, with the disk they find.
  induction count generalizing disk lba data with
  | zero => rw [writeSectors, Nat.mul_zero, putBytes_none, Nat.add_zero]
  | succ count ih =>
    have behind := putBytes_append disk.bytes data (blockSize * lba) blockSize (blockSize * count)
    have willing' : Willing
        { disk with bytes := putBlock disk.bytes lba data, clock := disk.clock + 1 } := willing
    have shifted : ∀ offset, data (offset + blockSize) = data (blockSize + offset) :=
      fun offset => congrArg data (Nat.add_comm _ _)
    rw [writeSectors, if_pos (willing.2 _), ih willing', funext shifted, Nat.mul_succ, Nat.mul_succ,
      Nat.add_comm (blockSize * count) blockSize, ← behind, Nat.add_assoc, Nat.add_comm 1 count]
    rfl

end Disk

namespace AtaDrive

variable {drive : AtaDrive} {start count : Nat}

/-- Sectors that are good are shown. -/
theorem shown_clear (good : drive.clear start count = true) (bytes buffer : Buffer) :
    putBytes buffer 0 (blockSize * count) (drive.shown bytes start) =
      putBytes buffer 0 (blockSize * count) fun offset => bytes (blockSize * start + offset) := by
  refine putBytes_congr fun offset inside => ?_
  have early : offset / blockSize + 1 ≤ count := by
    rw [blockSize] at inside ⊢
    omega
  rw [shown, if_pos (clear_of_le early good)]

/-- Sectors that are good are stored. -/
theorem stored_clear (good : drive.clear start count = true) (bytes data : Buffer) :
    drive.stored bytes start count data = putBytes bytes (blockSize * start) (blockSize * count) data := by
  funext addr
  rw [stored, putBytes]
  refine if_congr ⟨?_, ?_⟩ rfl rfl
  · rintro ⟨low, high, -⟩
    exact ⟨low, by rwa [← Nat.mul_add]⟩
  · rintro ⟨low, high⟩
    rw [← Nat.mul_add] at high
    have early : addr / blockSize - start + 1 ≤ count := by
      rw [blockSize] at low high ⊢
      omega
    exact ⟨low, high, clear_of_le early good⟩

/-- Sectors below a limit are named by the registers, and are good. -/
theorem names_below {limit lba : Nat} (good : ∀ sector < limit, drive.bad sector = false)
    (numbered : limit ≤ 2 ^ 28) (below : lba + count ≤ limit) :
    drive.clear (ataSector lba) count = true ∧ (0 < count → ataSector lba = lba) := by
  have named : 0 < count → ataSector lba = lba := fun more => Nat.mod_eq_of_lt (by omega)
  refine ⟨List.all_eq_true.mpr fun index member => ?_, named⟩
  rw [List.mem_range] at member
  rw [named (by omega), good _ (by omega)]
  rfl

end AtaDrive

namespace CATADriver

/-- A driver stands for a disk if it talks to a quick drive with the disk's bytes. -/
def ServesDisk (drive : AtaDrive) (driver : CATADriver) (disk : Disk) : Prop :=
  Quick drive driver ∧ disk.Willing ∧ disk.bytes = driver.device.bytes

variable {drive : AtaDrive} {limit : Nat}

/-- One transfer of good sectors is one of the disk. -/
theorem perform_transfer (good : ∀ sector < limit, drive.bad sector = false) (numbered : limit ≤ 2 ^ 28) :
    Simulation.Step (perform drive) Disk.transfer (fun _ call => call.Below limit) (fun _ => False)
      (ServesDisk drive) := by
  rintro driver disk call ⟨quick, willing, same⟩ below
  cases call with
  | read lba sectors buffer =>
    obtain ⟨done, -, told, next, answered, whole, still, prompt⟩ :=
      readSectors_reads drive driver lba sectors buffer
    obtain ⟨rfl, quick'⟩ := prompt quick
    obtain rfl := whole rfl
    obtain ⟨clear, named⟩ := AtaDrive.names_below good numbered below
    rw [perform, answered, Disk.transfer, Disk.readSectors_willing willing]
    refine ⟨?_, quick', willing, same.trans still.symm⟩
    dsimp only
    rw [AtaDrive.shown_clear clear, same]
    refine congrArg _ (putBytes_congr fun offset inside => ?_)
    have some : 0 < sectors.toNat := by
      by_contra none
      rw [Nat.eq_zero_of_not_pos none] at inside
      cases inside
    rw [if_pos inside, named some]
  | write lba sectors data =>
    obtain ⟨done, -, told, next, answered, whole, stored, prompt⟩ :=
      writeSectors_writes drive driver lba sectors data
    obtain ⟨rfl, quick'⟩ := prompt quick
    obtain rfl := whole rfl
    obtain ⟨clear, named⟩ := AtaDrive.names_below good numbered below
    rw [perform, answered, Disk.transfer, Disk.writeSectors_willing willing]
    refine ⟨rfl, quick', willing, ?_⟩
    rw [stored, AtaDrive.stored_clear clear, ← same]
    dsimp only
    rcases Nat.eq_zero_or_pos sectors.toNat with none | some
    · rw [none, Nat.mul_zero, putBytes_none, putBytes_none]
    · rw [named some]

/-- Below a limit that 28 bits can name, where every sector is good, the driver of a quick drive gives
the file system its disk: every sequence of reads and writes has the answers of a disk that refuses no
transfer, and leaves the drive with that disk's bytes. -/
theorem driver_serves_disk (good : ∀ sector < limit, drive.bad sector = false) (numbered : limit ≤ 2 ^ 28)
    {driver : CATADriver} (quick : Quick drive driver) {disk : Disk} (willing : disk.Willing)
    (same : disk.bytes = driver.device.bytes) {calls : List AtaCall}
    (below : ∀ call ∈ calls, call.Below limit) :
    ∃ last, Simulation.run (perform drive) driver calls =
        .ok ((Simulation.specRun Disk.transfer disk calls).1, last) ∧
      last.device.bytes = (Simulation.specRun Disk.transfer disk calls).2.bytes := by
  have simulated := Simulation.run_simulates (perform_transfer good numbered) calls driver disk
    ⟨quick, willing, same⟩ (Simulation.allMeet_of_forall below disk)
  cases ran : Simulation.run (perform drive) driver calls with
  | error stop => cases stop
  | ok result =>
    rw [ran] at simulated
    obtain ⟨answers, -, -, bytes⟩ := simulated
    exact ⟨result.2, by rw [← answers], bytes.symm⟩

/-- A drive of eight sectors that is busy for three readings of the status with each. -/
def eightSectors : AtaDrive := ⟨fun _ => 3, fun sector => decide (8 ≤ sector), 0xFFFF⟩

/-- Its driver, before the first transfer. -/
def eightDriver : CATADriver := ⟨true, ⟨fun _ => 0, 0, 0, 0, 0, 0, .idle, 0, 0⟩⟩

/-- A sector is written, and read back with the next one. -/
theorem driver_serves_disk_eight :
    ∃ last, Simulation.run (perform eightSectors) eightDriver
        [.write 6 1 fun _ => 0x2A, .read 6 2 fun _ => 0] =
        .ok ((Simulation.specRun Disk.transfer ⟨fun _ => 0, 0, fun _ _ => true, fun _ => true⟩
          [.write 6 1 fun _ => 0x2A, .read 6 2 fun _ => 0]).1, last) ∧
      last.device.bytes = (Simulation.specRun Disk.transfer
        ⟨fun _ => 0, 0, fun _ _ => true, fun _ => true⟩
        [.write 6 1 fun _ => 0x2A, .read 6 2 fun _ => 0]).2.bytes := by
  have good : ∀ sector < 8, eightSectors.bad sector = false := fun sector below =>
    decide_eq_false (Nat.not_le.mpr below)
  have quick : Quick eightSectors eightDriver := ⟨rfl, by decide, fun _ => show 3 < patience by decide⟩
  refine driver_serves_disk good (by decide) quick ⟨fun _ _ => rfl, fun _ => rfl⟩ rfl ?_
  intro call member
  simp only [List.mem_cons, List.not_mem_nil, or_false] at member
  rcases member with rfl | rfl
  · exact show 6 + 1 ≤ 8 by decide
  · exact show 6 + 2 ≤ 8 by decide

end CATADriver

end Pocky
