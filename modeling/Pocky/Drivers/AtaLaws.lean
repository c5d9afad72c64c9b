import Pocky.Drivers.Ata

/-! What one transfer fetches or stores, on a drive with bad sectors that takes its time. -/

namespace Pocky

/-- The sector that a driver asks for when it is given a number. -/
def ataSector (lba : Nat) : Nat := lba % 2 ^ 28

namespace AtaDrive

/-- The first sectors of a transfer are good. -/
def clear (drive : AtaDrive) (start count : Nat) : Bool :=
  (List.range count).all fun index => !drive.bad (start + index)

/-- What a transfer shows of the sectors from a certain one on. -/
def shown (drive : AtaDrive) (bytes : Buffer) (start : Nat) : Buffer := fun offset =>
  if drive.clear start (offset / blockSize + 1) then bytes (blockSize * start + offset)
  else byteOf drive.junk (offset % 2)

/-- The bytes after a transfer has sent some sectors. -/
def stored (drive : AtaDrive) (bytes : Buffer) (start count : Nat) (data : Buffer) : Buffer :=
  fun addr =>
    if blockSize * start ≤ addr ∧ addr < blockSize * (start + count) ∧
        drive.clear start (addr / blockSize - start + 1) then
      data (addr - blockSize * start)
    else bytes addr

/-- One more sector is good. -/
theorem clear_succ (drive : AtaDrive) (start count : Nat) :
    drive.clear start (count + 1) = (drive.clear start count && !drive.bad (start + count)) := by
  rw [clear, List.range_succ, List.all_append, List.all_cons, List.all_nil, Bool.and_true]
  rfl

/-- Fewer sectors are good as well. -/
theorem clear_of_le {drive : AtaDrive} {start count count' : Nat} (fewer : count ≤ count')
    (clear : drive.clear start count' = true) : drive.clear start count = true := by
  refine List.all_eq_true.mpr fun index member => List.all_eq_true.mp clear index ?_
  rw [List.mem_range] at member ⊢
  omega

/-- No sector stores nothing. -/
theorem stored_zero (drive : AtaDrive) (bytes : Buffer) (start : Nat) (data : Buffer) :
    drive.stored bytes start 0 data = bytes := by
  funext addr
  rw [stored, Nat.add_zero, if_neg (by omega)]

/-- The addresses of one more sector. -/
theorem address_succ {start count addr : Nat} :
    (blockSize * start ≤ addr ∧ addr < blockSize * (start + (count + 1))) ↔
      (blockSize * start ≤ addr ∧ addr < blockSize * (start + count)) ∨
        (blockSize * (start + count) ≤ addr ∧ addr < blockSize * (start + count) + blockSize) := by
  simp only [blockSize]
  omega

/-- The sector of an address. -/
theorem address_sector {start count addr : Nat} (low : blockSize * (start + count) ≤ addr)
    (high : addr < blockSize * (start + count) + blockSize) : addr / blockSize - start = count := by
  simp only [blockSize] at low high ⊢
  omega

/-- A good sector is stored behind others that are good. -/
theorem stored_good {drive : AtaDrive} {start count : Nat} (good : drive.clear start (count + 1) = true)
    (bytes data : Buffer) :
    drive.stored bytes start (count + 1) data =
      Disk.putBlock (drive.stored bytes start count data) (start + count)
        fun offset => data (blockSize * count + offset) := by
  funext addr
  rw [Disk.putBlock, stored, stored]
  by_cases inside : blockSize * (start + count) ≤ addr ∧ addr < blockSize * (start + count) + blockSize
  · have sector := address_sector inside.1 inside.2
    obtain ⟨low, high⟩ := address_succ.mpr (Or.inr inside)
    rw [if_pos inside, if_pos ⟨low, high, by rw [sector]; exact good⟩]
    refine congrArg data ?_
    have split := Nat.mul_add blockSize start count
    omega
  · rw [if_neg inside]
    refine if_congr ⟨?_, ?_⟩ rfl rfl
    · rintro ⟨low, high, clear⟩
      obtain ⟨low', high'⟩ := (address_succ.mp ⟨low, high⟩).resolve_right inside
      exact ⟨low', high', clear⟩
    · rintro ⟨low, high, clear⟩
      obtain ⟨low', high'⟩ := address_succ.mpr (Or.inl ⟨low, high⟩)
      exact ⟨low', high', clear⟩

/-- Nothing is stored from a bad sector on. -/
theorem stored_bad {drive : AtaDrive} {start count : Nat} (bad : drive.clear start (count + 1) = false)
    (bytes data : Buffer) :
    drive.stored bytes start (count + 1) data = drive.stored bytes start count data := by
  funext addr
  rw [stored, stored]
  refine if_congr ⟨?_, ?_⟩ rfl rfl
  · rintro ⟨low, high, clear⟩
    rcases address_succ.mp ⟨low, high⟩ with ⟨low', high'⟩ | ⟨low', high'⟩
    · exact ⟨low', high', clear⟩
    · rw [address_sector low' high', bad] at clear
      cases clear
  · rintro ⟨low, high, clear⟩
    obtain ⟨low', high'⟩ := address_succ.mpr (Or.inl ⟨low, high⟩)
    exact ⟨low', high', clear⟩

end AtaDrive

/-- The low byte of a word. -/
theorem lowByte_eq (word : Nat) : UInt8.ofNat (word &&& 0xFF) = byteOf word 0 := by
  have byte : word &&& 0xFF = word % 2 ^ 8 := Nat.and_two_pow_sub_one_eq_mod word 8
  rw [byte, byteOf, pow_zero, Nat.div_one]
  exact UInt8.ofNat_mod_size

/-- The high byte of a word. -/
theorem highByte_eq (word : Nat) : UInt8.ofNat (word >>> 8 &&& 0xFF) = byteOf word 1 := by
  have byte : word >>> 8 &&& 0xFF = word >>> 8 % 2 ^ 8 := Nat.and_two_pow_sub_one_eq_mod _ 8
  rw [byte, byteOf, pow_one, Nat.shiftRight_eq_div_pow]
  exact UInt8.ofNat_mod_size

/-- The bytes of a word that was put together from two bytes. -/
theorem byteOf_halfAt (data : Buffer) (offset : Nat) :
    byteOf (halfAt data offset) 0 = data offset ∧ byteOf (halfAt data offset) 1 = data (offset + 1) := by
  have low := (data offset).toNat_lt
  have high := (data (offset + 1)).toNat_lt
  constructor <;> apply UInt8.toNat_inj.mp <;> rw [byteOf, halfAt, UInt8.toNat_ofNat'] <;> omega

/-- The two bytes of a word go in front of the others. -/
theorem putBytes_pair (buffer source : Buffer) (offset count : Nat) :
    putBytes (Function.update (Function.update buffer offset (source 0)) (offset + 1) (source 1))
      (offset + 2) count (fun index => source (index + 2)) =
      putBytes buffer offset (count + 2) source := by
  funext index
  simp only [putBytes]
  by_cases first : index = offset
  · subst first
    rw [if_neg (by omega), if_pos (by omega), Function.update_of_ne (by omega), Function.update_self,
      Nat.sub_self]
  by_cases second : index = offset + 1
  · subst second
    rw [if_neg (by omega), if_pos (by omega), Function.update_self, Nat.add_sub_cancel_left]
  by_cases inside : offset + 2 ≤ index ∧ index < offset + 2 + count
  · rw [if_pos inside, if_pos (by omega)]
    congr 1
    omega
  · rw [if_neg inside, if_neg (by omega), Function.update_of_ne second, Function.update_of_ne first]

/-- Bytes that agree are put alike. -/
theorem putBytes_congr {buffer source source' : Buffer} {offset count : Nat}
    (agree : ∀ index < count, source index = source' index) :
    putBytes buffer offset count source = putBytes buffer offset count source' := by
  funext index
  rw [putBytes, putBytes]
  split
  · exact agree _ (by omega)
  · rfl

/-- Bytes are put behind others. -/
theorem putBytes_append (buffer source : Buffer) (offset first count : Nat) :
    putBytes (putBytes buffer offset first source) (offset + first) count
        (fun index => source (first + index)) = putBytes buffer offset (first + count) source := by
  funext index
  simp only [putBytes]
  by_cases front : offset ≤ index ∧ index < offset + first
  · rw [if_neg (by omega), if_pos front, if_pos (by omega)]
  by_cases back : offset + first ≤ index ∧ index < offset + first + count
  · rw [if_pos back, if_pos (by omega)]
    congr 1
    omega
  · rw [if_neg back, if_neg front, if_neg (by omega)]

/-- A block is overwritten by its own bytes only. -/
theorem putBlock_congr {bytes data data' : Buffer} {lba : Nat}
    (agree : ∀ offset < blockSize, data offset = data' offset) :
    Disk.putBlock bytes lba data = Disk.putBlock bytes lba data' := by
  funext addr
  rw [Disk.putBlock, Disk.putBlock]
  split
  · exact agree _ (by omega)
  · rfl

/-- Putting no bytes changes nothing. -/
theorem putBytes_none (buffer source : Buffer) (offset : Nat) :
    putBytes buffer offset 0 source = buffer := by
  funext index
  rw [putBytes, if_neg (by omega)]

namespace CATADriver

variable {drive : AtaDrive} {device : AtaDevice}

/-- A drive that is not busy says so. -/
theorem status_notBusy (device : AtaDevice) : device.status &&& ataStatusBsy = 0 := by
  rw [AtaDevice.status]
  split <;> decide

/-- A drive that is not busy is ready, even when it has failed. -/
theorem status_ready (device : AtaDevice) : device.status &&& ataStatusRdy = ataStatusRdy := by
  rw [AtaDevice.status]
  split <;> decide

/-- The driver waits as long as the drive is busy, or gives up. -/
theorem pollStatus_notBusy (tries : Nat) (device : AtaDevice) :
    pollStatus (fun status => status &&& ataStatusBsy == 0) tries device =
      if device.busy < tries then (true, { device with busy := 0 })
      else (false, { device with busy := device.busy - tries }) := by
  -- By induction on the readings of the status, with the drive they find.
  induction tries generalizing device with
  | zero => rfl
  | succ tries ih =>
    rw [pollStatus, AtaDevice.readStatus]
    cases busy : device.busy with
    | zero =>
      obtain ⟨bytes, sectorCount, lbaLow, lbaMid, lbaHigh, driveHead, phase, busy', clock⟩ := device
      obtain rfl : busy' = 0 := busy
      simp [status_notBusy]
    | succ busy =>
      have taken : ¬ ataStatusBsy = 0 := by decide
      simp [taken, ih]

/-- A drive that is not busy is ready at once. -/
theorem waitReady_eq (free : device.busy = 0) : waitReady device = (true, device) := by
  have ready : ¬ ataStatusRdy = 0 := by decide
  rw [waitReady, patience, pollStatus, AtaDevice.readStatus]
  simp [free, status_ready, ready]

/-- Reading the status of a drive that is not busy changes nothing. -/
theorem pause_eq (free : device.busy = 0) (times : Nat) : pause times device = device := by
  have still : device.readStatus.2 = device := by
    rw [AtaDevice.readStatus]
    simp only [free]
  induction times with
  | zero => rfl
  | succ times ih => rw [pause, still, ih]

/-- The registers hold what the driver was asked for, with a number of 28 bits. -/
theorem issue_eq (free : device.busy = 0) (lba : Nat) (sectors command : UInt8) :
    ∃ ready : AtaDevice, issue drive device lba sectors command = drive.command ready command ∧
      ready.bytes = device.bytes ∧ ready.clock = device.clock ∧ ready.address = ataSector lba ∧
      ready.sectorCount = sectors := by
  refine ⟨_, rfl, ?_⟩
  rw [selectDrive, pause_eq (by exact free)]
  refine ⟨rfl, rfl, ?_, rfl⟩
  have bits : (0xE0 ||| (lba >>> 24 &&& 0x0F)) % 2 ^ 4 = lba / 2 ^ 24 % 2 ^ 4 := by
    rw [Nat.or_mod_two_pow, show (0x0F : Nat) = 2 ^ 4 - 1 from rfl, Nat.and_two_pow_sub_one_eq_mod,
      Nat.shiftRight_eq_div_pow, Nat.mod_mod]
    exact Nat.zero_or _
  have byte : ∀ n : Nat, n &&& 0xFF = n % 2 ^ 8 := fun n => Nat.and_two_pow_sub_one_eq_mod n 8
  simp only [AtaDrive.outb, AtaDevice.address, ataSectorCount, ataLbaLow, ataLbaMid, ataLbaHigh,
    ataDriveHead, Nat.reduceEqDiff, reduceIte, UInt8.toNat_ofNat', byte, Nat.shiftRight_eq_div_pow,
    ataSector] at bits ⊢
  omega

section Fetching

variable {position sector remaining : Nat}

/-- One word is put into the buffer. -/
theorem readWords_succ (left i : Nat) (device : AtaDevice) (buffer : Buffer) :
    readWords drive position (left + 1) i device buffer =
      readWords drive position left (i + 1) (drive.inw device).2
        (Function.update (Function.update buffer (position + i * 2) (byteOf (drive.inw device).1 0))
          (position + i * 2 + 1) (byteOf (drive.inw device).1 1)) := by
  rw [← highByte_eq, ← lowByte_eq, Nat.add_assoc]
  rfl

/-- The words that are left of a sector are put into the buffer, and the drive goes on. -/
theorem readWords_reading {left word : Nat} {device : AtaDevice} {buffer : Buffer}
    (free : device.busy = 0) (reading : device.phase = .reading sector remaining word)
    (rest : word + (left + 1) = 256) :
    readWords drive position (left + 1) word device buffer =
      (putBytes buffer (position + word * 2) (2 * left + 2)
          fun index => device.bytes (blockSize * sector + 2 * word + index),
        if remaining = 1 then { device with phase := .idle }
        else drive.beginSector device (sector + 1) (remaining - 1)) := by
  -- By induction on the words that are left, with the drive and the buffer they find.
  induction left generalizing word device buffer with
  | zero =>
    have pair := putBytes_pair buffer
      (fun index => device.bytes (blockSize * sector + 2 * word + index)) (position + word * 2) 0
    obtain ⟨low, high⟩ := byteOf_halfAt device.bytes (blockSize * sector + 2 * word)
    rw [putBytes_none] at pair
    rw [readWords_succ, readWords, AtaDrive.inw]
    simp only [free, reading, low, high]
    rw [if_neg (by omega)]
    exact Prod.ext pair rfl
  | succ left ih =>
    have pair := putBytes_pair buffer
      (fun index => device.bytes (blockSize * sector + 2 * word + index)) (position + word * 2) (2 * left + 2)
    obtain ⟨low, high⟩ := byteOf_halfAt device.bytes (blockSize * sector + 2 * word)
    have fetched : drive.inw device = (halfAt device.bytes (blockSize * sector + 2 * word),
        { device with phase := .reading sector remaining (word + 1) }) := by
      rw [AtaDrive.inw]
      simp only [free, reading]
      rw [if_pos (by omega)]
    rw [readWords_succ, fetched]
    dsimp only
    rw [low, high, ih (by exact free) (by rfl) (by omega)]
    refine Prod.ext (Eq.trans ?_ pair) rfl
    dsimp only
    congr 1
    · omega
    · funext index
      congr 1
      omega

/-- Without a sector to fetch the buffer is filled with what the port shows. -/
theorem readWords_junk {left word : Nat} {buffer : Buffer}
    (failed : device.phase = .failed) :
    readWords drive position left word device buffer =
      (putBytes buffer (position + word * 2) (2 * left) fun index => byteOf drive.junk (index % 2),
        device) := by
  -- By induction on the words that are left, with the buffer they find.
  induction left generalizing word buffer with
  | zero => rw [readWords, Nat.mul_zero, putBytes_none]
  | succ left ih =>
    have pair := putBytes_pair buffer (fun index => byteOf drive.junk (index % 2)) (position + word * 2)
      (2 * left)
    have fetched : drive.inw device = (drive.junk, device) := by
      rw [AtaDrive.inw]
      simp only [failed]
      cases device.busy <;> rfl
    rw [readWords_succ, fetched, ih]
    refine Prod.ext (Eq.trans ?_ pair) rfl
    dsimp only
    congr 1
    · omega
    · funext index
      congr 1
      omega

end Fetching

/-- A drive that is soon ready again with each of its sectors. -/
def Prompt (drive : AtaDrive) (device : AtaDevice) : Prop :=
  device.busy < patience ∧ ∀ clock, drive.latency clock < patience

/-- A drive has a sector of a transfer to give if there is another, unless it has given up. -/
structure Gives (drive : AtaDrive) (bytes : Buffer) (start index remaining : Nat) (device : AtaDevice) :
    Prop where
  /-- Its sectors are what they were. -/
  bytes : device.bytes = bytes
  /-- It stands at the beginning of the sector. -/
  phase : 0 < remaining → device.phase =
    if drive.clear start (index + 1) then .reading (start + index) remaining 0 else .failed

section Loops

variable {bytes buffer : Buffer} {start index remaining : Nat}

/-- A drive is waited for until it is not busy, or given up. -/
theorem waitNotBusy_cases (device : AtaDevice) :
    (device.busy < patience ∧ waitNotBusy device = (true, { device with busy := 0 })) ∨
      (¬ device.busy < patience ∧ ∃ busy, waitNotBusy device = (false, { device with busy })) := by
  have polled := pollStatus_notBusy patience device
  by_cases quick : device.busy < patience
  · rw [if_pos quick] at polled
    exact Or.inl ⟨quick, polled⟩
  · rw [if_neg quick] at polled
    exact Or.inr ⟨quick, _, polled⟩

/-- One sector is put into the buffer, and the drive stands at the next one. -/
theorem Gives.readWords (gives : Gives drive bytes start index (remaining + 1) device)
    (free : device.busy = 0) (position : Nat) (buffer : Buffer) :
    ∃ next, CATADriver.readWords drive position 256 0 device buffer =
        (putBytes buffer position blockSize
          fun offset => drive.shown bytes start (blockSize * index + offset), next) ∧
      Gives drive bytes start (index + 1) remaining next ∧
      ((∀ clock, drive.latency clock < patience) → next.busy < patience) := by
  have phase := gives.phase (Nat.succ_pos _)
  have place : ∀ offset < blockSize, (blockSize * index + offset) / blockSize = index := by
    intro offset small
    rw [blockSize] at small ⊢
    omega
  cases reached : drive.clear start (index + 1) with
  | true =>
    rw [reached, if_pos rfl] at phase
    have words : CATADriver.readWords drive position (255 + 1) 0 device buffer = _ :=
      readWords_reading free phase rfl
    rw [Nat.zero_mul, Nat.add_zero, show 2 * 255 + 2 = blockSize from rfl] at words
    refine ⟨_, words.trans (congrArg₂ Prod.mk (putBytes_congr fun offset small => ?_) rfl),
      ⟨?_, fun more => ?_⟩, fun quick => ?_⟩
    · rw [AtaDrive.shown, place offset small, reached, if_pos rfl, gives.bytes]
      exact congrArg bytes (by rw [Nat.mul_add, Nat.add_zero, Nat.add_assoc])
    · split
      · exact gives.bytes
      · exact gives.bytes
    · rw [if_neg (by omega), AtaDrive.beginSector, AtaDrive.clear_succ, reached, Bool.true_and,
        Nat.add_sub_cancel, ← Nat.add_assoc]
      cases drive.bad (start + index + 1) <;> rfl
    · split
      · exact free.trans_lt (by decide)
      · exact quick _
  | false =>
    rw [reached, if_neg (by decide)] at phase
    have words : CATADriver.readWords drive position 256 0 device buffer = _ := readWords_junk phase
    rw [Nat.zero_mul, Nat.add_zero, show 2 * 256 = blockSize from rfl] at words
    refine ⟨_, words.trans (congrArg₂ Prod.mk (putBytes_congr fun offset small => ?_) rfl),
      ⟨gives.bytes, fun _ => ?_⟩, fun _ => ?_⟩
    · rw [AtaDrive.shown, place offset small, reached, if_neg (by decide)]
      exact congrArg (byteOf drive.junk) (by rw [blockSize]; omega)
    · rw [AtaDrive.clear_succ, reached, phase]
      rfl
    · exact free.trans_lt (by decide)

/-- What is put into the buffer by the rest of a transfer. -/
theorem Gives.readLoop (gives : Gives drive bytes start index remaining device) (buffer : Buffer) :
    ∃ done ≤ remaining, ∃ told next,
      CATADriver.readLoop drive remaining (blockSize * index) device buffer =
        ((told, putBytes buffer (blockSize * index) (blockSize * done)
          fun offset => drive.shown bytes start (blockSize * index + offset)), next) ∧
      (told = true → done = remaining) ∧ next.bytes = bytes ∧
      (Prompt drive device → told = true ∧ Prompt drive next) := by
  -- By induction on the sectors that are left, with the drive and the buffer they find.
  induction remaining generalizing index device buffer with
  | zero =>
    refine ⟨0, Nat.le_refl _, true, device, ?_, fun _ => rfl, gives.bytes, fun prompt => ⟨rfl, prompt⟩⟩
    rw [CATADriver.readLoop, Nat.mul_zero, putBytes_none]
  | succ remaining ih =>
    rw [CATADriver.readLoop]
    rcases waitNotBusy_cases device with ⟨quick, waited⟩ | ⟨quick, busy, waited⟩
    · rw [waited]
      dsimp only
      have gives' : Gives drive bytes start index (remaining + 1) { device with busy := 0 } :=
        ⟨gives.bytes, gives.phase⟩
      obtain ⟨next, words, gives'', soon⟩ := gives'.readWords rfl (blockSize * index) buffer
      rw [waitReady_eq rfl]
      dsimp only
      rw [words]
      obtain ⟨done, most, told, last, looped, whole, same, prompt⟩ := ih gives''
        (putBytes buffer (blockSize * index) blockSize
          fun offset => drive.shown bytes start (blockSize * index + offset))
      refine ⟨done + 1, Nat.succ_le_succ most, told, last, looped.trans (Prod.ext (Prod.ext rfl ?_) rfl),
        fun all => congrArg _ (whole all), same, fun quick' => prompt ⟨soon quick'.2, quick'.2⟩⟩
      have behind := putBytes_append buffer
        (fun offset => drive.shown bytes start (blockSize * index + offset)) (blockSize * index) blockSize
        (blockSize * done)
      rw [Nat.mul_succ, Nat.mul_succ, Nat.add_comm (blockSize * done) blockSize, ← behind]
      simp only [Nat.add_assoc]
    · rw [waited]
      refine ⟨0, Nat.zero_le _, false, { device with busy }, ?_, nofun, gives.bytes,
        fun prompt => absurd prompt.1 quick⟩
      rw [Nat.mul_zero, putBytes_none]

end Loops

section Sending

variable {position sector remaining : Nat} {buffer : Buffer}

/-- The two bytes of a word are sent together. -/
theorem byteOf_sent (low high : UInt8) :
    byteOf (low.toNat ||| high.toNat <<< 8) 0 = low ∧ byteOf (low.toNat ||| high.toNat <<< 8) 1 = high := by
  have below := low.toNat_lt
  have above := high.toNat_lt
  have joined : low.toNat ||| high.toNat <<< 8 = high.toNat <<< 8 + low.toNat := by
    rw [Nat.shiftLeft_add_eq_or_of_lt below, Nat.or_comm]
  rw [joined, Nat.shiftLeft_eq]
  constructor <;> apply UInt8.toNat_inj.mp <;> rw [byteOf, UInt8.toNat_ofNat'] <;> omega

/-- The drive takes a word of a sector behind those that it has taken. -/
theorem outw_eq {word : Nat} {device : AtaDevice} {pending : Buffer} (free : device.busy = 0)
    (writing : device.phase = .writing sector remaining word pending) (low high : UInt8) :
    drive.outw device (low.toNat ||| high.toNat <<< 8) =
      if word + 1 < 256 then
        { device with
          phase := .writing sector remaining (word + 1)
            (Function.update (Function.update pending (2 * word) low) (2 * word + 1) high) }
      else drive.storeSector device sector remaining
        (Function.update (Function.update pending (2 * word) low) (2 * word + 1) high) := by
  obtain ⟨first, second⟩ := byteOf_sent low high
  have pair := putBytes_pair pending (byteOf (low.toNat ||| high.toNat <<< 8)) (2 * word) 0
  rw [putBytes_none, first, second] at pair
  rw [AtaDrive.outw]
  simp only [free, writing]
  rw [pair]

/-- The words that are left of a sector are taken from the buffer, and the sector is stored. -/
theorem writeWords_writing {left word : Nat} {device : AtaDevice} {pending : Buffer}
    (free : device.busy = 0) (writing : device.phase = .writing sector remaining word pending)
    (rest : word + (left + 1) = 256) :
    writeWords drive position buffer (left + 1) word device =
      drive.storeSector device sector remaining
        (putBytes pending (2 * word) (2 * left + 2) fun index => buffer (position + word * 2 + index)) := by
  -- By induction on the words that are left, with the drive they find.
  induction left generalizing word device pending with
  | zero =>
    have pair := putBytes_pair pending (fun index => buffer (position + word * 2 + index)) (2 * word) 0
    rw [putBytes_none] at pair
    rw [writeWords, writeWords, outw_eq free writing, if_neg (by omega)]
    exact congrArg _ pair
  | succ left ih =>
    have pair := putBytes_pair pending (fun index => buffer (position + word * 2 + index)) (2 * word)
      (2 * left + 2)
    rw [writeWords, outw_eq free writing, if_pos (by omega)]
    rw [ih (by exact free) (by rfl) (by omega)]
    have same : ∀ index, buffer (position + (word + 1) * 2 + index) =
        buffer (position + word * 2 + (index + 2)) := fun index => congrArg buffer (by omega)
    rw [funext same, Nat.mul_succ]
    exact congrArg _ pair

/-- A drive that has given up takes no words. -/
theorem writeWords_failed {left word : Nat} (failed : device.phase = .failed) :
    writeWords drive position buffer left word device = device := by
  have still : ∀ data, drive.outw device data = device := by
    intro data
    rw [AtaDrive.outw]
    simp only [failed]
    cases device.busy <;> rfl
  induction left generalizing word with
  | zero => rfl
  | succ left ih => rw [writeWords, still, ih]

/-- A drive waits for a sector of a transfer if there is another, unless it has given up. -/
structure Takes (drive : AtaDrive) (bytes : Buffer) (start index remaining : Nat) (data : Buffer)
    (device : AtaDevice) : Prop where
  /-- The sectors in front have been stored. -/
  bytes : device.bytes = drive.stored bytes start index data
  /-- It stands at the beginning of the sector. -/
  phase : 0 < remaining → if drive.clear start index then
    ∃ pending, device.phase = .writing (start + index) remaining 0 pending else device.phase = .failed

variable {bytes : Buffer} {start index : Nat}

/-- A drive that has got a sector is busy with it. -/
theorem storeSector_busy (pending : Buffer) :
    (drive.storeSector device sector remaining pending).busy = drive.latency device.clock := by
  rw [AtaDrive.storeSector]
  split <;> rfl

/-- A bad sector is not stored, and the drive gives up. -/
theorem storeSector_bad (bad : drive.bad sector = true) (pending : Buffer) :
    (drive.storeSector device sector remaining pending).bytes = device.bytes ∧
      (drive.storeSector device sector remaining pending).phase = .failed := by
  rw [AtaDrive.storeSector, if_pos bad]
  exact ⟨rfl, rfl⟩

/-- A good sector is stored, and the drive waits for the next one. -/
theorem storeSector_good (good : drive.bad sector = false) (pending : Buffer) :
    (drive.storeSector device sector (remaining + 1) pending).bytes =
        Disk.putBlock device.bytes sector pending ∧
      (0 < remaining → (drive.storeSector device sector (remaining + 1) pending).phase =
        .writing (sector + 1) remaining 0 pending) := by
  have unbad : ¬ drive.bad sector = true := by
    rw [good]
    decide
  rw [AtaDrive.storeSector, if_neg unbad]
  exact ⟨rfl, fun more => if_neg (by omega)⟩

/-- One sector is taken from the buffer, and the drive waits for the next one. -/
theorem Takes.writeWords (takes : Takes drive bytes start index (remaining + 1) buffer device)
    (free : device.busy = 0) :
    Takes drive bytes start (index + 1) remaining buffer
        (CATADriver.writeWords drive (blockSize * index) buffer 256 0 device) ∧
      ((∀ clock, drive.latency clock < patience) →
        (CATADriver.writeWords drive (blockSize * index) buffer 256 0 device).busy < patience) := by
  have phase := takes.phase (Nat.succ_pos _)
  cases reached : drive.clear start index with
  | true =>
    rw [reached, if_pos rfl] at phase
    obtain ⟨pending, phase⟩ := phase
    have words : CATADriver.writeWords drive (blockSize * index) buffer (255 + 1) 0 device = _ :=
      writeWords_writing free phase rfl
    have next := AtaDrive.clear_succ drive start index
    rw [reached, Bool.true_and] at next
    rw [words]
    refine ⟨?_, fun quick => (storeSector_busy _).trans_lt (quick _)⟩
    cases bad : drive.bad (start + index) with
    | true =>
      rw [bad] at next
      obtain ⟨still, failed⟩ := storeSector_bad bad _
      refine ⟨?_, fun _ => ?_⟩
      · rw [AtaDrive.stored_bad next, still]
        exact takes.bytes
      · rw [next]
        exact failed
    | false =>
      rw [bad] at next
      obtain ⟨stored, waits⟩ := storeSector_good bad _
      refine ⟨?_, fun more => ?_⟩
      · rw [AtaDrive.stored_good next, stored, takes.bytes]
        refine putBlock_congr fun offset small => ?_
        rw [putBytes, if_pos (by rw [blockSize] at small; omega)]
        exact congrArg buffer (by omega)
      · rw [next]
        exact ⟨_, waits more⟩
  | false =>
    rw [reached, if_neg (by decide)] at phase
    have next := AtaDrive.clear_succ drive start index
    rw [reached, Bool.false_and] at next
    rw [writeWords_failed phase]
    refine ⟨⟨?_, fun _ => ?_⟩, fun _ => free.trans_lt (by decide)⟩
    · rw [AtaDrive.stored_bad next]
      exact takes.bytes
    · rw [next]
      exact phase

/-- What is stored by the rest of a transfer. -/
theorem Takes.writeLoop (takes : Takes drive bytes start index remaining buffer device) :
    ∃ done ≤ remaining, ∃ told next,
      CATADriver.writeLoop drive buffer remaining (blockSize * index) device = (told, next) ∧
      (told = true → done = remaining) ∧ next.bytes = drive.stored bytes start (index + done) buffer ∧
      (Prompt drive device → told = true ∧ Prompt drive next) := by
  -- By induction on the sectors that are left, with the drive they find.
  induction remaining generalizing index device with
  | zero => exact ⟨0, Nat.le_refl _, true, device, rfl, fun _ => rfl, takes.bytes, fun prompt => ⟨rfl, prompt⟩⟩
  | succ remaining ih =>
    rw [CATADriver.writeLoop]
    rcases waitNotBusy_cases device with ⟨quick, waited⟩ | ⟨quick, busy, waited⟩
    · rw [waited]
      dsimp only
      rw [waitReady_eq rfl]
      have takes' : Takes drive bytes start index (remaining + 1) buffer { device with busy := 0 } :=
        ⟨takes.bytes, takes.phase⟩
      obtain ⟨takes'', soon⟩ := takes'.writeWords rfl
      obtain ⟨done, most, told, last, looped, whole, same, prompt⟩ := ih takes''
      refine ⟨done + 1, Nat.succ_le_succ most, told, last, looped, fun all => congrArg _ (whole all), ?_,
        fun quick' => prompt ⟨soon quick'.2, quick'.2⟩⟩
      rw [same, Nat.add_assoc, Nat.add_comm 1 done]
    · rw [waited]
      exact ⟨0, Nat.zero_le _, false, _, rfl, nofun, takes.bytes, fun prompt => absurd prompt.1 quick⟩

end Sending

section Transfers

variable (drive : AtaDrive) (driver : CATADriver) (lba : Nat) (sectors : UInt8) (buffer : Buffer)

/-- The driver has found its drive, and the drive is soon ready again with each of its sectors. -/
def Quick : Prop := driver.initialized = true ∧ Prompt drive driver.device

/-- How many sectors a drive transfers when it is asked for some. -/
theorem transferLength_eq {device : AtaDevice} (asked : device.sectorCount = sectors)
    (more : 0 < sectors.toNat) : device.transferLength = sectors.toNat := by
  rw [AtaDevice.transferLength, asked, if_neg]
  rintro rfl
  cases more

/-- After the command to read, the drive stands at the first sector. -/
theorem issue_gives {device : AtaDevice} (free : device.busy = 0) :
    Gives drive device.bytes (ataSector lba) 0 sectors.toNat
        (issue drive device lba sectors ataCmdReadSectors) ∧
      ((∀ clock, drive.latency clock < patience) →
        (issue drive device lba sectors ataCmdReadSectors).busy < patience) := by
  obtain ⟨ready, issued, bytes, -, address, asked⟩ := issue_eq free lba sectors ataCmdReadSectors
  rw [issued, AtaDrive.command, if_pos rfl, AtaDrive.beginSector, address]
  refine ⟨⟨bytes, fun more => ?_⟩, fun quick => quick _⟩
  rw [transferLength_eq sectors asked more, AtaDrive.clear_succ, Nat.add_zero]
  cases drive.bad (ataSector lba) <;> rfl

/-- After the command to write, the drive waits for the first sector. -/
theorem issue_takes {device : AtaDevice} (free : device.busy = 0) :
    Takes drive device.bytes (ataSector lba) 0 sectors.toNat buffer
        (issue drive device lba sectors ataCmdWriteSectors) ∧
      ((∀ clock, drive.latency clock < patience) →
        (issue drive device lba sectors ataCmdWriteSectors).busy < patience) := by
  obtain ⟨ready, issued, bytes, -, address, asked⟩ := issue_eq free lba sectors ataCmdWriteSectors
  rw [issued, AtaDrive.command, if_neg (by decide), if_pos rfl, address]
  refine ⟨⟨bytes.trans (AtaDrive.stored_zero drive _ _ buffer).symm, fun more => ?_⟩, fun quick => quick _⟩
  rw [transferLength_eq sectors asked more]
  exact ⟨_, rfl⟩

/-- Reading fills the buffer with the first of the sectors asked for, and with all if it succeeds. -/
theorem readSectors_reads : ∃ done ≤ sectors.toNat, ∃ told next,
    driver.readSectors drive lba sectors buffer =
      ((told, putBytes buffer 0 (blockSize * done) (drive.shown driver.device.bytes (ataSector lba))), next) ∧
    (told = true → done = sectors.toNat) ∧ next.device.bytes = driver.device.bytes ∧
    (Quick drive driver → told = true ∧ Quick drive next) := by
  rw [readSectors]
  by_cases found : driver.initialized = true
  · rw [if_pos found]
    rcases waitNotBusy_cases driver.device with ⟨quick, waited⟩ | ⟨quick, busy, waited⟩
    · rw [waited]
      dsimp only
      obtain ⟨gives, soon⟩ := issue_gives drive lba sectors
        (show ({ driver.device with busy := 0 } : AtaDevice).busy = 0 from rfl)
      obtain ⟨done, most, told, last, looped, whole, same, prompt⟩ := gives.readLoop buffer
      rw [Nat.mul_zero] at looped
      simp only [Nat.zero_add] at looped
      rw [looped]
      exact ⟨done, most, told, _, rfl, whole, same, fun quick' =>
        ⟨(prompt ⟨soon quick'.2.2, quick'.2.2⟩).1, found, (prompt ⟨soon quick'.2.2, quick'.2.2⟩).2⟩⟩
    · rw [waited]
      refine ⟨0, Nat.zero_le _, false, { driver with device := { driver.device with busy } }, ?_, nofun,
        rfl, fun quick' => absurd quick'.2.1 quick⟩
      rw [Nat.mul_zero, putBytes_none]
  · rw [if_neg found]
    refine ⟨0, Nat.zero_le _, false, driver, ?_, nofun, rfl, fun quick' => absurd quick'.1 found⟩
    rw [Nat.mul_zero, putBytes_none]

/-- Writing stores the first of the sectors, and all if it succeeds, unless a sector is bad. -/
theorem writeSectors_writes : ∃ done ≤ sectors.toNat, ∃ told next,
    driver.writeSectors drive lba sectors buffer = (told, next) ∧
    (told = true → done = sectors.toNat) ∧
    next.device.bytes = drive.stored driver.device.bytes (ataSector lba) done buffer ∧
    (Quick drive driver → told = true ∧ Quick drive next) := by
  rw [writeSectors]
  have nothing := AtaDrive.stored_zero drive driver.device.bytes (ataSector lba) buffer
  by_cases found : driver.initialized = true
  · rw [if_pos found]
    rcases waitNotBusy_cases driver.device with ⟨quick, waited⟩ | ⟨quick, busy, waited⟩
    · rw [waited]
      dsimp only
      obtain ⟨takes, soon⟩ := issue_takes drive lba sectors buffer
        (show ({ driver.device with busy := 0 } : AtaDevice).busy = 0 from rfl)
      obtain ⟨done, most, told, last, looped, whole, same, prompt⟩ := takes.writeLoop
      rw [Nat.mul_zero] at looped
      rw [Nat.zero_add] at same
      rw [looped]
      exact ⟨done, most, told, _, rfl, whole, same, fun quick' =>
        ⟨(prompt ⟨soon quick'.2.2, quick'.2.2⟩).1, found, (prompt ⟨soon quick'.2.2, quick'.2.2⟩).2⟩⟩
    · rw [waited]
      exact ⟨0, Nat.zero_le _, false, _, rfl, nofun, nothing.symm, fun quick' => absurd quick'.2.1 quick⟩
  · rw [if_neg found]
    exact ⟨0, Nat.zero_le _, false, driver, rfl, nofun, nothing.symm, fun quick' => absurd quick'.1 found⟩

end Transfers

end CATADriver

end Pocky
