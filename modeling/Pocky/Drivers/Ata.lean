import Pocky.Fs.Disk

/-! The driver of the disk, and the drive behind its ports. -/

namespace Pocky

/-- The ports of the registers, counted from the first port of the channel. -/
def ataSectorCount : Nat := 2
def ataLbaLow : Nat := 3
def ataLbaMid : Nat := 4
def ataLbaHigh : Nat := 5
def ataDriveHead : Nat := 6
def ataStatus : Nat := 7
def ataCommand : Nat := 7

def ataCmdReadSectors : UInt8 := 0x20
def ataCmdWriteSectors : UInt8 := 0x30

def ataStatusErr : UInt8 := 0x01
def ataStatusDrq : UInt8 := 0x08
def ataStatusRdy : UInt8 := 0x40
def ataStatusBsy : UInt8 := 0x80

/-- How often the status is read before the driver gives up. -/
def patience : Nat := 100000

/-- The transfer that a drive has under way. -/
inductive AtaPhase where
  /-- None. -/
  | idle
  /-- A sector is being fetched from the data port, and more may follow. -/
  | reading (sector remaining word : Nat)
  /-- A sector is being sent to the data port, and more may follow. -/
  | writing (sector remaining word : Nat) (pending : Buffer)
  /-- None, since the last one has been given up. -/
  | failed

/-- What a drive is like. -/
structure AtaDrive where
  /-- For how many readings of the status it is busy with each of its sectors. -/
  latency : Nat → Nat
  /-- The sectors that it cannot read or write, or does not have. -/
  bad : Nat → Bool
  /-- What the data port shows when there is nothing to fetch. -/
  junk : Nat

/-- The state of a drive. -/
structure AtaDevice where
  /-- The bytes of its sectors. -/
  bytes : Buffer
  /-- How many sectors to transfer, none standing for 256. -/
  sectorCount : UInt8
  /-- The sector to begin with, in 28 bits. -/
  lbaLow : UInt8
  lbaMid : UInt8
  lbaHigh : UInt8
  driveHead : UInt8
  /-- What it is doing. -/
  phase : AtaPhase
  /-- For how many readings of the status it is still busy. -/
  busy : Nat
  /-- How many sectors it has dealt with. -/
  clock : Nat

namespace AtaDevice

/-- The sector that the registers name. -/
def address (device : AtaDevice) : Nat :=
  device.lbaLow.toNat + 2 ^ 8 * device.lbaMid.toNat + 2 ^ 16 * device.lbaHigh.toNat +
    2 ^ 24 * (device.driveHead.toNat % 16)

/-- How many sectors the registers ask for. -/
def transferLength (device : AtaDevice) : Nat :=
  if device.sectorCount = 0 then 256 else device.sectorCount.toNat

/-- The status register of a drive that is not busy. -/
def status (device : AtaDevice) : UInt8 :=
  match device.phase with
  | .idle => ataStatusRdy
  | .reading _ _ _ | .writing _ _ _ _ => ataStatusRdy ||| ataStatusDrq
  | .failed => ataStatusRdy ||| ataStatusErr

/-- Reading the status register; other bits mean nothing while the drive is busy. -/
def readStatus (device : AtaDevice) : UInt8 × AtaDevice :=
  match device.busy with
  | 0 => (device.status, device)
  | busy + 1 => (ataStatusBsy, { device with busy })

end AtaDevice

namespace AtaDrive

variable (drive : AtaDrive)

/-- The drive turns to a sector that is to be fetched. -/
def beginSector (device : AtaDevice) (sector remaining : Nat) : AtaDevice :=
  { device with
    busy := drive.latency device.clock
    clock := device.clock + 1
    phase := if drive.bad sector then .failed else .reading sector remaining 0 }

/-- The drive puts a sector that it has got where it belongs. -/
def storeSector (device : AtaDevice) (sector remaining : Nat) (pending : Buffer) : AtaDevice :=
  let device := { device with busy := drive.latency device.clock, clock := device.clock + 1 }
  if drive.bad sector then { device with phase := .failed }
  else
    { device with
      bytes := Disk.putBlock device.bytes sector pending
      phase := if remaining = 1 then .idle else .writing (sector + 1) (remaining - 1) 0 pending }

/-- A command is given to the drive. -/
def command (device : AtaDevice) (value : UInt8) : AtaDevice :=
  if value = ataCmdReadSectors then drive.beginSector device device.address device.transferLength
  else if value = ataCmdWriteSectors then
    { device with
      busy := drive.latency device.clock
      clock := device.clock + 1
      phase := .writing device.address device.transferLength 0 fun _ => 0 }
  else { device with phase := .failed }

/-- A byte is written to a register, at its place behind the first port. -/
def outb (device : AtaDevice) (port : Nat) (value : UInt8) : AtaDevice :=
  if port = ataSectorCount then { device with sectorCount := value }
  else if port = ataLbaLow then { device with lbaLow := value }
  else if port = ataLbaMid then { device with lbaMid := value }
  else if port = ataLbaHigh then { device with lbaHigh := value }
  else if port = ataDriveHead then { device with driveHead := value }
  else if port = ataCommand then drive.command device value
  else device

/-- A word is fetched from the data port. -/
def inw (device : AtaDevice) : Nat × AtaDevice :=
  match device.busy, device.phase with
  | 0, .reading sector remaining word =>
    (halfAt device.bytes (blockSize * sector + 2 * word),
      if word + 1 < 256 then { device with phase := .reading sector remaining (word + 1) }
      else if remaining = 1 then { device with phase := .idle }
      else drive.beginSector device (sector + 1) (remaining - 1))
  | _, _ => (drive.junk, device)

/-- A word is sent to the data port. -/
def outw (device : AtaDevice) (data : Nat) : AtaDevice :=
  match device.busy, device.phase with
  | 0, .writing sector remaining word pending =>
    let pending := putBytes pending (2 * word) 2 (byteOf data)
    if word + 1 < 256 then { device with phase := .writing sector remaining (word + 1) pending }
    else drive.storeSector device sector remaining pending
  | _, _ => device

end AtaDrive

/-- The driver and the drive that it talks to. -/
structure CATADriver where
  /-- Whether the drive has been found. -/
  initialized : Bool
  /-- The drive. -/
  device : AtaDevice

namespace CATADriver

/-- The status is read until it is as wished, but not for ever. -/
def pollStatus (wished : UInt8 → Bool) : Nat → AtaDevice → Bool × AtaDevice
  | 0, device => (false, device)
  | tries + 1, device =>
    let (status, device) := device.readStatus
    if wished status then (true, device) else pollStatus wished tries device

/-- Waiting until the drive is not busy. -/
def waitNotBusy (device : AtaDevice) : Bool × AtaDevice :=
  pollStatus (fun status => status &&& ataStatusBsy == 0) patience device

/-- Waiting until the drive is ready. -/
def waitReady (device : AtaDevice) : Bool × AtaDevice :=
  pollStatus (fun status => status &&& ataStatusRdy != 0) patience device

/-- The status is read a number of times, for the time that it takes. -/
def pause : Nat → AtaDevice → AtaDevice
  | 0, device => device
  | times + 1, device => pause times device.readStatus.2

section Transfers

variable (drive : AtaDrive)

/-- Choosing the first drive; the driver never talks to the second one. -/
def selectDrive (device : AtaDevice) : AtaDevice := pause 10 (drive.outb device ataDriveHead 0xE0)

/-- The registers are filled and a command is given. -/
def issue (device : AtaDevice) (lba : Nat) (sectors : UInt8) (command : UInt8) : AtaDevice :=
  let device := selectDrive drive device
  let device := drive.outb device ataSectorCount sectors
  let device := drive.outb device ataLbaLow (UInt8.ofNat (lba &&& 0xFF))
  let device := drive.outb device ataLbaMid (UInt8.ofNat (lba >>> 8 &&& 0xFF))
  let device := drive.outb device ataLbaHigh (UInt8.ofNat (lba >>> 16 &&& 0xFF))
  let device := drive.outb device ataDriveHead (UInt8.ofNat (0xE0 ||| (lba >>> 24 &&& 0x0F)))
  drive.outb device ataCommand command

/-- The words of a sector are put into the buffer. -/
def readWords (position : Nat) : Nat → Nat → AtaDevice → Buffer → Buffer × AtaDevice
  | 0, _, device, buffer => (buffer, device)
  | remaining + 1, i, device, buffer =>
    let (data, device) := drive.inw device
    let buffer := Function.update buffer (position + i * 2) (UInt8.ofNat (data &&& 0xFF))
    let buffer := Function.update buffer (position + (i * 2 + 1)) (UInt8.ofNat (data >>> 8 &&& 0xFF))
    readWords position remaining (i + 1) device buffer

/-- The sectors are put into the buffer, one behind the other. -/
def readLoop : Nat → Nat → AtaDevice → Buffer → (Bool × Buffer) × AtaDevice
  | 0, _, device, buffer => ((true, buffer), device)
  | remaining + 1, position, device, buffer =>
    match waitNotBusy device with
    | (false, device) => ((false, buffer), device)
    | (true, device) =>
      match waitReady device with
      | (false, device) => ((false, buffer), device)
      | (true, device) =>
        let (buffer, device) := readWords drive position 256 0 device buffer
        readLoop remaining (position + 512) device buffer

/-- Reading consecutive sectors. -/
def readSectors (driver : CATADriver) (lba : Nat) (sectors : UInt8) (buffer : Buffer) :
    (Bool × Buffer) × CATADriver :=
  if driver.initialized then
    match waitNotBusy driver.device with
    | (false, device) => ((false, buffer), { driver with device })
    | (true, device) =>
      let (answer, device) := readLoop drive sectors.toNat 0
        (issue drive device lba sectors ataCmdReadSectors) buffer
      (answer, { driver with device })
  else ((false, buffer), driver)

/-- The words of a sector are taken from the buffer. -/
def writeWords (position : Nat) (buffer : Buffer) : Nat → Nat → AtaDevice → AtaDevice
  | 0, _, device => device
  | remaining + 1, i, device =>
    let data := (buffer (position + i * 2)).toNat ||| (buffer (position + (i * 2 + 1))).toNat <<< 8
    writeWords position buffer remaining (i + 1) (drive.outw device data)

/-- The sectors are taken from the buffer, one behind the other. -/
def writeLoop (buffer : Buffer) : Nat → Nat → AtaDevice → Bool × AtaDevice
  | 0, _, device => (true, device)
  | remaining + 1, position, device =>
    match waitNotBusy device with
    | (false, device) => (false, device)
    | (true, device) =>
      match waitReady device with
      | (false, device) => (false, device)
      | (true, device) =>
        writeLoop buffer remaining (position + 512) (writeWords drive position buffer 256 0 device)

/-- Writing consecutive sectors. -/
def writeSectors (driver : CATADriver) (lba : Nat) (sectors : UInt8) (buffer : Buffer) :
    Bool × CATADriver :=
  if driver.initialized then
    match waitNotBusy driver.device with
    | (false, device) => (false, { driver with device })
    | (true, device) =>
      let (told, device) := writeLoop drive buffer sectors.toNat 0
        (issue drive device lba sectors ataCmdWriteSectors)
      (told, { driver with device })
  else (false, driver)

end Transfers

end CATADriver

end Pocky
