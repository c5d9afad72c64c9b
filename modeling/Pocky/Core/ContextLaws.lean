import Pocky.Core.Context

/-! What a context switch saves and loads, and where a process goes on that is switched to again. -/

namespace Pocky

open ByteMemory

/-- The general registers in the order of the record. -/
def generalRegisters : List Register :=
  [.rax, .rbx, .rcx, .rdx, .rsi, .rdi, .rbp, .rsp, .r8, .r9, .r10, .r11, .r12, .r13, .r14, .r15]

/-- The general registers that are loaded first; stack pointer and source index come last. -/
def loadedRegisters : List Register :=
  [.rax, .rbx, .rcx, .rdx, .rdi, .rbp, .r8, .r9, .r10, .r11, .r12, .r13, .r14, .r15]

/-- What follows the stores of the general registers. -/
def saveSpecial : List Instruction := [
  .load .rax .rsp 0,
  .store .rdi (RegisterField.offset .rip) .rax,
  .pushfq,
  .pop .rax,
  .store .rdi (RegisterField.offset .rflags) .rax,
  .storeSegment .rdi (RegisterField.offset .cs) .cs,
  .storeSegment .rdi (RegisterField.offset .ss) .ss]

/-- What follows the loads of the general registers. -/
def loadSpecial : List Instruction := [
  .loadAx .rsi (RegisterField.offset .cs),
  .setSegment .ds,
  .setSegment .es,
  .setSegment .fs,
  .setSegment .gs,
  .loadAx .rsi (RegisterField.offset .ss),
  .setSegment .ss,
  .load .rax .rsi (RegisterField.offset .rflags),
  .push .rax,
  .popfq,
  .load .rsp .rsi (RegisterField.offset (.general .rsp)),
  .load .rax .rsi (RegisterField.offset .rip),
  .push .rax,
  .load .rsi .rsi (RegisterField.offset (.general .rsi)),
  .ret]

/-- Saving uses the offsets of the record. -/
theorem saveOld_offsets : saveOld = generalRegisters.map (fun register =>
    .store .rdi (RegisterField.offset (.general register)) register) ++ saveSpecial := by decide

/-- Loading uses the offsets of the record. -/
theorem loadNew_offsets : loadNew = loadedRegisters.map (fun register =>
    .load register .rsi (RegisterField.offset (.general register))) ++ loadSpecial := by decide

/-- The record has room for twenty words. -/
theorem registerStateSize_eq : registerStateSize = 160 := by decide

namespace RegisterField

/-- Every field is in the record. -/
theorem mem_registerState (field : RegisterField) : field ∈ registerState := by
  cases field with
  | general register => cases register <;> decide
  | rip => decide
  | rflags => decide
  | cs => decide
  | ss => decide

/-- A field ends inside the record. -/
theorem offset_le (field : RegisterField) : field.offset + 8 ≤ registerStateSize := by
  have all : ∀ field ∈ registerState, field.offset + 8 ≤ registerStateSize := by decide
  exact all field field.mem_registerState

/-- Different fields do not overlap. -/
theorem apart {field other : RegisterField} (different : field ≠ other) :
    field.offset + 8 ≤ other.offset ∨ other.offset + 8 ≤ field.offset := by
  have all : ∀ field ∈ registerState, ∀ other ∈ registerState, field ≠ other →
      field.offset + 8 ≤ other.offset ∨ other.offset + 8 ≤ field.offset := by decide
  exact all field field.mem_registerState other other.mem_registerState different

end RegisterField

namespace Machine

/-- The address of a field of a record. -/
def fieldAddress (record : BitVec 64) (field : RegisterField) : BitVec 64 :=
  record + BitVec.ofNat 64 field.offset

/-- Offsets of fields are used from a register that holds a record. -/
theorem address_offset (state : Machine) (base : Register) (field : RegisterField) :
    state.address base field.offset = fieldAddress (state.registers base) field := rfl

/-- Storing one field leaves the others alone. -/
theorem readWord_write_field (memory : ByteMemory) (record value : BitVec 64)
    {field other : RegisterField} (different : field ≠ other) {count : Nat} (few : count ≤ 8) :
    (memory.write count (fieldAddress record field) value).readWord (fieldAddress record other) =
      memory.readWord (fieldAddress record other) := by
  have size := registerStateSize_eq
  have inside := field.offset_le
  have inside' := other.offset_le
  have apart := RegisterField.apart different
  exact readWord_write_offset memory record value (by omega) (by omega) few (by omega)

/-- A store outside the record leaves its fields alone. -/
theorem readWord_write_stack {memory : ByteMemory} {stack record : BitVec 64} {length count : Nat}
    (apart : Apart stack length record registerStateSize) (few : count ≤ length) (value : BitVec 64)
    (field : RegisterField) :
    (memory.write count stack value).readWord (fieldAddress record field) =
      memory.readWord (fieldAddress record field) := by
  apply readWord_write_apart
  intro index little covered
  refine apart _ (Nat.lt_of_lt_of_le covered few) ?_
  have size := registerStateSize_eq
  have inside := field.offset_le
  have bound := record.isLt
  simp only [Covers, fieldAddress, BitVec.toNat_sub, BitVec.toNat_add, BitVec.toNat_ofNat]
  omega

/-- A store to a field changes nothing outside the record. -/
theorem write_field_outside (memory : ByteMemory) {record addr : BitVec 64} (value : BitVec 64)
    (field : RegisterField) {count : Nat} (few : count ≤ 8)
    (outside : ¬ Covers record registerStateSize addr) :
    memory.write count (fieldAddress record field) value addr = memory addr := by
  apply write_outside
  intro covered
  apply outside
  have size := registerStateSize_eq
  have inside := field.offset_le
  have bound := record.isLt
  have bound' := addr.isLt
  simp only [Covers, fieldAddress, BitVec.toNat_sub, BitVec.toNat_add, BitVec.toNat_ofNat] at covered ⊢
  omega

/-- Storing registers into a record, one after the other. -/
def storeAll (registers : Register → BitVec 64) (record : BitVec 64) (memory : ByteMemory)
    (stored : List Register) : ByteMemory :=
  stored.foldl (fun memory register =>
    memory.write 8 (fieldAddress record (.general register)) (registers register)) memory

/-- A block of stores changes the memory only. -/
theorem run_stores (state : Machine) (stored : List Register) :
    state.run (stored.map fun register =>
      .store .rdi (RegisterField.offset (.general register)) register) =
      { state with
        memory := storeAll state.registers (state.registers .rdi) state.memory stored } := by
  -- By induction on the stores, with the memory they start from.
  induction stored generalizing state with
  | nil => rfl
  | cons first rest ih => exact ih _

/-- Nothing outside the record changes. -/
theorem storeAll_outside (registers : Register → BitVec 64) {record addr : BitVec 64}
    (memory : ByteMemory) (stored : List Register)
    (outside : ¬ Covers record registerStateSize addr) :
    storeAll registers record memory stored addr = memory addr := by
  induction stored generalizing memory with
  | nil => rfl
  | cons first rest ih =>
    rw [storeAll, List.foldl_cons]
    exact (ih _).trans (write_field_outside memory _ _ (Nat.le_refl _) outside)

/-- Fields that are not stored keep their words. -/
theorem storeAll_other (registers : Register → BitVec 64) (record : BitVec 64) (memory : ByteMemory)
    {stored : List Register} {field : RegisterField}
    (other : ∀ register ∈ stored, field ≠ .general register) :
    (storeAll registers record memory stored).readWord (fieldAddress record field) =
      memory.readWord (fieldAddress record field) := by
  induction stored generalizing memory with
  | nil => rfl
  | cons first rest ih =>
    rw [storeAll, List.foldl_cons]
    refine (ih _ fun register member => other register (List.mem_cons_of_mem _ member)).trans ?_
    exact readWord_write_field memory record _ (other first List.mem_cons_self).symm (Nat.le_refl _)

/-- Each register that is stored once is found in its field. -/
theorem storeAll_read (registers : Register → BitVec 64) (record : BitVec 64) (memory : ByteMemory)
    {stored : List Register} (nodup : stored.Nodup) {register : Register}
    (member : register ∈ stored) :
    (storeAll registers record memory stored).readWord (fieldAddress record (.general register)) =
      registers register := by
  induction stored generalizing memory with
  | nil => cases member
  | cons first rest ih =>
    obtain ⟨fresh, nodup'⟩ := List.nodup_cons.mp nodup
    rw [storeAll, List.foldl_cons]
    rcases List.mem_cons.mp member with rfl | later
    · -- Later stores go to other fields.
      refine (storeAll_other registers record _ ?_).trans (readWord_write _ _ _)
      intro other inside equal
      cases equal
      exact fresh inside
    · exact ih _ nodup' later

/-- The state of the caller has been saved. -/
structure Saved (state after : Machine) : Prop where
  /-- The registers but the accumulator have stayed. -/
  registers : ∀ register, register ≠ .rax → after.registers register = state.registers register
  /-- The general registers are in their fields. -/
  general : ∀ register, after.memory.readWord
    (fieldAddress (state.registers .rdi) (.general register)) = state.registers register
  /-- The return address is in its field. -/
  rip : after.memory.readWord (fieldAddress (state.registers .rdi) .rip) = state.top
  /-- Nothing changes outside the record and the word below the stack pointer. -/
  outside : ∀ addr, ¬ Covers (state.registers .rdi) registerStateSize addr →
    ¬ Covers (state.registers .rsp - 8#64) 8 addr → after.memory addr = state.memory addr

/-- Saving stores the registers and the return address, unless the stack overlaps the record. -/
theorem saved_run_saveOld (state : Machine)
    (apart : Apart (state.registers .rsp - 8#64) 16 (state.registers .rdi) registerStateSize) :
    state.Saved (state.run saveOld) := by
  rw [saveOld_offsets, run, List.foldl_append]
  have stores := run_stores state generalRegisters
  rw [run] at stores
  rw [stores]
  have nodup : generalRegisters.Nodup := by decide
  have every : ∀ register, register ∈ generalRegisters := by
    intro register
    cases register <;> decide
  have general := fun register => storeAll_read state.registers (state.registers .rdi) state.memory
    nodup (every register)
  have outside := fun addr (other : ¬ Covers (state.registers .rdi) registerStateSize addr) =>
    storeAll_outside state.registers state.memory generalRegisters other
  generalize storeAll state.registers (state.registers .rdi) state.memory generalRegisters = memory
    at general outside
  simp only [saveSpecial, List.foldl_cons, List.foldl_nil, step, pushWord, drop, set, top,
    address_offset, Function.update_self, ne_eq, reduceCtorEq, not_false_eq_true, Function.update_of_ne,
    readWord_write]
  have returns : memory.readWord (Machine.address { state with memory := memory } .rsp 0) =
      state.top := by
    rw [address, BitVec.add_zero, top]
    refine readWord_congr fun index little => outside _ (apart _ ?_)
    have bound := (state.registers .rsp).isLt
    simp only [Covers, BitVec.toNat_sub, BitVec.toNat_add, BitVec.toNat_ofNat]
    omega
  rw [returns]
  refine ⟨?_, ?_, ?_, ?_⟩
  · intro register different
    dsimp only
    rw [Function.update_of_ne different]
    by_cases stack : register = .rsp
    · rw [stack, Function.update_self, BitVec.sub_add_cancel]
    · rw [Function.update_of_ne stack, Function.update_of_ne stack, Function.update_of_ne different]
  · intro register
    dsimp only
    rw [readWord_write_field _ _ _ (by simp) (by decide),
      readWord_write_field _ _ _ (by simp) (by decide),
      readWord_write_field _ _ _ (by simp) (by decide), readWord_write_stack apart (by decide),
      readWord_write_field _ _ _ (by simp) (by decide)]
    exact general register
  · dsimp only
    rw [readWord_write_field _ _ _ (by simp) (by decide),
      readWord_write_field _ _ _ (by simp) (by decide),
      readWord_write_field _ _ _ (by simp) (by decide), readWord_write_stack apart (by decide),
      readWord_write]
  · intro addr away below
    dsimp only
    rw [write_field_outside _ _ _ (by decide) away, write_field_outside _ _ _ (by decide) away,
      write_field_outside _ _ _ (by decide) away, write_outside _ _ below,
      write_field_outside _ _ _ (by decide) away]
    exact outside addr away

/-- Loading registers from a record, one after the other. -/
def loadAll (registers : Register → BitVec 64) (record : BitVec 64) (memory : ByteMemory)
    (loaded : List Register) : Register → BitVec 64 :=
  loaded.foldl (fun registers register => Function.update registers register
    (memory.readWord (fieldAddress record (.general register)))) registers

/-- A block of loads changes the registers only, if it leaves the address of the record alone. -/
theorem run_loads (state : Machine) {loaded : List Register} (kept : .rsi ∉ loaded) :
    state.run (loaded.map fun register =>
      .load register .rsi (RegisterField.offset (.general register))) =
      { state with
        registers := loadAll state.registers (state.registers .rsi) state.memory loaded } := by
  -- By induction on the loads, with the registers they start from.
  induction loaded generalizing state with
  | nil => rfl
  | cons first rest ih =>
    have different : Register.rsi ≠ first := fun equal => kept (equal ▸ List.mem_cons_self)
    have rest' := ih (state.step (.load first .rsi (RegisterField.offset (.general first))))
      fun member => kept (List.mem_cons_of_mem _ member)
    rw [List.map_cons, run, List.foldl_cons]
    rw [run] at rest'
    rw [rest']
    simp only [step, set, address, Function.update_of_ne different, loadAll, List.foldl_cons,
      fieldAddress]

/-- Each loaded register has the word of its field, and the others stay. -/
theorem loadAll_read (registers : Register → BitVec 64) (record : BitVec 64) (memory : ByteMemory)
    (loaded : List Register) (register : Register) :
    loadAll registers record memory loaded register = if register ∈ loaded then
      memory.readWord (fieldAddress record (.general register)) else registers register := by
  induction loaded generalizing registers with
  | nil => rfl
  | cons first rest ih =>
    rw [loadAll, List.foldl_cons]
    refine (ih _).trans ?_
    by_cases equal : register = first
    · subst equal
      simp
    · simp [equal]

/-- The state of another process has been loaded. -/
structure Loaded (state after : Machine) : Prop where
  /-- The registers a call keeps have the words of their fields. -/
  kept : ∀ register ∈ calleeSaved, after.registers register =
    state.memory.readWord (fieldAddress (state.registers .rsi) (.general register))
  /-- So has the stack pointer. -/
  rsp : after.registers .rsp =
    state.memory.readWord (fieldAddress (state.registers .rsi) (.general .rsp))
  /-- Execution goes on at the address in the record. -/
  rip : after.rip = state.memory.readWord (fieldAddress (state.registers .rsi) .rip)
  /-- Nothing changes but the words below the old and the new stack pointer. -/
  outside : ∀ addr, ¬ Covers (state.registers .rsp - 8#64) 8 addr →
    ¬ Covers (state.memory.readWord (fieldAddress (state.registers .rsi) (.general .rsp)) - 8#64) 8
      addr → after.memory addr = state.memory addr

/-- Loading takes everything from the record, unless the old stack overlaps it. -/
theorem loaded_run_loadNew (state : Machine)
    (apart : Apart (state.registers .rsp - 8#64) 8 (state.registers .rsi) registerStateSize) :
    state.Loaded (state.run loadNew) := by
  rw [loadNew_offsets, run, List.foldl_append]
  have loads := run_loads state (show .rsi ∉ loadedRegisters by decide)
  rw [run] at loads
  rw [loads]
  have read := loadAll_read state.registers (state.registers .rsi) state.memory loadedRegisters
  have record : loadAll state.registers (state.registers .rsi) state.memory loadedRegisters .rsi =
      state.registers .rsi := by rw [read, if_neg (by decide)]
  have stack : loadAll state.registers (state.registers .rsi) state.memory loadedRegisters .rsp =
      state.registers .rsp := by rw [read, if_neg (by decide)]
  have kept : ∀ register ∈ calleeSaved,
      loadAll state.registers (state.registers .rsi) state.memory loadedRegisters register =
        state.memory.readWord (fieldAddress (state.registers .rsi) (.general register)) := by
    intro register member
    have inside : ∀ register ∈ calleeSaved, register ∈ loadedRegisters := by decide
    rw [read, if_pos (inside register member)]
  generalize loadAll state.registers (state.registers .rsi) state.memory loadedRegisters = registers
    at record stack kept
  simp only [loadSpecial, List.foldl_cons, List.foldl_nil, step, pushWord, drop, set, top,
    address_offset, Function.update_self, ne_eq, reduceCtorEq, not_false_eq_true, Function.update_of_ne,
    readWord_write, record, stack, BitVec.sub_add_cancel]
  simp only [readWord_write_stack apart (Nat.le_refl 8)]
  refine ⟨?_, ?_, ?_, ?_⟩
  · intro register member
    have saved : ∀ register ∈ calleeSaved,
        register ≠ .rax ∧ register ≠ .rsp ∧ register ≠ .rsi := by decide
    obtain ⟨notRax, notRsp, notRsi⟩ := saved register member
    dsimp only
    simp only [Function.update_of_ne notRax, Function.update_of_ne notRsp,
      Function.update_of_ne notRsi]
    exact kept register member
  · rfl
  · rfl
  · intro addr above below
    dsimp only
    rw [write_outside _ _ below, write_outside _ _ above]

/--
A call whose record to save into, record to load from and stacks do not overlap.

Below the stack pointers one word is used, and the old stack holds the return address.
-/
structure ProperCall (entry : Machine) : Prop where
  /-- There is an old process. -/
  saves : entry.registers .rdi ≠ 0#64
  /-- The records of the two processes do not overlap. -/
  records : Apart (entry.registers .rsi) registerStateSize (entry.registers .rdi) registerStateSize
  /-- The old stack does not overlap the record of the old process. -/
  oldStack : Apart (entry.registers .rsp - 8#64) 16 (entry.registers .rdi) registerStateSize
  /-- It does not overlap that of the new process. -/
  oldStack' : Apart (entry.registers .rsp - 8#64) 8 (entry.registers .rsi) registerStateSize
  /-- The new stack does not overlap the record of the old process. -/
  newStack : Apart (entry.memory.readWord
    (fieldAddress (entry.registers .rsi) (.general .rsp)) - 8#64) 8 (entry.registers .rdi)
    registerStateSize

/-- Execution goes on as after an ordinary return of the call. -/
def Resumes (entry resumed : Machine) : Prop :=
  resumed.rip = entry.top ∧
    (∀ register ∈ calleeSaved, resumed.registers register = entry.registers register) ∧
    resumed.registers .rsp = entry.registers .rsp + 8#64

/-- The fields of a record depend on its bytes. -/
theorem readWord_field_congr {memory memory' : ByteMemory} {record : BitVec 64}
    (same : ∀ addr, Covers record registerStateSize addr → memory' addr = memory addr)
    (field : RegisterField) :
    memory'.readWord (fieldAddress record field) = memory.readWord (fieldAddress record field) := by
  refine readWord_congr fun index little => same _ ?_
  have size := registerStateSize_eq
  have inside := field.offset_le
  have bound := record.isLt
  simp only [Covers, fieldAddress, BitVec.toNat_sub, BitVec.toNat_add, BitVec.toNat_ofNat]
  omega

/-- What a whole switch leaves in the record of the old process. -/
structure Switched (entry after : Machine) : Prop where
  /-- The registers of the call. -/
  general : ∀ register, after.memory.readWord
    (fieldAddress (entry.registers .rdi) (.general register)) = entry.registers register
  /-- The return address of the call. -/
  rip : after.memory.readWord (fieldAddress (entry.registers .rdi) .rip) = entry.top
  /-- The registers a call keeps are those of the new process. -/
  kept : ∀ register ∈ calleeSaved, after.registers register =
    entry.memory.readWord (fieldAddress (entry.registers .rsi) (.general register))
  /-- So is the stack pointer. -/
  rsp : after.registers .rsp =
    entry.memory.readWord (fieldAddress (entry.registers .rsi) (.general .rsp))
  /-- The new process goes on where its record says. -/
  continues : after.rip = entry.memory.readWord (fieldAddress (entry.registers .rsi) .rip)

/-- What a whole switch saves and loads. -/
theorem switched_switchContext {entry : Machine} (proper : entry.ProperCall) :
    entry.Switched (switchContext entry) := by
  rw [switchContext, if_neg proper.saves]
  -- The test of the old process changes the flags only.
  have saved := saved_run_saveOld
    { entry with rflags := testFlags entry.rflags (entry.registers .rdi) } proper.oldStack
  generalize Machine.run { entry with rflags := testFlags entry.rflags (entry.registers .rdi) }
    saveOld = middle at saved
  have stack : middle.registers .rsp = entry.registers .rsp := saved.registers .rsp (by decide)
  have record : middle.registers .rsi = entry.registers .rsi := saved.registers .rsi (by decide)
  have loaded := loaded_run_loadNew middle (by rw [stack, record]; exact proper.oldStack')
  generalize middle.run loadNew = after at loaded
  -- Saving has left the record of the new process alone.
  have fields : ∀ field, middle.memory.readWord (fieldAddress (entry.registers .rsi) field) =
      entry.memory.readWord (fieldAddress (entry.registers .rsi) field) :=
    readWord_field_congr fun addr inside => saved.outside addr (proper.records addr inside)
      fun below => proper.oldStack' addr below inside
  -- Loading has left the record of the old process alone.
  have same : ∀ addr, Covers (entry.registers .rdi) registerStateSize addr →
      after.memory addr = middle.memory addr := by
    intro addr inside
    apply loaded.outside
    · rw [stack]
      exact fun below => proper.oldStack addr (Nat.lt_trans below (by decide)) inside
    · rw [record, fields]
      exact fun below => proper.newStack addr below inside
  refine ⟨?_, ?_, ?_, ?_, ?_⟩
  · intro register
    rw [readWord_field_congr same]
    exact saved.general register
  · rw [readWord_field_congr same]
    exact saved.rip
  · intro register member
    rw [loaded.kept register member, record, fields]
  · rw [loaded.rsp, record, fields]
  · rw [loaded.rip, record, fields]

/--
A process that is switched to again goes on at the right address with the right registers.

Its stack pointer is that of the call and not that after the return, so it never resumes correctly.
-/
theorem switchContext_never_resumes {entry later : Machine} (first : entry.ProperCall)
    (second : later.ProperCall) (target : later.registers .rsi = entry.registers .rdi)
    (intact : ∀ addr, Covers (entry.registers .rdi) registerStateSize addr →
      later.memory addr = (switchContext entry).memory addr) :
    ¬ entry.Resumes (switchContext later) ∧ (switchContext later).rip = entry.top ∧
      (∀ register ∈ calleeSaved,
        (switchContext later).registers register = entry.registers register) ∧
      (switchContext later).registers .rsp = entry.registers .rsp := by
  have away := switched_switchContext first
  have back := switched_switchContext second
  -- The record still holds what the first switch has saved.
  have fields : ∀ field, later.memory.readWord (fieldAddress (later.registers .rsi) field) =
      (switchContext entry).memory.readWord (fieldAddress (entry.registers .rdi) field) := by
    intro field
    rw [target]
    exact readWord_field_congr intact field
  have stack : (switchContext later).registers .rsp = entry.registers .rsp := by
    rw [back.rsp, fields, away.general]
  refine ⟨?_, ?_, ?_, stack⟩
  · rintro ⟨-, -, moved⟩
    rw [stack] at moved
    have bound := (entry.registers .rsp).isLt
    have numbers := congrArg BitVec.toNat moved
    rw [BitVec.toNat_add, BitVec.toNat_ofNat] at numbers
    omega
  · rw [back.continues, fields, away.rip]
  · intro register member
    rw [back.kept register member, fields, away.general]

/-- Ranges that do not wrap around and follow each other. -/
theorem apart_of_le {base other : BitVec 64} {length length' : Nat}
    (order : base.toNat + length ≤ other.toNat ∧ other.toNat + length' ≤ 2 ^ 64 ∨
      other.toNat + length' ≤ base.toNat ∧ base.toNat + length ≤ 2 ^ 64) :
    Apart base length other length' := by
  intro addr inside inside'
  have bound := addr.isLt
  simp only [Covers, BitVec.toNat_sub] at inside inside'
  omega

/-- A process whose stack ends at 0x8000 calls the switch to one whose stack ends at 0x9000. -/
def switchingAway : Machine where
  registers
    | .rdi => 0x1000#64
    | .rsi => 0x2000#64
    | .rsp => 0x8000#64
    | _ => 7#64
  segments := fun _ => 8#16
  rflags := 0x202#64
  rip := 0#64
  memory := (ByteMemory.write (fun _ => 0#8) 8 0x8000#64 0x1234#64).write 8 0x2038#64 0x9000#64

/-- The other process calls the switch back. -/
def switchingBack : Machine :=
  { switchingAway.switchContext with
    registers := fun
      | .rdi => 0x2000#64
      | .rsi => 0x1000#64
      | .rsp => 0x8FF0#64
      | _ => 9#64 }

/-- Records and stacks of the two calls do not overlap. -/
theorem switching_proper : switchingAway.ProperCall ∧ switchingBack.ProperCall := by
  have away : switchingAway.memory.readWord (fieldAddress (switchingAway.registers .rsi)
      (.general .rsp)) = 0x9000#64 := by decide +kernel
  have back : switchingBack.memory.readWord (fieldAddress (switchingBack.registers .rsi)
      (.general .rsp)) = 0x8000#64 := by decide +kernel
  refine ⟨⟨by decide, ?_, ?_, ?_, ?_⟩, ⟨by decide, ?_, ?_, ?_, ?_⟩⟩
  · exact apart_of_le (by decide)
  · exact apart_of_le (by decide)
  · exact apart_of_le (by decide)
  · rw [away]
    exact apart_of_le (by decide)
  · exact apart_of_le (by decide)
  · exact apart_of_le (by decide)
  · exact apart_of_le (by decide)
  · rw [back]
    exact apart_of_le (by decide)

/-- The first process is back at its return address with the stack pointer of the call. -/
theorem switchContext_never_resumes_back :
    switchingBack.switchContext.rip = 0x1234#64 ∧
      switchingBack.switchContext.registers .rsp = 0x8000#64 := by
  have address : switchingAway.top = 0x1234#64 := by decide +kernel
  obtain ⟨-, rip, -, stack⟩ := switchContext_never_resumes switching_proper.1 switching_proper.2 rfl
    (fun _ _ => rfl)
  exact ⟨rip.trans address, stack⟩

/-- The stack pointer of that process is eight bytes too low. -/
theorem switchContext_keeps_return_slot :
    switchingAway.ProperCall ∧ switchingBack.ProperCall ∧
    switchingBack.registers .rsi = switchingAway.registers .rdi ∧
    switchingBack.memory = switchingAway.switchContext.memory ∧
    ¬ switchingAway.Resumes switchingBack.switchContext := by
  refine ⟨switching_proper.1, switching_proper.2, rfl, rfl, ?_⟩
  rintro ⟨-, -, moved⟩
  exact absurd moved (by decide +kernel)

end Machine

end Pocky
