import Rv32.Hart.Csr
import Rv32.Hart.Trap
import Rv32.Instruction.Arithmetic
import Rv32.Instruction.Compressed
import Rv32.Machine.Memory

/-!
# Execution of instructions

`Machine.execute` does what one decoded instruction says. It is told the length of the instruction,
which decides where the program goes on and what a jump links to, and the instruction as it was
fetched, which is reported if it turns out to be illegal.
-/

namespace Rv32.Machine

/-- Write a register and go on. -/
def finish (rd : Reg) (value length : Word) : Effect Unit :=
  modifyHart fun hart => (hart.setX rd value).advance length

/-- Refuse an instruction that is not allowed. -/
def require (allowed : Bool) (raw : Word) : Attempt Unit :=
  if allowed then pure () else throw (.illegalInstruction raw)

/-- Read a control and status register into `rd` if `reads` is set, and write what `change` makes of
the old value if `writes` is set. -/
def accessCsr (rd : Reg) (address : CsrAddress) (reads writes : Bool) (change : Word → Word)
    (raw length : Word) : Attempt Unit := do
  let hart ← getHart
  match hart.checkCsr address writes, Csr.ofAddress? address with
  | .ok (), some register =>
    let old := if reads then hart.readCsr register else 0
    if writes then updateHart fun hart => hart.writeCsr register (change old)
    finish rd old length
  | _, _ => throw (.illegalInstruction raw)

/-- Wait for an interrupt, unless one is pending and enabled already. -/
def waitForInterrupt (length : Word) : Effect Unit := do
  let hart ← getHart
  if hart.interrupts.pendingEnabled = 0 then
    if hart.interrupts.mie.bits = 0 then report (.sleepsForever hart.pc)
    modifyHart fun hart => { hart with halted := true }
  modifyHart fun hart => hart.advance length

/-- Carry out an instruction. -/
def execute (instruction : Instruction) (raw length : Word) : Attempt Unit := do
  let hart ← getHart
  match instruction with
  | .opImm op rd rs1 imm => finish rd (op.eval (hart.x rs1) (imm.signExtend 32)) length
  | .shiftImm op rd rs1 shamt => finish rd (op.eval (hart.x rs1) shamt) length
  | .auipc rd imm => finish rd (hart.pc + Instruction.upper imm) length
  | .lui rd imm => finish rd (Instruction.upper imm) length
  | .opReg op rd rs1 rs2 => finish rd (op.eval (hart.x rs1) (hart.x rs2)) length
  | .jal rd offset =>
    let target := hart.pc + Instruction.distance offset
    modifyHart fun hart => (hart.setX rd (hart.pc + length)).withPc target
  | .jalr rd rs1 offset =>
    let target := (hart.x rs1 + offset.signExtend 32) &&& ~~~1
    modifyHart fun hart => (hart.setX rd (hart.pc + length)).withPc target
  | .branch condition rs1 rs2 offset =>
    let distance :=
      if condition.holds (hart.x rs1) (hart.x rs2) then Instruction.distance offset else length
    modifyHart fun hart => hart.advance distance
  | .load op rd rs1 offset =>
    let value ← load (hart.x rs1 + offset.signExtend 32) op.width
    finish rd (op.extend value) length
  | .store width rs2 rs1 offset =>
    store (hart.x rs1 + offset.signExtend 32) (hart.x rs2) width
    modifyHart fun hart => hart.advance length
  | .fence _ _ => modifyHart fun hart => hart.advance length
  | .fenceI => modifyHart fun hart => hart.advance length
  | .csr op rd number rs1 =>
    let reads := op != .readWrite || rd != Reg.zero
    let writes := op = .readWrite || rs1 != Reg.zero
    accessCsr rd (number.setWidth 16) reads writes (fun old => op.eval old (hart.x rs1)) raw length
  | .csrImm op rd number imm =>
    let reads := op != .readWrite || rd != Reg.zero
    let writes := op = .readWrite || imm != 0
    accessCsr rd (number.setWidth 16) reads writes (fun old => op.eval old (imm.setWidth 32)) raw
      length
  | .loadReserved rd rs1 =>
    let value ← loadReserved (hart.x rs1)
    finish rd value length
  | .storeConditional rd rs1 rs2 =>
    let stored ← storeConditional (hart.x rs1) (hart.x rs2)
    finish rd (boolWord !stored) length
  | .amo op rd rs1 rs2 =>
    let old ← atomicUpdate (hart.x rs1) fun old => op.eval old (hart.x rs2)
    finish rd old length
  | .ecall => throw (Exception.environmentCall hart.privilege)
  | .ebreak => throw .breakpoint
  | .sret =>
    require (hart.allowsSupervisor hart.status.tsr) raw
    updateHart fun hart => hart.returnFromSupervisor
  | .mret =>
    require (hart.privilege = .machine) raw
    updateHart fun hart => hart.returnFromMachine
  | .wfi =>
    require (hart.allowsSupervisor hart.status.tw) raw
    waitForInterrupt length
  | .sfenceVma _ _ =>
    require (hart.allowsSupervisor hart.status.tvm) raw
    updateHart fun hart => hart.flush
    modifyHart fun hart => hart.advance length

end Rv32.Machine
