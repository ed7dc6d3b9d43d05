import Rv32.Hart

/-!
# Entering and leaving traps

A trap is handled in S-mode if its cause is delegated and the hart does not run in M-mode, else in
M-mode. Entering it saves where the hart was, closes interrupts at the level entered and goes to
the handler; the return instructions undo this.
-/

namespace Rv32

/-- What a trap into S-mode does to the status: the level left and the open interrupts move into
the fields that remember them. -/
def Status.enterSupervisor (status : Status) (left : Privilege) : Status :=
  { status.setSppCode left.code with spie := status.sie, sie := false }

/-- What a trap into M-mode does to the status. -/
def Status.enterMachine (status : Status) (left : Privilege) : Status :=
  { status with mpp := left, mpie := status.mie, mie := false }

/-- What a return from S-mode does to the status. -/
def Status.leaveSupervisor (status : Status) : Status :=
  { status with sie := status.spie, spie := true, spp := false }

/-- What a return from M-mode does to the status. -/
def Status.leaveMachine (status : Status) : Status :=
  { status with mie := status.mpie, mpie := true, mpp := .user }

namespace Hart

/-- Whether a trap for this cause is handled in S-mode. -/
def delegates (hart : Hart) (cause : Cause) : Bool :=
  hart.privilege ≤ .supervisor &&
    match cause with
    | .exception raised => hart.setup.delegated raised
    | .interrupt taken => hart.interrupts.delegated taken

/-- Enter the handler of a trap, which takes a cycle. -/
def enterTrap (hart : Hart) (cause : Cause) : Logged Hart := do
  let delegated := hart.delegates cause
  let pc := hart.pc
  Logged.report (.trapped cause pc hart.privilege delegated)
  let hart := { hart with mcycle := hart.mcycle + 1 }
  if delegated then
    let saved :=
      { hart with
        supervisorTrap := hart.supervisorTrap.enter pc cause
        status := hart.status.enterSupervisor hart.privilege }
    let entered ← saved.setPrivilege .supervisor
    pure (entered.withPc (entered.setup.stvec.handler cause))
  else
    let saved :=
      { hart with
        machineTrap := hart.machineTrap.enter pc cause
        status := hart.status.enterMachine hart.privilege }
    let entered ← saved.setPrivilege .machine
    pure (entered.withPc (entered.setup.mtvec.handler cause))

/-- Go back to `pc` at a level. Below M-mode, the level of loads and stores is the hart's own. -/
def returnTo (hart : Hart) (level : Privilege) (pc : Word) : Logged Hart := do
  let hart ←
    if level ≠ .machine ∧ hart.status.mprv = true then
      flush { hart with status := { hart.status with mprv := false } }
    else pure hart
  let returned ← hart.setPrivilege level
  pure (returned.withPc pc)

/-- Leave a trap that was handled in M-mode. -/
def returnFromMachine (hart : Hart) : Logged Hart :=
  returnTo { hart with status := hart.status.leaveMachine } hart.status.mpp
    hart.machineTrap.epc.bits

/-- Leave a trap that was handled in S-mode. -/
def returnFromSupervisor (hart : Hart) : Logged Hart :=
  returnTo { hart with status := hart.status.leaveSupervisor } hart.status.sppLevel
    hart.supervisorTrap.epc.bits

/-- Whether an instruction of S-mode is allowed, when `trapped` says that it traps there. It is
allowed in M-mode always and in U-mode never. -/
def allowsSupervisor (hart : Hart) (trapped : Bool) : Bool :=
  match hart.privilege with
  | .machine => true
  | .supervisor => !trapped
  | .user => false

/-- The interrupt to take now. -/
def nextInterrupt (hart : Hart) : Option Interrupt :=
  hart.interrupts.next hart.privilege hart.status

end Hart

end Rv32
