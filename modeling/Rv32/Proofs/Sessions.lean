import Rv32.Proofs.Turns

/-!
# Sessions of a host

A host drives a machine by calls. `Machine.session` is any sequence of them, with the answers that
the host gets. What each of the calls keeps, the session keeps (`Machine.session_keeps`).
-/

namespace Rv32

/-- What a host can call: besides what it asks of a machine, it may look at registers and set them,
and use the bus itself. Its changes to devices are as it likes. -/
inductive HostCall where
  | serve (request : Request)
  | readCsr (address : CsrAddress)
  | checkCsr (address : CsrAddress) (writes : Bool)
  | setX (register : Reg) (value : Word)
  | setPc (pc : Word)
  | setClock (time : DoubleWord)
  | load (address : Word) (width : Width)
  | store (address value : Word) (width : Width)
  | readRegion (region : Region) (offset : Word) (width : Width)
  | writeRegion (region : Region) (offset value : Word) (width : Width)
  | markDirty (region : Region) (offset : Word)
  | findRegion (address : Word)
  | writeBytes (address : Word) (bytes : List Byte)
  | readBytes (address : Word) (count : Nat)
  | modifyDevice (number : Nat) (change : Device → Device)

/-- What a host gets back. -/
inductive HostAnswer where
  | done
  | word (value : Word)
  | bytes (bytes : List Byte)
  | region (found : Option Region)
  | attached (number : Nat)
  | overlaps (refusal : OverlappingRange)
  | csrRefused (refusal : CsrError)
  | snapshotRefused (refusal : SnapshotError)
deriving DecidableEq

namespace HostAction

/-- What the host gets back from an action. -/
def answer (action : HostAction) (machine : Machine) : HostAnswer :=
  match action with
  | .writeCsr address value =>
    match machine.hart.writeAddress address value with
    | .ok _ => .done
    | .error refusal => .csrRefused refusal
  | .restore snapshot =>
    match machine.hart.restore snapshot with
    | .ok _ => .done
    | .error refusal => .snapshotRefused refusal
  | .attach range device =>
    match machine.bus.attach range device with
    | .ok (number, _) => .attached number
    | .error refusal => .overlaps refusal
  | _ => .done

end HostAction

namespace HostCall

/-- What the host gets back from a call. -/
def answer (call : HostCall) (machine : Machine) : HostAnswer :=
  match call with
  | .serve (.act action) => action.answer machine
  | .readCsr address =>
    match machine.hart.readAddress address with
    | .ok value => .word value
    | .error refusal => .csrRefused refusal
  | .checkCsr address writes =>
    match machine.hart.checkCsr address writes with
    | .ok () => .done
    | .error refusal => .csrRefused refusal
  | .load address width => .word (machine.bus.load address width).1
  | .readRegion region offset width => .word (machine.bus.read region offset width).1
  | .findRegion address => .region (machine.bus.findRegion address)
  | .readBytes address count => .bytes (machine.bus.readBytes address count).1
  | _ => .done

/-- The machine after a call. -/
def apply (call : HostCall) (machine : Machine) : Machine :=
  match call with
  | .serve request => request.serve (fun cycles machine => (machine.run cycles).value) machine
  | .setX register value => { machine with hart := machine.hart.setX register value }
  | .setPc pc => { machine with hart := machine.hart.withPc pc }
  | .setClock time => { machine with hart := machine.hart.setClock time }
  | .load address width => { machine with bus := (machine.bus.load address width).2 }
  | .store address value width => { machine with bus := machine.bus.store address value width }
  | .readRegion region offset width =>
    { machine with bus := (machine.bus.read region offset width).2 }
  | .writeRegion region offset value width =>
    { machine with bus := machine.bus.write region offset value width }
  | .markDirty region offset => { machine with bus := machine.bus.markDirty region offset }
  | .writeBytes address bytes => { machine with bus := machine.bus.writeBytes address bytes }
  | .readBytes address count => { machine with bus := (machine.bus.readBytes address count).2 }
  | .modifyDevice number change => { machine with bus := machine.bus.modifyDevice number change }
  | .readCsr _ | .checkCsr _ _ | .findRegion _ => machine

end HostCall

namespace Machine

/-- The answers to a sequence of calls, and the machine after it. -/
def session : List HostCall → Machine → List HostAnswer × Machine
  | [], machine => ([], machine)
  | call :: rest, machine =>
    let (answers, last) := session rest (call.apply machine)
    (call.answer machine :: answers, last)

/-- What every call of a kind keeps, a session of such calls keeps. -/
theorem session_keeps (kept : Machine → Prop) {admitted : HostCall → Prop}
    (calls : ∀ call machine, admitted call → kept machine → kept (call.apply machine))
    {made : List HostCall} (all : ∀ call ∈ made, admitted call) {machine : Machine}
    (start : kept machine) : kept (session made machine).2 := by
  induction made generalizing machine with
  | nil => exact start
  | cons call rest ih =>
      have first := calls call machine (all call List.mem_cons_self) start
      exact ih (fun call later => all call (List.mem_cons_of_mem _ later)) first

end Machine

end Rv32
