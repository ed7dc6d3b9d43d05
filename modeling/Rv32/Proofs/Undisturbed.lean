import Rv32.Proofs.FlushingRun
import Rv32.Proofs.PreciseExceptions

/-!
# Runs in which page tables stay undisturbed

Caches may be wrong once a word changes that a walk has read. So a run is observed, together with
the words that walks have read since the caches were empty. It is undisturbed
(`Machine.Undisturbed`) if these are words of main memory, nothing but the marks of walks changes
them, and M-mode lends no level to loads and stores.
-/

namespace Rv32.Machine

/-! ## The words that walks read -/

/-- The words that are read by the walk for an access. There is no walk if the caches know the
address. -/
def walked (machine : Machine) (address : Word) (kind : AccessKind) : List Word :=
  match machine.hart.tlb.lookup address kind with
  | some _ => []
  | none => machine.pathOf address kind

/-- The machine in which the addresses of accesses have been located one after the other. -/
def locateAll : List (Word × AccessKind) → Machine → Machine
  | [], machine => machine
  | (address, kind) :: rest, machine => locateAll rest ((locate address kind).outcome machine).2

/-- The words that are read by the walks for accesses, one after the other. -/
def walkedAll : List (Word × AccessKind) → Machine → List Word
  | [], _ => []
  | (address, kind) :: rest, machine =>
    machine.walked address kind ++ walkedAll rest ((locate address kind).outcome machine).2

theorem locateAll_append (first rest : List (Word × AccessKind)) (machine : Machine) :
    locateAll (first ++ rest) machine = locateAll rest (locateAll first machine) := by
  induction first generalizing machine with
  | nil => rfl
  | cons access first ih => exact ih _

theorem walkedAll_append (first rest : List (Word × AccessKind)) (machine : Machine) :
    walkedAll (first ++ rest) machine =
      walkedAll first machine ++ walkedAll rest (locateAll first machine) := by
  induction first generalizing machine with
  | nil => rfl
  | cons access first ih =>
      refine (congrArg (machine.walked access.1 access.2 ++ ·) (ih _)).trans ?_
      exact (List.append_assoc ..).symm

theorem aligned_of_mem_walkedAll {accesses : List (Word × AccessKind)} {machine : Machine}
    {location : Word} (member : location ∈ walkedAll accesses machine) :
    Width.word.Aligned location := by
  induction accesses generalizing machine with
  | nil => cases member
  | cons access rest ih =>
      rcases List.mem_append.1 member with here | later
      · unfold walked at here
        split at here
        · cases here
        · exact aligned_of_mem_pathOf here
      · exact ih later

/-! ## Turns -/

/-- The accesses by which the next instruction is fetched. -/
def fetches (machine : Machine) : List (Word × AccessKind) :=
  if Width.half.Aligned machine.hart.pc then
    machine.fetchedFrom.map fun address => (address, .fetch)
  else []

/-- The accesses of the next instruction: those by which it is fetched, and its own. -/
def nextAccesses (machine : Machine) : List (Word × AccessKind) :=
  machine.fetches ++
    (machine.nextInstruction.bind fun instruction => instruction.access machine.hart).toList

/-- The accesses of a turn. An interrupt makes none. -/
def turnAccesses (machine : Machine) : List (Word × AccessKind) :=
  match machine.hart.nextInterrupt with
  | some _ => []
  | none => machine.counted.nextAccesses

/-- The words that walks read in a turn. -/
def turnReads (machine : Machine) : List Word := walkedAll machine.turnAccesses machine.counted

/-- The machine in the midst of a turn, when all addresses have been located. Up to there walks
alone have changed memory, and from there on the program does. -/
def turnLocated (machine : Machine) : Machine := locateAll machine.turnAccesses machine.counted

/-- In this turn walks read words of main memory only, and neither these words nor those seen before
are changed by the program. -/
structure Calm (seen : List Word) (machine : Machine) : Prop where
  own : machine.hart.status.mprv = false
  inMemory : ∀ location ∈ machine.turnReads, machine.bus.InMemory location
  unmodified : ∀ location ∈ seen ++ machine.turnReads,
    (cycle.outcome machine).2.bus.word location = machine.turnLocated.bus.word location

/-! ## Runs -/

/-- Of the words that walks have read, those that still matter: none once the caches were emptied.
-/
def remembers (machine : Machine) (seen : List Word) : List Word :=
  if machine.hart.tlb = .empty then [] else seen

theorem mem_of_mem_remembers {machine : Machine} {seen : List Word} {location : Word}
    (member : location ∈ machine.remembers seen) : location ∈ seen := by
  unfold remembers at member
  split at member
  · cases member
  · exact member

/-- From this machine on, in which walks have read the words in `seen`, all turns that a sequence of
requests makes are calm. -/
inductive Undisturbed : (seen : List Word) → Machine → List Request → Prop
  | done {seen : List Word} {machine : Machine} : Undisturbed seen machine []
  | acted {seen : List Word} {machine : Machine} {requests : List Request} (action : HostAction)
      (rest : Undisturbed ((action.apply machine).remembers seen) (action.apply machine) requests) :
      Undisturbed seen machine (.act action :: requests)
  | ran {seen : List Word} {machine : Machine} {requests : List Request}
      (rest : Undisturbed seen machine requests) : Undisturbed seen machine (.step 0 :: requests)
  | idled {seen : List Word} {machine : Machine} {requests : List Request} {budget : Nat}
      (halted : machine.hart.halted = true)
      (rest : Undisturbed seen (machine.idle (budget + 1)) requests) :
      Undisturbed seen machine (.step (budget + 1) :: requests)
  | turned {seen : List Word} {machine after : Machine} {requests : List Request} {budget : Nat}
      {cost : Cost} (running : machine.hart.halted = false) (calm : Calm seen machine)
      (turn : cycle.outcome machine = (cost, after))
      (rest : Undisturbed (after.remembers (seen ++ machine.turnReads)) after
        (.step (cost.left budget) :: requests)) :
      Undisturbed seen machine (.step (budget + 1) :: requests)

end Rv32.Machine
