import Rv32.Proofs.Accesses

/-!
# What an access leaves alone in the hart

Two harts are equal modulo their caches (`Hart.EqModTlb`), modulo what an access to memory may
change (`Hart.EqModAccess`) or modulo what an ordinary instruction may change
(`Hart.EqModProgram`): in this order the relations grow weaker. Every access to memory, also one
that fails, stays within the first or the second of them.
-/

namespace Rv32

namespace Hart

/-- The harts differ at most in what their caches hold. -/
def EqModTlb (first second : Hart) : Prop := ∃ tlb, second = { first with tlb := tlb }

/-- The harts differ at most in their caches and in the reservation. -/
def EqModAccess (first second : Hart) : Prop :=
  ∃ tlb reservation, second = { first with tlb := tlb, reservation := reservation }

/-- The harts differ at most in their registers, their caches and the reservation. -/
def EqModProgram (first second : Hart) : Prop :=
  ∃ registers tlb reservation,
    second = { first with registers := registers, tlb := tlb, reservation := reservation }

namespace EqModTlb

variable {first second third : Hart}

theorem refl (hart : Hart) : hart.EqModTlb hart := ⟨hart.tlb, rfl⟩

theorem trans (left : first.EqModTlb second) (right : second.EqModTlb third) :
    first.EqModTlb third := by
  obtain ⟨tlb, rfl⟩ := left
  obtain ⟨tlb', rfl⟩ := right
  exact ⟨tlb', rfl⟩

theorem access (same : first.EqModTlb second) : first.EqModAccess second := by
  obtain ⟨tlb, rfl⟩ := same
  exact ⟨tlb, first.reservation, rfl⟩

theorem of_common (left : first.EqModTlb second) (right : first.EqModTlb third) :
    second.EqModTlb third := by
  obtain ⟨tlb, rfl⟩ := left
  obtain ⟨tlb', rfl⟩ := right
  exact ⟨tlb', rfl⟩

/-- What does not look at the caches is the same in both. -/
theorem apply {α : Type} {f : Hart → α}
    (blind : ∀ (hart : Hart) (tlb : Tlb), f { hart with tlb := tlb } = f hart)
    (same : first.EqModTlb second) : f second = f first := by
  obtain ⟨tlb, rfl⟩ := same
  exact blind first tlb

end EqModTlb

namespace EqModAccess

variable {first second third : Hart}

theorem refl (hart : Hart) : hart.EqModAccess hart := ⟨hart.tlb, hart.reservation, rfl⟩

theorem trans (left : first.EqModAccess second) (right : second.EqModAccess third) :
    first.EqModAccess third := by
  obtain ⟨tlb, reservation, rfl⟩ := left
  obtain ⟨tlb', reservation', rfl⟩ := right
  exact ⟨tlb', reservation', rfl⟩

theorem pc (same : first.EqModAccess second) : second.pc = first.pc := by
  obtain ⟨_, _, rfl⟩ := same
  rfl

theorem program (same : first.EqModAccess second) : first.EqModProgram second := by
  obtain ⟨tlb, reservation, rfl⟩ := same
  exact ⟨first.registers, tlb, reservation, rfl⟩

end EqModAccess

namespace EqModProgram

variable {first second third : Hart}

theorem trans (left : first.EqModProgram second) (right : second.EqModProgram third) :
    first.EqModProgram third := by
  obtain ⟨registers, tlb, reservation, rfl⟩ := left
  obtain ⟨registers', tlb', reservation', rfl⟩ := right
  exact ⟨registers', tlb', reservation', rfl⟩

/-- Writing a register and going on changes nothing but registers. -/
theorem setX_advance (hart : Hart) (rd : Reg) (value length : Word) :
    hart.EqModProgram ((hart.setX rd value).advance length) :=
  ⟨((hart.setX rd value).advance length).registers, hart.tlb, hart.reservation, rfl⟩

end EqModProgram

end Hart

namespace Machine

/-- From one machine to the other the hart kept everything. -/
def HartKept (before after : Machine) : Prop := after.hart = before.hart

/-- From one machine to the other the hart kept everything but its caches. -/
def HartCached (before after : Machine) : Prop := before.hart.EqModTlb after.hart

/-- From one machine to the other the hart kept everything but its caches and the reservation. -/
def HartAccessed (before after : Machine) : Prop := before.hart.EqModAccess after.hart

theorem HartKept.refl (machine : Machine) : machine.HartKept machine := rfl

theorem HartKept.trans (first second third : Machine) (left : first.HartKept second)
    (right : second.HartKept third) : first.HartKept third :=
  Eq.trans right left

theorem HartKept.cached {before after : Machine} (kept : before.HartKept after) :
    before.HartCached after :=
  ⟨before.hart.tlb, kept⟩

theorem HartCached.refl (machine : Machine) : machine.HartCached machine :=
  Hart.EqModTlb.refl machine.hart

theorem HartCached.trans (first second third : Machine) (left : first.HartCached second)
    (right : second.HartCached third) : first.HartCached third :=
  Hart.EqModTlb.trans left right

theorem HartAccessed.refl (machine : Machine) : machine.HartAccessed machine :=
  Hart.EqModAccess.refl machine.hart

theorem HartAccessed.trans (first second third : Machine) (left : first.HartAccessed second)
    (right : second.HartAccessed third) : first.HartAccessed third :=
  Hart.EqModAccess.trans left right

/-! ## Translation -/

theorem markUsed_hartKept (location : Word) (entry : PageTableEntry) (kind : AccessKind) :
    (markUsed location entry kind).Within HartKept := by
  intro machine
  unfold markUsed
  rw [Effect.outcome_ite]
  split <;> rfl

theorem translate_hartKept (address : Word) (kind : AccessKind) :
    (translate address kind).Within HartKept :=
  translate_within .refl .trans (fun _ _ => rfl) (fun _ _ => markUsed_hartKept _) address kind

theorem locate_hartCached (address : Word) (kind : AccessKind) :
    (locate address kind).Within HartCached :=
  locate_within .refl .trans (fun machine => (translate_hartKept address kind machine).cached)
    fun _ _ _ _ => ⟨_, rfl⟩

/-! ## Accesses -/

theorem readLocated_hartKept (physical : Word) (region? : Option Region) (width : Width) :
    (readLocated physical region? width).Within HartKept := by
  intro machine
  cases region? <;> rfl

theorem writeLocated_hartKept (physical : Word) (region? : Option Region) (value : Word)
    (width : Width) : (writeLocated physical region? value width).Within HartKept := by
  intro machine
  cases region? <;> rfl

theorem fetch_hartCached : fetch.Within HartCached :=
  fetch_within .refl .trans (locate_hartCached · .fetch)
    fun physical region? width machine =>
      (readLocated_hartKept physical region? width machine).cached

/-- Accesses of all kinds keep the hart apart from its caches and the reservation. -/
theorem hartAccessed_respects : Respects HartAccessed where
  refl := .refl
  trans := .trans
  locate := fun address kind machine => (locate_hartCached address kind machine).access
  read := fun physical region? width machine =>
    (readLocated_hartKept physical region? width machine).cached.access
  write := fun physical region? value width machine =>
    (writeLocated_hartKept physical region? value width machine).cached.access
  reserve := fun machine reservation => ⟨machine.hart.tlb, reservation, rfl⟩

end Machine

end Rv32
