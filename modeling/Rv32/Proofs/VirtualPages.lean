import Rv32.Proofs.PageWalk

/-!
# Pages

Addresses in one virtual page take the same way through the page tables, to one leaf, and differ in
the offset within the physical page only. So a cache may keep translations of pages in place of
translations of addresses.
-/

namespace Rv32

/-! ## Addresses and their pages -/

theorem getLsbD_pageOf (address : Word) (bit : Nat) :
    (pageOf address).getLsbD bit = address.getLsbD (12 + bit) := by
  unfold pageOf
  rw [BitVec.getLsbD_extractLsb']
  by_cases inside : bit < 20
  · rw [decide_eq_true inside, Bool.true_and]
  · rw [decide_eq_false inside, Bool.false_and, BitVec.getLsbD_of_ge _ _ (by omega)]

theorem getLsbD_pageOffset (address : Word) (bit : Nat) :
    (pageOffset address).getLsbD bit = (decide (bit < 12) && address.getLsbD bit) :=
  BitVec.getLsbD_setWidth ..

theorem getLsbD_pageAddress (page : PageNumber) (offset : BitVec 12) (bit : Nat) :
    (pageAddress page offset).getLsbD bit =
      if bit < 12 then offset.getLsbD bit else page.getLsbD (bit - 12) :=
  BitVec.getLsbD_append

/-- An address lies at its offset in its page. -/
theorem pageAddress_pageOf (address : Word) :
    pageAddress (pageOf address) (pageOffset address) = address := by
  refine BitVec.eq_of_getLsbD_eq fun bit inside => ?_
  rw [getLsbD_pageAddress]
  split
  · rename_i low
    rw [getLsbD_pageOffset, decide_eq_true low, Bool.true_and]
  · rw [getLsbD_pageOf]
    congr 1
    omega

/-- Addresses in one page agree in all bits above the offset. -/
theorem getLsbD_eq_of_pageOf {address other : Word} (same : pageOf other = pageOf address)
    {bit : Nat} (above : 12 ≤ bit) : other.getLsbD bit = address.getLsbD bit := by
  have bits : (pageOf other).getLsbD (bit - 12) = (pageOf address).getLsbD (bit - 12) := by
    rw [same]
  rw [getLsbD_pageOf, getLsbD_pageOf] at bits
  have place : 12 + (bit - 12) = bit := by omega
  rwa [place] at bits

/-! ## What a leaf keeps of an address -/

theorem getLsbD_offsetMask {offsetBits : Nat} (small : offsetBits < 32) (bit : Nat) :
    (1 <<< offsetBits - 1 : Word).getLsbD bit = decide (bit < offsetBits) := by
  have one : (1 : Word).toNat = 1 := rfl
  have power : (1 <<< offsetBits : Word).toNat = 2 ^ offsetBits := by
    change 1 <<< offsetBits % 2 ^ 32 = 2 ^ offsetBits
    rw [Nat.one_shiftLeft]
    exact Nat.mod_eq_of_lt (Nat.pow_lt_pow_right (by decide) small)
  have positive : (1 : Word) ≤ 1 <<< offsetBits := by
    rw [BitVec.le_def, one, power]
    exact Nat.one_le_two_pow
  rw [← BitVec.testBit_toNat, BitVec.toNat_sub_of_le positive, power, one]
  exact Nat.testBit_two_pow_sub_one ..

theorem getLsbD_translate (entry : PageTableEntry) (address : Word) {offsetBits bit : Nat}
    (small : offsetBits < 32) (inside : bit < 32) :
    (entry.translate address offsetBits).getLsbD bit =
      if bit < offsetBits then address.getLsbD bit
      else (PageTableEntry.pageBase entry.page).getLsbD bit := by
  unfold PageTableEntry.translate
  rw [BitVec.getLsbD_or, BitVec.getLsbD_and, BitVec.getLsbD_and, BitVec.getLsbD_not,
    getLsbD_offsetMask small, decide_eq_true inside]
  split
  · rename_i offset
    rw [decide_eq_true offset, Bool.not_true, Bool.and_false, Bool.and_false, Bool.false_or,
      Bool.and_true]
  · rename_i above
    rw [decide_eq_false above, Bool.not_false, Bool.and_true, Bool.and_true, Bool.and_false,
      Bool.or_false]

/-! ## The way of a page -/

section SamePage

variable {address other : Word} (same : pageOf other = pageOf address)

include same

namespace Machine

/-- The index into a table lies above the offset in the page. -/
theorem entryAddress_eq_of_pageOf (table : Word) (level : Nat) :
    entryAddress table other level = entryAddress table address level := by
  have index :
      other.extractLsb' (levelShift level) 10 = address.extractLsb' (levelShift level) 10 := by
    refine BitVec.eq_of_getLsbD_eq fun bit inside => ?_
    have above : 12 ≤ levelShift level + bit := by
      unfold levelShift
      omega
    rw [BitVec.getLsbD_extractLsb', BitVec.getLsbD_extractLsb', getLsbD_eq_of_pageOf same above]
  unfold entryAddress
  rw [index]

end Machine

namespace Bus

theorem walkPath_eq_of_pageOf (bus : Bus) (levels : Nat) (table : Word) :
    bus.walkPath other levels table = bus.walkPath address levels table := by
  induction levels generalizing table with
  | zero => rfl
  | succ level ih =>
      unfold walkPath
      rw [Machine.entryAddress_eq_of_pageOf same]
      dsimp only
      rw [ih]

theorem findLeaf_eq_of_pageOf (bus : Bus) (allowed : PageTableEntry → Bool) (levels : Nat)
    (table : Word) :
    bus.findLeaf other allowed levels table = bus.findLeaf address allowed levels table := by
  induction levels generalizing table with
  | zero => rfl
  | succ level ih =>
      unfold findLeaf
      rw [Machine.entryAddress_eq_of_pageOf same]
      dsimp only
      rw [ih]

end Bus

namespace Machine

/-- Addresses in one page are translated along the same way. -/
theorem pathOf_eq_of_pageOf (machine : Machine) (kind : AccessKind) :
    machine.pathOf other kind = machine.pathOf address kind := by
  unfold pathOf
  rw [Bus.walkPath_eq_of_pageOf same]

/-- Addresses in one page are translated by the same leaf. -/
theorem leafOf_eq_of_pageOf (machine : Machine) (kind : AccessKind) :
    machine.leafOf other kind = machine.leafOf address kind := by
  unfold leafOf
  rw [Bus.findLeaf_eq_of_pageOf same]

end Machine

/-! ## The page behind a leaf -/

/-- A leaf leads from one virtual page to one physical page. -/
theorem Leaf.physical_eq_of_pageOf (leaf : Leaf) (low : leaf.level < 2) :
    leaf.physical other = pageAddress (pageOf (leaf.physical address)) (pageOffset other) := by
  have atLeast : 12 ≤ Machine.levelShift leaf.level := Nat.le_add_right ..
  have small : Machine.levelShift leaf.level < 32 := by
    unfold Machine.levelShift
    omega
  refine BitVec.eq_of_getLsbD_eq fun bit inside => ?_
  unfold physical
  rw [getLsbD_pageAddress, getLsbD_translate _ _ small inside]
  by_cases offset : bit < 12
  · rw [if_pos offset, if_pos (Nat.lt_of_lt_of_le offset atLeast), getLsbD_pageOffset,
      decide_eq_true offset, Bool.true_and]
  · have place : 12 + (bit - 12) = bit := by omega
    rw [if_neg offset, getLsbD_pageOf, place, getLsbD_translate _ _ small inside,
      getLsbD_eq_of_pageOf same (Nat.not_lt.1 offset)]

end SamePage

end Rv32
