import Rv32.Csr.Warl

/-!
# The translation register

`satp` turns translation on and names the root of the page tables. Address spaces are not told
apart, so the field that would number them is always zero.
-/

namespace Rv32

/-- The bits of `satp`: the mode and the page number. -/
def satpBits : Word := 0x803FFFFF

abbrev Satp := Warl satpBits

namespace Satp

/-- Whether addresses are translated. -/
def translates (satp : Satp) : Bool := satp.bits.getLsbD 31

/-- The number of the page that holds the root page table. -/
def rootPage (satp : Satp) : BitVec 22 := satp.bits.setWidth 22

end Satp

end Rv32
