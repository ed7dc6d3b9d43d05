import Rv32.Translation.Tlb

/-!
# Page-table entries

The entries of Sv32 page tables: two levels of tables, each of 1024 words. An entry is a pointer to
a table of the level below, or a leaf that maps a page, whose bits say who may access it and how.
-/

namespace Rv32

/-- A word in a page table. -/
structure PageTableEntry where
  bits : Word
deriving DecidableEq, Repr

namespace PageTableEntry

def valid (entry : PageTableEntry) : Bool := entry.bits.getLsbD 0
def readable (entry : PageTableEntry) : Bool := entry.bits.getLsbD 1
def writable (entry : PageTableEntry) : Bool := entry.bits.getLsbD 2
def executable (entry : PageTableEntry) : Bool := entry.bits.getLsbD 3

/-- Whether the page belongs to U-mode. -/
def user (entry : PageTableEntry) : Bool := entry.bits.getLsbD 4

/-- The number of the page mapped or of the table pointed to. -/
def page (entry : PageTableEntry) : BitVec 22 := entry.bits.extractLsb' 10 22

/-- Whether the entry means anything: no page is writable but not readable. -/
def wellFormed (entry : PageTableEntry) : Bool :=
  entry.valid && !(entry.writable && !entry.readable)

/-- Whether the entry points to a table of the level below. -/
def isPointer (entry : PageTableEntry) : Bool := !entry.readable && !entry.executable

/-- Whether code at a level may use the page. S-mode never executes the pages of U-mode, and
reaches their data only while `sum` is set. -/
def permitsLevel (entry : PageTableEntry) (level : Privilege) (kind : AccessKind) (sum : Bool) :
    Bool :=
  match level with
  | .user => entry.user
  | .supervisor => !entry.user || (kind != .fetch && sum)
  | .machine => true

/-- Whether the page may be used in this way. While `mxr` is set, what can be executed can be
read. -/
def permitsKind (entry : PageTableEntry) (kind : AccessKind) (mxr : Bool) : Bool :=
  match kind with
  | .fetch => entry.executable
  | .load => entry.readable || (mxr && entry.executable)
  | .store => entry.writable

/-- The bits that an access leaves in the leaf it uses: accessed, and dirty if it is a store. -/
def usageBits : AccessKind → Word
  | .store => 0xC0
  | _ => 0x40

/-- The leaf after an access. -/
def used (entry : PageTableEntry) (kind : AccessKind) : PageTableEntry :=
  ⟨entry.bits ||| usageBits kind⟩

/-- The physical address of a page, cut to 32 bits. -/
def pageBase (page : BitVec 22) : Word := page.setWidth 32 <<< 12

/-- The address that a leaf gives to a virtual one, when `offsetBits` bits of that are kept. -/
def translate (entry : PageTableEntry) (address : Word) (offsetBits : Nat) : Word :=
  let offsetMask : Word := 1 <<< offsetBits - 1
  pageBase entry.page &&& ~~~offsetMask ||| address &&& offsetMask

end PageTableEntry

end Rv32
