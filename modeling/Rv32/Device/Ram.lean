import Rv32.Word

/-!
# Main memory

`Ram` is a string of bytes that starts out as zeros and remembers, in pages of 4 KiB, where the
machine wrote. `Ram.byte` is the view of its contents: accesses may reach past the end, where bytes
read as zero and writes are lost. Two memories with the same view, size and flags are equal.
-/

namespace Rv32

/-- The number of bytes that share one dirty flag. -/
def pageSize : Nat := 4096

/-- Bytes, with one dirty flag for each page that is at least partly inside. -/
structure Ram where
  bytes : ByteArray
  dirty : Array Bool
  dirty_size : dirty.size = (bytes.size + (pageSize - 1)) / pageSize

namespace Ram

/-- The bytes with `count` zeros behind them. -/
def appendZeros (bytes : ByteArray) : (count : Nat) → ByteArray
  | 0 => bytes
  | count + 1 => appendZeros (bytes.push 0) count

theorem data_appendZeros (bytes : ByteArray) (count : Nat) :
    (appendZeros bytes count).data = bytes.data ++ Array.replicate count 0 := by
  induction count generalizing bytes with
  | zero => simp [appendZeros]
  | succ count ih =>
    rw [appendZeros, ih, ByteArray.data_push, Array.push_eq_append, Array.append_assoc,
      ← Array.replicate_one, Array.replicate_append_replicate, Nat.add_comm]

/-- A string of `size` zeros. -/
def zeroBytes (size : Nat) : ByteArray := appendZeros (.emptyWithCapacity size) size

theorem data_zeroBytes (size : Nat) : (zeroBytes size).data = Array.replicate size 0 :=
  (data_appendZeros ..).trans (Array.empty_append ..)

theorem size_zeroBytes (size : Nat) : (zeroBytes size).size = size := by
  rw [← ByteArray.size_data, data_zeroBytes, Array.size_replicate]

/-- A memory of `size` zero bytes without dirty pages. -/
def zeros (size : Nat) : Ram where
  bytes := zeroBytes size
  dirty := Array.replicate ((size + (pageSize - 1)) / pageSize) false
  dirty_size := by rw [Array.size_replicate, size_zeroBytes]

/-- The byte at `index`, zero past the end. -/
def byteAt (bytes : ByteArray) (index : Nat) : Byte :=
  if inside : index < bytes.size then (bytes.get index inside).toBitVec else 0

theorem byteAt_eq (bytes : ByteArray) (index : Nat) :
    byteAt bytes index = (bytes.data.getD index 0).toBitVec := by
  by_cases inside : index < bytes.size
  · rw [byteAt, dif_pos inside, Array.getD, dif_pos (ByteArray.size_data ▸ inside)]
    rfl
  · rw [byteAt, dif_neg inside, Array.getD, dif_neg (ByteArray.size_data ▸ inside)]
    rfl

/-- The bytes with one of them replaced, unless `index` lies past the end. -/
def setInside (bytes : ByteArray) (index : Nat) (value : Byte) : ByteArray :=
  if inside : index < bytes.size then bytes.set index (.ofBitVec value) inside else bytes

theorem data_setInside (bytes : ByteArray) (index : Nat) (value : Byte) :
    (setInside bytes index value).data = bytes.data.setIfInBounds index (.ofBitVec value) := by
  by_cases inside : index < bytes.size
  · rw [setInside, dif_pos inside, Array.setIfInBounds, dif_pos (ByteArray.size_data ▸ inside),
      ByteArray.data_set]
  · rw [setInside, dif_neg inside, Array.setIfInBounds, dif_neg (ByteArray.size_data ▸ inside)]

theorem size_setInside (bytes : ByteArray) (index : Nat) (value : Byte) :
    (setInside bytes index value).size = bytes.size := by
  rw [← ByteArray.size_data, data_setInside, Array.size_setIfInBounds, ByteArray.size_data]

/-- The number of bytes. -/
def size (ram : Ram) : Nat := ram.bytes.size

/-- The byte at `index`, zero past the end. -/
def byte (ram : Ram) (index : Nat) : Byte := byteAt ram.bytes index

/-- The memory with one byte replaced, unless `index` lies past the end. -/
def setByte (ram : Ram) (index : Nat) (value : Byte) : Ram where
  bytes := setInside ram.bytes index value
  dirty := ram.dirty
  dirty_size := by rw [size_setInside]; exact ram.dirty_size

/-- The bytes from `offset` on, the first of them least significant. -/
def read (ram : Ram) (offset : Word) (width : Width) : Word :=
  Word.ofBytes fun index => if index < width.bytes then ram.byte (offset.toNat + index) else 0

/-- Store the low bytes of `value` from `offset` on, the least significant first. -/
def write (ram : Ram) (offset value : Word) (width : Width) : Ram :=
  (List.range width.bytes).foldl
    (fun ram index => ram.setByte (offset.toNat + index) (Word.byte value index)) ram

/-- Flag the page of `offset` as dirty, if there is such a page. -/
def markDirty (ram : Ram) (offset : Word) : Ram where
  bytes := ram.bytes
  dirty := ram.dirty.setIfInBounds (offset.toNat / pageSize) true
  dirty_size := by rw [Array.size_setIfInBounds]; exact ram.dirty_size

/-- Whether the page with this number is flagged. -/
def isDirty (ram : Ram) (page : Nat) : Bool := ram.dirty.getD page false

/-- The numbers of the dirty pages, ascending. -/
def dirtyPages (ram : Ram) : List Nat := (List.range ram.dirty.size).filter ram.isDirty

/-- Remove all flags. -/
def clearDirty (ram : Ram) : Ram where
  bytes := ram.bytes
  dirty := Array.replicate ram.dirty.size false
  dirty_size := by rw [Array.size_replicate]; exact ram.dirty_size

/-- Replace the bytes from `offset` on by `image`, as far as they fit; this flags nothing. -/
def loadImage (ram : Ram) (offset : Word) (image : List Byte) : Ram :=
  (image.foldl (fun state value => (state.1.setByte state.2 value, state.2 + 1))
    (ram, offset.toNat)).1

/-- At most `count` bytes from `offset` on, ending where the memory ends. -/
def slice (ram : Ram) (offset count : Nat) : List Byte :=
  (List.range (min count (ram.size - offset))).map fun index => ram.byte (offset + index)

/-- What a memory holds, how large it is and what is flagged make up all of it. -/
theorem eq_of_view {first second : Ram} (size : first.size = second.size)
    (bytes : ∀ index, first.byte index = second.byte index) (dirty : first.dirty = second.dirty) :
    first = second := by
  obtain ⟨left, _, _⟩ := first
  obtain ⟨right, _, _⟩ := second
  cases dirty
  have same : left = right := by
    refine ByteArray.ext_getElem size fun index inLeft inRight => ?_
    have here : byteAt left index = byteAt right index := bytes index
    rw [byteAt, byteAt, dif_pos inLeft, dif_pos inRight] at here
    exact UInt8.toBitVec_inj.1 here
  cases same
  rfl

@[simp]
theorem size_zeros (size : Nat) : (zeros size).size = size := size_zeroBytes size

@[simp]
theorem byte_zeros (size index : Nat) : (zeros size).byte index = 0 := by
  rw [byte, byteAt_eq, zeros, data_zeroBytes, Array.getD_eq_getD_getElem?, Array.getElem?_replicate]
  split <;> rfl

@[simp]
theorem size_setByte (ram : Ram) (index : Nat) (value : Byte) :
    (ram.setByte index value).size = ram.size := size_setInside ..

/-- A byte write is seen at its own index, if that lies inside, and nowhere else. -/
theorem byte_setByte (ram : Ram) (index other : Nat) (value : Byte) :
    (ram.setByte index value).byte other =
      if index = other ∧ index < ram.size then value else ram.byte other := by
  simp only [byte, size, setByte, byteAt_eq, data_setInside, Array.getD_eq_getD_getElem?,
    Array.getElem?_setIfInBounds, ← ByteArray.size_data]
  by_cases same : index = other
  · subst same
    by_cases inside : index < ram.bytes.size
    · simp [inside]
    · simp [inside]
  · simp [same]

@[simp]
theorem byte_markDirty (ram : Ram) (offset : Word) (index : Nat) :
    (ram.markDirty offset).byte index = ram.byte index := rfl

@[simp]
theorem byte_clearDirty (ram : Ram) (index : Nat) :
    ram.clearDirty.byte index = ram.byte index := rfl

/-- A page is dirty after marking if it is the page of the offset, or was dirty before. -/
theorem isDirty_markDirty (ram : Ram) (offset : Word) (page : Nat) :
    (ram.markDirty offset).isDirty page =
      (decide (offset.toNat / pageSize = page ∧ page < ram.dirty.size) || ram.isDirty page) := by
  simp only [markDirty, isDirty, Array.getD_eq_getD_getElem?, Array.getElem?_setIfInBounds]
  by_cases same : offset.toNat / pageSize = page
  · subst same
    by_cases inside : offset.toNat / pageSize < ram.dirty.size
    · simp [inside]
    · simp [inside]
  · simp [same]

end Ram

end Rv32
