import Mathlib.Algebra.Order.Ring.Nat
import Mathlib.Logic.Function.Basic

/-!
# Byte buffers with bounds

A buffer is an allocated block of memory: a size and the bytes at its offsets.
Writing past the end has no result (`none`), which a program model turns into
undefined behaviour. A heap is a family of separate buffers.

`write` (a copy into the buffer) and `fill` (`memset`) are both an `overlay` of
some bytes, and the lemmas are about that: what is read inside the overlay is
what was put there, what is read outside is unchanged.
-/

namespace DvbGseTunnel.Lib

abbrev Bytes := List UInt8

structure Buffer where
  size : Nat
  byte : Nat → UInt8

/-- Separate buffers, by number. -/
abbrev Heap := Nat → Buffer

namespace Buffer

/-- The `len` bytes from offset `off` on. -/
def read (b : Buffer) (off len : Nat) : Bytes :=
  (List.range len).map fun i => b.byte (off + i)

/-- The buffer with the `n` bytes from `off` on replaced by `f 0`, `f 1`, ... -/
def overlay (b : Buffer) (off n : Nat) (f : Nat → UInt8) : Buffer :=
  { b with byte := fun i => if off ≤ i ∧ i < off + n then f (i - off) else b.byte i }

def write (b : Buffer) (off : Nat) (bytes : Bytes) : Option Buffer :=
  if off + bytes.length ≤ b.size then
    some (b.overlay off bytes.length fun i => bytes.getD i 0)
  else none

def fill (b : Buffer) (off n : Nat) (v : UInt8) : Option Buffer :=
  if off + n ≤ b.size then some (b.overlay off n fun _ => v) else none

@[simp] theorem read_length (b : Buffer) (off len : Nat) : (b.read off len).length = len := by
  simp [read]

theorem read_append (b : Buffer) (off m n : Nat) :
    b.read off (m + n) = b.read off m ++ b.read (off + m) n := by
  simp only [read, List.range_add, List.map_append, List.map_map]
  congr 1
  refine List.map_congr_left fun i _ => ?_
  simp [Nat.add_assoc]

theorem read_congr {b c : Buffer} {off len : Nat}
    (h : ∀ i, off ≤ i → i < off + len → b.byte i = c.byte i) :
    b.read off len = c.read off len := by
  refine List.map_congr_left fun i hi => h _ (by omega) ?_
  have := List.mem_range.mp hi
  omega

theorem mem_read {b : Buffer} {off len : Nat} {x : UInt8} :
    x ∈ b.read off len ↔ ∃ i < len, b.byte (off + i) = x := by
  simp [read]

theorem take_read (b : Buffer) (off len n : Nat) :
    (b.read off len).take n = b.read off (min n len) := by
  rw [read, read, ← List.map_take, List.take_range]

theorem drop_read (b : Buffer) (off m n : Nat) :
    (b.read off (m + n)).drop m = b.read (off + m) n := by
  rw [read_append]
  exact List.drop_left' (read_length b off m)

@[simp] theorem overlay_size (b : Buffer) (off n : Nat) (f : Nat → UInt8) :
    (b.overlay off n f).size = b.size := rfl

theorem overlay_byte_of_mem (b : Buffer) {off n i : Nat} (f : Nat → UInt8)
    (h : off ≤ i ∧ i < off + n) : (b.overlay off n f).byte i = f (i - off) := by
  simp only [overlay, if_pos h]

theorem overlay_byte_of_not_mem (b : Buffer) {off n i : Nat} (f : Nat → UInt8)
    (h : ¬(off ≤ i ∧ i < off + n)) : (b.overlay off n f).byte i = b.byte i := by
  simp only [overlay, if_neg h]

@[simp] theorem overlay_zero (b : Buffer) (off : Nat) (f : Nat → UInt8) :
    b.overlay off 0 f = b := by
  have h : ∀ i, ¬(off ≤ i ∧ i < off + 0) := fun i => by omega
  simp only [overlay, if_neg (h _)]

theorem read_overlay_same (b : Buffer) (off n : Nat) (f : Nat → UInt8) :
    (b.overlay off n f).read off n = (List.range n).map f := by
  refine List.map_congr_left fun i hi => ?_
  have hin := List.mem_range.mp hi
  rw [overlay_byte_of_mem b f (by omega)]
  congr 1
  omega

theorem read_overlay_disjoint (b : Buffer) {off n off' len : Nat} (f : Nat → UInt8)
    (h : off' + len ≤ off ∨ off + n ≤ off') :
    (b.overlay off n f).read off' len = b.read off' len :=
  read_congr fun _ _ _ => overlay_byte_of_not_mem b f (by omega)

/-- The overlay of the bytes of a list is read back as that list. -/
theorem range_map_getD (bytes : Bytes) :
    (List.range bytes.length).map (fun i => bytes.getD i 0) = bytes := by
  refine List.ext_getElem (by simp) fun i _ hi => ?_
  simp [List.getD_eq_getElem?_getD, List.getElem?_eq_getElem hi]

theorem write_eq_some {b : Buffer} {off : Nat} {bytes : Bytes}
    (h : off + bytes.length ≤ b.size) :
    b.write off bytes = some (b.overlay off bytes.length fun i => bytes.getD i 0) := by
  simp only [write, if_pos h]

theorem write_eq_none {b : Buffer} {off : Nat} {bytes : Bytes}
    (h : b.size < off + bytes.length) : b.write off bytes = none := by
  simp only [write, if_neg (Nat.not_le.mpr h)]

theorem read_write_same (b : Buffer) (off : Nat) (bytes : Bytes) :
    (b.overlay off bytes.length fun i => bytes.getD i 0).read off bytes.length = bytes := by
  rw [read_overlay_same, range_map_getD]

theorem fill_eq_some {b : Buffer} {off n : Nat} {v : UInt8} (h : off + n ≤ b.size) :
    b.fill off n v = some (b.overlay off n fun _ => v) := by
  simp only [fill, if_pos h]

theorem fill_size {b c : Buffer} {off n : Nat} {v : UInt8} (h : b.fill off n v = some c) :
    c.size = b.size := by
  rw [fill] at h
  split at h
  · cases h
    rfl
  · cases h

theorem fill_eq_none {b : Buffer} {off n : Nat} {v : UInt8} (h : b.size < off + n) :
    b.fill off n v = none := by
  simp only [fill, if_neg (Nat.not_le.mpr h)]

theorem read_fill_after (b : Buffer) (off len n : Nat) (v : UInt8) :
    (b.overlay (off + len) n fun _ => v).read off (len + n) =
      b.read off len ++ List.replicate n v := by
  rw [read_append, read_overlay_disjoint b _ (by omega), read_overlay_same, List.map_const',
    List.length_range]

/-- Filling some bytes shows in a window that starts there, unless the window's bytes
    had that value. -/
theorem fill_invisible_iff (b : Buffer) (off m n : Nat) (v : UInt8) :
    (∀ i, off ≤ i → i < off + m → (b.overlay off n fun _ => v).byte i = b.byte i) ↔
      ∀ x ∈ (b.read off m).take n, x = v := by
  rw [take_read]
  constructor
  · intro h x hx
    obtain ⟨i, hi, rfl⟩ := mem_read.mp hx
    rw [← h (off + i) (by omega) (by omega), overlay_byte_of_mem b _ (by omega)]
  · intro h i hlow hhigh
    by_cases hin : off ≤ i ∧ i < off + n
    · rw [overlay_byte_of_mem b _ hin]
      exact (h _ (mem_read.mpr ⟨i - off, by omega, by congr 1; omega⟩)).symm
    · exact overlay_byte_of_not_mem b _ hin

end Buffer

end DvbGseTunnel.Lib
