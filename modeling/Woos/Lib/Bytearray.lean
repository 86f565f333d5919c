import Mathlib.Tactic.Use
import Mathlib.Algebra.GroupWithZero.Nat
import Woos.Lib.Bytes

/-!
# Byte arrays of Python

A `Bytearray` has a size and the bytes below it.  `assign` is the assignment to a slice, which may
change the size, and `packInto` writes at an offset and fails when the array ends before.  Inside the
array both write a string of bytes into a memory (`assign_eq`, `packInto_eq`).
-/

/-- A `bytearray`. -/
structure Bytearray where
  size : Nat
  bytes : Memory

namespace Bytearray

/-- `bytearray(n)` -/
def zeros (n : Nat) : Bytearray := ⟨n, fun _ => 0⟩

/-- `b[i:j]` -/
def slice (b : Bytearray) (i j : Nat) : List UInt8 := b.bytes.read i (min j b.size - i)

/-- `b[i:j] = data` -/
def assign (b : Bytearray) (i j : Nat) (data : List UInt8) : Bytearray :=
  let i := min i b.size
  let j := max i (min j b.size)
  { size := i + data.length + (b.size - j)
    bytes := fun x =>
      if x < i then b.bytes x
      else if x < i + data.length then data.getD (x - i) 0
      else b.bytes (x - (i + data.length) + j) }

/-- `struct.pack_into`, for the bytes of the fields. -/
def packInto (b : Bytearray) (offset : Nat) (data : List UInt8) : Option Bytearray :=
  if offset + data.length ≤ b.size then some { b with bytes := b.bytes.write offset data } else none

/-- The bytes of fields, each with the number of its bytes and its value. -/
def pack (fields : List (Nat × Nat)) : List UInt8 := fields.flatMap (fun f => LittleEndian.encode f.1 f.2)

theorem length_pack (fields : List (Nat × Nat)) :
  (pack fields).length = (fields.map Prod.fst).sum
  := by
  rw [pack, List.length_flatMap]
  congr 1
  exact List.map_congr_left (fun f _ => LittleEndian.length_encode f.1 f.2)

variable {b : Bytearray} {i : Nat} {data : List UInt8}

theorem packInto_eq (h : i + data.length ≤ b.size) :
  b.packInto i data = some { b with bytes := b.bytes.write i data }
  := if_pos h

/-- Bytes inside the array are written in their place. -/
theorem assign_eq {j : Nat} (hj : i + data.length = j) (h : j ≤ b.size) :
  b.assign i j data = { b with bytes := b.bytes.write i data }
  := by
  have hmin : min i b.size = i := Nat.min_eq_left (by omega)
  have hmax : max i (min j b.size) = i + data.length := by omega
  rw [assign, mk.injEq, hmin, hmax]
  constructor
  · omega
  · funext x
    split
    · rw [Memory.write_apply_outside]
      omega
    · split
      · rw [Memory.write_apply_inside _ _ (by omega) (by assumption)]
      · rw [Memory.write_apply_outside _ (by omega)]
        congr 1
        omega

theorem assign_fields {j : Nat} (hj : i + data.length = j) (h : j ≤ b.size) :
  ∃ b', b.assign i j data = b' ∧ b'.size = b.size ∧ b'.bytes = b.bytes.write i data
  := ⟨_, assign_eq hj h, rfl, rfl⟩

theorem packInto_fields (h : i + data.length ≤ b.size) :
  ∃ b', b.packInto i data = some b' ∧ b'.size = b.size ∧ b'.bytes = b.bytes.write i data
  := ⟨_, packInto_eq h, rfl, rfl⟩

/-- A slice inside the array. -/
theorem slice_eq {j : Nat} (h : j ≤ b.size) :
  b.slice i j = b.bytes.read i (j - i)
  := by rw [slice, Nat.min_eq_left h]

theorem length_slice {j : Nat} (h : j ≤ b.size) :
  (b.slice i j).length = j - i
  := by rw [slice_eq h, Memory.length_read]

/-! ### What stays the same -/

/-- The sizes are equal, and the bytes from `k` on. -/
def SameFrom (k : Nat) (b b' : Bytearray) : Prop := b'.size = b.size ∧ ∀ x, k ≤ x → b'.bytes x = b.bytes x

theorem SameFrom.trans {k : Nat} {b₁ b₂ b₃ : Bytearray} (h : SameFrom k b₁ b₂) (h' : SameFrom k b₂ b₃) :
  SameFrom k b₁ b₃
  := ⟨h'.1.trans h.1, fun x hx => (h'.2 x hx).trans (h.2 x hx)⟩

theorem assign_sameFrom {j k : Nat} (hj : i + data.length = j) (hk : j ≤ k) (h : j ≤ b.size) :
  SameFrom k b (b.assign i j data)
  := by
  rw [assign_eq hj h]
  exact ⟨rfl, fun x hx => Memory.write_apply_outside _ (by omega)⟩

theorem packInto_sameFrom {k : Nat} (hk : i + data.length ≤ k) (h : i + data.length ≤ b.size) :
  ∃ b', b.packInto i data = some b' ∧ SameFrom k b b'
  := ⟨_, packInto_eq h, rfl, fun _ hx => Memory.write_apply_outside _ (Or.inr (Nat.le_trans hk hx))⟩

end Bytearray
