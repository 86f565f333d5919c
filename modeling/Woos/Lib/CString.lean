import Mathlib.Data.List.Basic
import Mathlib.Data.List.TakeWhile

/-!
# C strings

A `CString` is the bytes of a C string before its terminating zero.  That none of them is
zero is a field of the structure.  `CString.truncate` is what a bounded copy loop leaves in a
buffer of the given size, and `CString.append` what `strcat` leaves.
-/

/-- The bytes of a C string before the terminating zero. -/
structure CString where
  bytes : List UInt8
  ne_zero : ∀ b ∈ bytes, b ≠ 0
  deriving DecidableEq

namespace CString

/-- The empty string. -/
def empty : CString := ⟨[], by simp⟩

/-- The string that fits into a buffer of `n + 1` bytes: the first `n` bytes. -/
def truncate (s : CString) (n : Nat) : CString where
  bytes := s.bytes.take n
  ne_zero b hb := s.ne_zero b (List.mem_of_mem_take hb)

/-- The string of a list of bytes, up to the first zero. -/
def ofBytes (bytes : List UInt8) : CString where
  bytes := bytes.takeWhile (fun b => b != 0)
  ne_zero b hb := by simpa using List.mem_takeWhile_imp hb

/-- One string behind the other: `strcat`. -/
def append (s t : CString) : CString where
  bytes := s.bytes ++ t.bytes
  ne_zero b hb := (List.mem_append.mp hb).elim (s.ne_zero b) (t.ne_zero b)

/-- The number of bytes before the terminating zero: `strlen`. -/
def length (s : CString) : Nat := s.bytes.length

@[simp]
theorem bytes_empty :
  empty.bytes = []
  := rfl

@[simp]
theorem bytes_truncate (s : CString) (n : Nat) :
  (s.truncate n).bytes = s.bytes.take n
  := rfl

@[simp]
theorem bytes_append (s t : CString) :
  (s.append t).bytes = s.bytes ++ t.bytes
  := rfl

@[simp]
theorem length_append (s t : CString) :
  (s.append t).length = s.length + t.length
  := List.length_append

@[simp]
theorem length_truncate (s : CString) (n : Nat) :
  (s.truncate n).length = min n s.length
  := List.length_take

theorem length_ofBytes_le (bytes : List UInt8) :
  (ofBytes bytes).length ≤ bytes.length
  := (List.takeWhile_sublist _).length_le

@[ext]
theorem ext {s t : CString} (h : s.bytes = t.bytes) :
  s = t
  := by
  cases s
  cases t
  simpa using h

@[simp]
theorem ofBytes_bytes (s : CString) :
  ofBytes s.bytes = s
  := by
  ext1
  rw [ofBytes, List.takeWhile_eq_self_iff]
  intro b hb
  exact bne_iff_ne.mpr (s.ne_zero b hb)

theorem truncate_of_length_le {s : CString} {n : Nat} (h : s.bytes.length ≤ n) :
  s.truncate n = s
  := by
  ext1
  apply List.take_of_length_le h

end CString
