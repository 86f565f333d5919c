import Mathlib.Tactic.Use
import Woos.Lib.CString

/-!
# String buffers

A `StringBuffer n` is a buffer of `n` bytes that holds a C string; that the terminating zero is in
the buffer is a field of the structure.  The string functions of C write into such a buffer without
looking at its size, so each of them has no result here when it would write behind the end of the
buffer, or leave it without a terminating zero.
-/

/-- A buffer of `n` bytes with a string. -/
structure StringBuffer (n : Nat) where
  string : CString
  length_lt : string.length < n
  deriving DecidableEq

namespace StringBuffer

variable {n : Nat}

/-- Write a string with its terminating zero at the start of the buffer: `strcpy`. -/
def strcpy (s : CString) : Option (StringBuffer n) :=
  if h : s.length < n then some ⟨s, h⟩ else none

/-- Write a string behind the one in the buffer: `strcat`. -/
def strcat (b : StringBuffer n) (s : CString) : Option (StringBuffer n) :=
  strcpy (b.string.append s)

/-- Write the first `k` bytes of a string, and zeros behind a shorter one: `strncpy`. -/
def strncpy (s : CString) (k : Nat) : Option (StringBuffer n) :=
  if k ≤ n ∧ s.length < k then strcpy s else none

/-- Write the first `k` bytes of a string, and a zero behind them. -/
def strncpyZero (s : CString) (k : Nat) : Option (StringBuffer n) :=
  if k < n then strcpy (s.truncate k) else none

/-- Write at most `k` bytes of a string behind the one in the buffer: `strncat`. -/
def strncat (b : StringBuffer n) (s : CString) (k : Nat) : Option (StringBuffer n) :=
  b.strcat (s.truncate k)

theorem strcpy_eq_some {s : CString} (h : s.length < n) :
  strcpy s = some (⟨s, h⟩ : StringBuffer n)
  := dif_pos h

theorem strcpy_eq_none {s : CString} (h : ¬ s.length < n) :
  (strcpy s : Option (StringBuffer n)) = none
  := dif_neg h

theorem strcpy_eq_some_iff {s : CString} {b : StringBuffer n} :
  strcpy s = some b ↔ b.string = s
  := by
  obtain ⟨t, ht⟩ := b
  constructor
  · intro h
    rw [strcpy] at h
    split at h
    case isTrue => exact congrArg string (Option.some.inj h).symm
    case isFalse => cases h
  · rintro rfl
    exact strcpy_eq_some ht

theorem strcpy_isSome_iff {s : CString} :
  (strcpy s : Option (StringBuffer n)).isSome ↔ s.length < n
  := by
  by_cases h : s.length < n
  · simp [strcpy_eq_some h, h]
  · simp [strcpy_eq_none h, h]

/-- A string behind another one: whether both together fit decides. -/
theorem strcpy_bind_strcat (s t : CString) :
  (strcpy s).bind (fun b : StringBuffer n => b.strcat t) = strcpy (s.append t)
  := by
  by_cases h : s.length < n
  · rw [strcpy_eq_some h, Option.bind_some]
    rfl
  · rw [strcpy_eq_none h, Option.bind_none, strcpy_eq_none]
    rw [CString.length_append]
    omega

/-- The string that a buffer can hold of a longer one. -/
def cut (s : CString) (h : 0 < n) : StringBuffer n where
  string := s.truncate (n - 1)
  length_lt := by
    rw [CString.length_truncate]
    omega

@[simp]
theorem string_cut (s : CString) (h : 0 < n) :
  (cut s h).string = s.truncate (n - 1)
  := rfl

/-- A computation goes on with a string that fits. -/
theorem strcpy_bind_isSome_iff {α : Type} {s : CString} {f : StringBuffer n → Option α} :
  ((strcpy s).bind f).isSome ↔ ∃ h : s.length < n, (f ⟨s, h⟩).isSome
  := by
  by_cases h : s.length < n
  · simp [strcpy_eq_some h, h]
  · simp [strcpy_eq_none h, h]

theorem strncpy_eq_some {s : CString} {k : Nat} (hk : k ≤ n) (h : s.length < k) :
  strncpy s k = some (⟨s, Nat.lt_of_lt_of_le h hk⟩ : StringBuffer n)
  := by rw [strncpy, if_pos ⟨hk, h⟩, strcpy_eq_some]

theorem strncpy_eq_none {s : CString} {k : Nat} (h : ¬ s.length < k) :
  (strncpy s k : Option (StringBuffer n)) = none
  := if_neg (fun hcon => h hcon.2)

theorem strncpyZero_eq_some (s : CString) {k : Nat} (h : k < n) :
  strncpyZero s k = some (⟨s.truncate k, by rw [CString.length_truncate]; omega⟩ : StringBuffer n)
  := by rw [strncpyZero, if_pos h, strcpy_eq_some]

/-- What is left of the buffer takes as much of a string as it can. -/
theorem strncat_rest (b : StringBuffer n) (s : CString) :
  b.strncat s (n - b.string.length - 1)
    = some (cut (b.string.append s) (Nat.zero_lt_of_lt b.length_lt))
  := by
  rw [strncat, strcat, strcpy_eq_some_iff, string_cut]
  ext1
  rw [CString.bytes_truncate, CString.bytes_append, CString.bytes_append, CString.bytes_truncate,
    List.take_append, List.take_of_length_le (Nat.le_sub_one_of_lt b.length_lt)]
  rw [CString.length, Nat.sub_right_comm]

/-- The beginning of a string that is cut anyway may be cut before. -/
theorem cut_truncate_append (s t : CString) (a : Nat) (h : 0 < n) :
  cut ((s.truncate (min a (n - 1))).append t) h = cut ((s.truncate a).append t) h
  := by
  rw [cut, cut, mk.injEq]
  ext1
  simp only [CString.bytes_truncate, CString.bytes_append, List.take_append, List.length_take,
    List.take_take]
  congr 1
  · rw [Nat.min_comm a, ← Nat.min_assoc, Nat.min_self]
  · congr 1
    omega

/-- A string that is cut already. -/
theorem cut_append (s t : CString) (h : 0 < n) :
  cut ((s.truncate (n - 1)).append t) h = cut (s.append t) h
  := by
  rw [cut, cut, mk.injEq]
  ext1
  simp only [CString.bytes_truncate, CString.bytes_append, List.take_append, List.length_take,
    List.take_take, Nat.min_self]
  congr 2
  omega

theorem cut_strncat (s t : CString) (h : 0 < n) :
  (cut s h).strncat t (n - (cut s h).string.length - 1) = some (cut (s.append t) h)
  := (strncat_rest _ t).trans (congrArg some (cut_append s t h))

/-- A string in front, of which `a` bytes are written at most, and another one behind it. -/
theorem strncpyZero_bind_strncat (s t : CString) (a : Nat) (h : 0 < n) :
  (strncpyZero s (min a (n - 1))).bind
      (fun b : StringBuffer n => b.strncat t (n - b.string.length - 1))
    = some (cut ((s.truncate a).append t) h)
  := by
  have hlength : (s.truncate (min a (n - 1))).length < n := by
    rw [CString.length_truncate]
    omega
  rw [strncpyZero, if_pos (by omega), strcpy_eq_some hlength, Option.bind_some, strncat_rest,
    cut_truncate_append]

theorem strncpy_bind_strncat {s : CString} (t : CString) (hs : s.length < n - 1) :
  (strncpy s (n - 1)).bind (fun b : StringBuffer n => b.strncat t (n - b.string.length - 1))
    = some (cut (s.append t) (by omega))
  := by
  rw [strncpy_eq_some (Nat.sub_le n 1) hs, Option.bind_some, strncat_rest]

/-- A string that comes from a buffer of the same size fits. -/
theorem strncpyZero_string (b : StringBuffer n) :
  strncpyZero b.string (n - 1) = some b
  := by
  have hpos := b.length_lt
  rw [strncpyZero, if_pos (by omega),
    CString.truncate_of_length_le (Nat.le_sub_one_of_lt b.length_lt), strcpy_eq_some_iff]

end StringBuffer
