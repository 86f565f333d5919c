import Mathlib.Data.List.Basic
import Woos.Lib.Memory

/-!
# Strings of bytes

`LittleEndian.encode n v` is the string of the `n` low bytes of `v`, least significant first, and
`LittleEndian.decode` the value of such a string.  `Memory.write` and `Memory.read` move strings to
and from memory.
-/

namespace LittleEndian

/-- The `n` low bytes of `v`, least significant first. -/
def encode : Nat → Nat → List UInt8
  | 0, _ => []
  | n + 1, v => UInt8.ofNat v :: encode n (v / 256)

/-- The value of a string of bytes. -/
def decode : List UInt8 → Nat
  | [] => 0
  | b :: bs => b.toNat + 256 * decode bs

@[simp]
theorem length_encode (n v : Nat) :
  (encode n v).length = n
  := by
  induction n generalizing v with
  | zero => rfl
  | succ n ih => rw [encode, List.length_cons, ih]

theorem decode_encode {n v : Nat} (h : v < 256 ^ n) :
  decode (encode n v) = v
  := by
  induction n generalizing v with
  | zero =>
      rw [Nat.pow_zero, Nat.lt_one_iff] at h
      rw [h]
      rfl
  | succ n ih =>
      have hrest : v / 256 < 256 ^ n := by
        apply Nat.div_lt_of_lt_mul
        rwa [Nat.mul_comm, ← Nat.pow_succ]
      rw [encode, decode, ih hrest, UInt8.toNat_ofNat']
      apply Nat.mod_add_div

end LittleEndian

namespace Memory

/-- Write a string of bytes from `a` on. -/
def write (m : Memory) : Nat → List UInt8 → Memory
  | _, [] => m
  | a, b :: bs => Function.update (write m (a + 1) bs) a b

/-- The `n` bytes from `a` on. -/
def read (m : Memory) (a n : Nat) : List UInt8 := (List.range n).map (fun i => m (a + i))

@[simp]
theorem length_read (m : Memory) (a n : Nat) :
  (m.read a n).length = n
  := by
  rw [read, List.length_map, List.length_range]

theorem read_succ (m : Memory) (a n : Nat) :
  m.read a (n + 1) = m a :: m.read (a + 1) n
  := by
  rw [read, List.range_succ_eq_map, List.map_cons, List.map_map, read]
  congr 1
  apply List.map_congr_left
  intro i _
  rw [Function.comp_apply, Nat.succ_eq_add_one, Nat.add_assoc, Nat.add_comm 1 i]

theorem read_drop (m : Memory) (a n k : Nat) :
  (m.read a n).drop k = m.read (a + k) (n - k)
  := by
  apply List.ext_getElem
  · simp
  · intro i _ _
    simp [read, Nat.add_assoc]

theorem read_take (m : Memory) (a n k : Nat) :
  (m.read a n).take k = m.read a (min k n)
  := by
  apply List.ext_getElem
  · simp
  · intro i _ _
    simp [read]

/-- Two reads one after the other. -/
theorem read_append (m : Memory) (a n k : Nat) :
  m.read a n ++ m.read (a + n) k = m.read a (n + k)
  := by
  have htake := m.read_take a (n + k) n
  have hdrop := m.read_drop a (n + k) n
  rw [Nat.min_eq_left (Nat.le_add_right n k)] at htake
  rw [Nat.add_sub_cancel_left] at hdrop
  rw [← htake, ← hdrop, List.take_append_drop]

theorem read_zeros {m : Memory} {a n : Nat} (h : ∀ i < n, m (a + i) = 0) :
  m.read a n = List.replicate n 0
  := by
  rw [List.eq_replicate_iff]
  refine ⟨length_read m a n, fun b hb => ?_⟩
  obtain ⟨i, hi, rfl⟩ := List.mem_map.mp hb
  exact h i (List.mem_range.mp hi)

/-- A read depends only on its bytes. -/
theorem read_congr {m m' : Memory} {a n : Nat} (h : ∀ i < n, m' (a + i) = m (a + i)) :
  m'.read a n = m.read a n
  := by
  apply List.map_congr_left
  intro i hi
  apply h i (List.mem_range.mp hi)

theorem write_apply_outside (m : Memory) {a x : Nat} {bs : List UInt8}
    (h : x < a ∨ a + bs.length ≤ x) :
  m.write a bs x = m x
  := by
  induction bs generalizing a with
  | nil => rfl
  | cons b bs ih =>
      rw [List.length_cons] at h
      rw [write, Function.update_of_ne]
      · apply ih
        omega
      · omega

/-- What has been written is read back. -/
theorem read_write (m : Memory) (a : Nat) (bs : List UInt8) :
  (m.write a bs).read a bs.length = bs
  := by
  induction bs generalizing a with
  | nil => rfl
  | cons b bs ih =>
      have hrest : (m.write a (b :: bs)).read (a + 1) bs.length
          = (m.write (a + 1) bs).read (a + 1) bs.length := by
        apply read_congr
        intro i _
        rw [write, Function.update_of_ne]
        omega
      rw [List.length_cons, read_succ, hrest, ih, write, Function.update_self]

/-- A part of what was read. -/
theorem read_part (m : Memory) {a k n len : Nat} (h : k + n ≤ len) :
  ((m.read a len).drop k).take n = m.read (a + k) n
  := by rw [read_drop, read_take, Nat.min_eq_left (by omega)]

theorem write_apply_inside (m : Memory) (a : Nat) {x : Nat} {bs : List UInt8} (hle : a ≤ x)
    (hlt : x < a + bs.length) :
  m.write a bs x = bs.getD (x - a) 0
  := by
  have hread := read_write m a bs
  have hindex : x - a < bs.length := by omega
  have hbyte := congrArg (fun l : List UInt8 => l[x - a]?) hread
  rw [read, List.getElem?_map, List.getElem?_range hindex, Option.map_some,
    Nat.add_sub_cancel' hle] at hbyte
  rw [List.getD_eq_getElem?_getD, ← hbyte, Option.getD_some]

/-- A byte after a write depends on that byte before only. -/
theorem write_apply_congr {m m' : Memory} {x : Nat} (h : m x = m' x) (a : Nat) (bs : List UInt8) :
  m.write a bs x = m'.write a bs x
  := by
  by_cases hin : a ≤ x ∧ x < a + bs.length
  · rw [write_apply_inside m a hin.1 hin.2, write_apply_inside m' a hin.1 hin.2]
  · rw [write_apply_outside m (by omega), write_apply_outside m' (by omega), h]

theorem read_write_disjoint (m : Memory) {a k n : Nat} {bs : List UInt8}
    (h : k + n ≤ a ∨ a + bs.length ≤ k) :
  (m.write a bs).read k n = m.read k n
  := by
  apply read_congr
  intro i hi
  apply write_apply_outside
  omega

/-- A write changes nothing exactly when its bytes are there already. -/
theorem write_eq_self_iff (m : Memory) (a : Nat) (bs : List UInt8) :
  m.write a bs = m ↔ m.read a bs.length = bs
  := by
  constructor
  · intro h
    rw [← h, read_write]
  · intro h
    induction bs generalizing a with
    | nil => rfl
    | cons b bs ih =>
        rw [List.length_cons, read_succ, List.cons.injEq] at h
        rw [write, ih (a + 1) h.2, ← h.1, Function.update_eq_self]

/-- A byte below the string may be written before it. -/
theorem update_write (m : Memory) {a y : Nat} (b : UInt8) (cs : List UInt8) (h : y < a) :
  Function.update (m.write a cs) y b = write (Function.update m y b) a cs
  := by
  induction cs generalizing a with
  | nil => rfl
  | cons c cs ih =>
      rw [write, write, Function.update_comm (by omega), ih (by omega)]

/-- Writing one string behind another. -/
theorem write_append (m : Memory) (a : Nat) (bs cs : List UInt8) :
  m.write a (bs ++ cs) = (m.write a bs).write (a + bs.length) cs
  := by
  induction bs generalizing a with
  | nil => rfl
  | cons b bs ih =>
      have hlength : a + 1 + bs.length = a + (b :: bs).length := by
        rw [List.length_cons]
        omega
      rw [List.cons_append, write, ih, hlength, write, update_write]
      rw [List.length_cons]
      omega

end Memory
