import Mathlib.Logic.Function.Basic
import Mathlib.Algebra.Group.Nat.Defs

/-!
# Byte-addressed memory

A `Memory` assigns a byte to every address.  `load m n a` is the little-endian value of
the `n` bytes from address `a` on, and `store m n a v` writes the `n` low bytes of `v`
there.  `copy` and `fill` are the forward byte loops of C's `memcpy` and `memset`.

Each writing operation has one frame lemma (addresses outside the written range keep
their byte) and one lemma for the bytes it writes.
-/

/-- A byte for every address. -/
abbrev Memory : Type := Nat → UInt8

namespace Memory

/-! ### Words -/

/-- The little-endian value of the `n` bytes from `a` on. -/
def load (m : Memory) : Nat → Nat → Nat
  | 0, _ => 0
  | n + 1, a => (m a).toNat + 256 * load m n (a + 1)

/-- Write the `n` low bytes of `v`, least significant first, from `a` on. -/
def store (m : Memory) : Nat → Nat → Nat → Memory
  | 0, _, _ => m
  | n + 1, a, v => Function.update (store m n (a + 1) (v / 256)) a (UInt8.ofNat (v % 256))

/-- A memory of zeros. -/
theorem load_empty (n a : Nat) :
  load (fun _ => 0) n a = 0
  := by
  induction n generalizing a with
  | zero => rfl
  | succ n ih => rw [load, ih, UInt8.toNat_zero]

theorem load_lt (m : Memory) (n a : Nat) :
  load m n a < 256 ^ n
  := by
  induction n generalizing a with
  | zero => simp [load]
  | succ n ih =>
      have hbyte := (m a).toNat_lt
      have hrest := ih (a + 1)
      rw [load, Nat.pow_succ]
      omega

/-- A load depends only on the bytes it reads. -/
theorem load_congr {m m' : Memory} {n a : Nat} (h : ∀ i < n, m' (a + i) = m (a + i)) :
  load m' n a = load m n a
  := by
  induction n generalizing a with
  | zero => rfl
  | succ n ih =>
      rw [load, load]
      congr 2
      · apply h 0
        omega
      · apply ih
        intro i hi
        rw [Nat.add_assoc, Nat.add_comm 1 i]
        apply h
        omega

/-- A store changes no byte outside its range. -/
theorem store_apply_outside
    (m : Memory) {n a x : Nat} (v : Nat) (h : x < a ∨ a + n ≤ x) :
  store m n a v x = m x
  := by
  induction n generalizing a v with
  | zero => rfl
  | succ n ih =>
      rw [store, Function.update_of_ne (by omega)]
      apply ih
      omega

/-- The byte after a store depends only on the byte before. -/
theorem store_apply_congr {m m' : Memory} {n a v x : Nat} (h : m x = m' x) :
  store m n a v x = store m' n a v x
  := by
  induction n generalizing a v with
  | zero => exact h
  | succ n ih => rw [store, store, Function.update_apply, Function.update_apply, ih]

/-- A byte that is stored does not depend on the memory. -/
theorem store_apply_inside (m m' : Memory) {n a x : Nat} (v : Nat) (h : a ≤ x ∧ x < a + n) :
  store m n a v x = store m' n a v x
  := by
  induction n generalizing a v with
  | zero => omega
  | succ n ih =>
      rw [store, store, Function.update_apply, Function.update_apply]
      split
      · rfl
      · apply ih
        omega

/-- Loading what was just stored gives the stored value, cut to the width. -/
theorem load_store (m : Memory) (n a v : Nat) :
  load (store m n a v) n a = v % 256 ^ n
  := by
  induction n generalizing a v with
  | zero => simp [load, Nat.mod_one]
  | succ n ih =>
      have hrest : load (store m (n + 1) a v) n (a + 1) = load (store m n (a + 1) (v / 256)) n (a + 1)
          := by
        apply load_congr
        intro i _
        rw [store, Function.update_of_ne (by omega)]
      rw [load, hrest, ih, store, Function.update_self, UInt8.toNat_ofNat',
        Nat.mod_mod, Nat.pow_succ', Nat.mod_mul]

/-- Storing a value that fits and loading it back gives the value. -/
theorem load_store_of_lt (m : Memory) {n v : Nat} (a : Nat) (h : v < 256 ^ n) :
  load (store m n a v) n a = v
  := by
  rw [load_store, Nat.mod_eq_of_lt h]

/-- A load disjoint from a store is not affected by it. -/
theorem load_store_disjoint
    (m : Memory) {n a k b : Nat} (v : Nat) (h : b + k ≤ a ∨ a + n ≤ b) :
  load (store m n a v) k b = load m k b
  := by
  apply load_congr
  intro i hi
  apply store_apply_outside
  omega

/-! ### Fields -/

/-- A field: the number of its bytes, its address, and its value. -/
structure Field where
  size : Nat
  address : Nat
  value : Nat
  deriving DecidableEq, Repr

/-- Write the fields one after the other. -/
def storeFields (m : Memory) (fields : List Field) : Memory :=
  fields.foldl (fun m f => m.store f.size f.address f.value) m

theorem storeFields_cons (m : Memory) (f : Field) (fields : List Field) :
  storeFields m (f :: fields) = storeFields (m.store f.size f.address f.value) fields
  := rfl

/-- A load disjoint from all fields is not affected by them. -/
theorem load_storeFields_disjoint
    (m : Memory) {fields : List Field} {k b : Nat}
    (h : ∀ f ∈ fields, b + k ≤ f.address ∨ f.address + f.size ≤ b) :
  load (storeFields m fields) k b = load m k b
  := by
  induction fields generalizing m with
  | nil => rfl
  | cons f fields ih =>
      rw [storeFields_cons, ih _ (fun g hg => h g (List.mem_cons_of_mem f hg)),
        load_store_disjoint _ _ (h f List.mem_cons_self)]

/-- Loading a field of a record whose fields lie one behind the other. -/
theorem load_storeFields
    (m : Memory) {fields : List Field} {f : Field}
    (hfields : fields.Pairwise (fun f g => f.address + f.size ≤ g.address)) (hmem : f ∈ fields) :
  load (storeFields m fields) f.size f.address = f.value % 256 ^ f.size
  := by
  induction fields generalizing m with
  | nil => cases hmem
  | cons g fields ih =>
      rw [List.pairwise_cons] at hfields
      rw [storeFields_cons]
      rcases List.mem_cons.mp hmem with rfl | hmem
      · rw [load_storeFields_disjoint _ (fun g hg => Or.inl (hfields.1 g hg)), load_store]
      · exact ih _ hfields.2 hmem

/-! ### Byte loops -/

/-- Copy `n` bytes from `src` to `dst`, one byte after the other in ascending order. -/
def copy (m : Memory) (dst src : Nat) : Nat → Memory
  | 0 => m
  | n + 1 => Function.update (copy m dst src n) (dst + n) (copy m dst src n (src + n))

/-- Write the byte `c` to `n` addresses from `dst` on. -/
def fill (m : Memory) (dst : Nat) (c : UInt8) : Nat → Memory
  | 0 => m
  | n + 1 => Function.update (fill m dst c n) (dst + n) c

/-- Write `n` bytes of another address space, from its address `src` on, to `dst`. -/
def copyFrom (m : Memory) (dst : Nat) (other : Memory) (src : Nat) : Nat → Memory
  | 0 => m
  | n + 1 => Function.update (copyFrom m dst other src n) (dst + n) (other (src + n))

theorem copy_apply_outside
    (m : Memory) {dst src n x : Nat} (h : x < dst ∨ dst + n ≤ x) :
  copy m dst src n x = m x
  := by
  induction n with
  | zero => rfl
  | succ n ih =>
      rw [copy, Function.update_of_ne (by omega)]
      apply ih
      omega

/-- When source and destination do not overlap, the copied bytes are those of the
source. -/
theorem copy_apply
    (m : Memory) {dst src n i : Nat} (hi : i < n) (h : src + n ≤ dst ∨ dst + n ≤ src) :
  copy m dst src n (dst + i) = m (src + i)
  := by
  induction n with
  | zero => omega
  | succ n ih =>
      by_cases hlast : i = n
      · subst hlast
        rw [copy, Function.update_self]
        apply copy_apply_outside
        omega
      · rw [copy, Function.update_of_ne (by omega)]
        apply ih
        · omega
        · omega

/-- Bytes that are copied down are those of the source, also where it overlaps. -/
theorem copy_apply_down
    (m : Memory) {dst src n i : Nat} (hi : i < n) (h : dst < src) :
  copy m dst src n (dst + i) = m (src + i)
  := by
  induction n with
  | zero => omega
  | succ n ih =>
      by_cases hlast : i = n
      · subst hlast
        rw [copy, Function.update_self]
        apply copy_apply_outside
        omega
      · rw [copy, Function.update_of_ne (by omega)]
        apply ih
        omega

theorem fill_apply_outside
    (m : Memory) {dst n x : Nat} (c : UInt8) (h : x < dst ∨ dst + n ≤ x) :
  fill m dst c n x = m x
  := by
  induction n with
  | zero => rfl
  | succ n ih =>
      rw [fill, Function.update_of_ne (by omega)]
      apply ih
      omega

theorem fill_apply (m : Memory) {dst n i : Nat} (c : UInt8) (hi : i < n) :
  fill m dst c n (dst + i) = c
  := by
  induction n with
  | zero => omega
  | succ n ih =>
      by_cases hlast : i = n
      · subst hlast
        rw [fill, Function.update_self]
      · rw [fill, Function.update_of_ne (by omega)]
        apply ih
        omega

end Memory
