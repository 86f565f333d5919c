import Mathlib.Algebra.Group.Fin.Basic
import Mathlib.Algebra.Group.Basic
import Mathlib.Logic.Function.Basic
import Mathlib.Algebra.GroupWithZero.Nat

/-!
# Circular buffers

A `RingBuffer α n` has `n` slots, and two indices that wrap around: `tail`, of the oldest entry, and
`head`, of the slot that is written next.  Its entries are the `contents`, from the tail to
before the head, so that at most `n - 1` slots are in use.

`RingBuffer.segment` lists consecutive slots from an index on.  The lemmas about it describe what
pushing at the head, popping at the tail and closing a gap do to the contents, wherever head
and tail stand.
-/

/-- A circular buffer of `n` slots. -/
structure RingBuffer (α : Type*) (n : Nat) where
  slots : Fin n → α
  head : Fin n
  tail : Fin n

namespace RingBuffer

variable {α : Type*} {n : Nat} [NeZero n]

/-! ### Distances -/

/-- One slot further is one slot closer. -/
theorem dist_succ {i h : Fin n} (hne : i ≠ h) :
  (h - (i + 1)).val + 1 = (h - i).val
  := by
  have hsub : h - i ≠ 0 := sub_ne_zero.mpr hne.symm
  have hval := Fin.val_sub_one_of_ne_zero hsub
  have hpos : (h - i).val ≠ 0 := Fin.val_ne_zero_iff.mpr hsub
  rw [← sub_sub, hval]
  omega

theorem dist_eq_zero_iff {i h : Fin n} :
  (h - i).val = 0 ↔ i = h
  := by
  rw [Fin.val_eq_zero_iff, sub_eq_zero, eq_comm]

/-- The slot before an index is the furthest from it. -/
theorem dist_pred (i : Fin n) :
  (i - (i + 1)).val + 1 = n
  := by
  obtain ⟨m, rfl⟩ := Nat.exists_eq_succ_of_ne_zero (NeZero.ne n)
  rw [sub_add_cancel_left, Fin.coe_neg_one]

/-- One slot more, unless it is the slot where counting began. -/
theorem dist_add_one {i h : Fin n} (hne : h + 1 ≠ i) :
  (h + 1 - i).val = (h - i).val + 1
  := by
  have hsub : h + 1 - i ≠ 0 := sub_ne_zero.mpr hne
  have hval := Fin.val_sub_one_of_ne_zero hsub
  have hpos : (h + 1 - i).val ≠ 0 := Fin.val_ne_zero_iff.mpr hsub
  have hback : h + 1 - i - 1 = h - i := by
    rw [sub_right_comm, add_sub_cancel_right]
  rw [hback] at hval
  omega

/-- Counting to an index in between and on from there. -/
theorem dist_add {t p h : Fin n} (hle : (p - t).val ≤ (h - t).val) :
  (p - t).val + (h - p).val = (h - t).val
  := by
  have hsub : h - p = (h - t) - (p - t) := (sub_sub_sub_cancel_right h p t).symm
  rw [hsub, Fin.sub_val_of_le hle]
  omega

/-- An index before `p` is further from `p` than any index up to the start. -/
theorem dist_before {t p j : Fin n} (hlt : (j - t).val < (p - t).val) :
  (j - p).val + (p - t).val = n + (j - t).val
  := by
  have hsub : j - p = (j - t) - (p - t) := (sub_sub_sub_cancel_right j p t).symm
  have hval := Fin.coe_sub_iff_lt.mpr (Fin.lt_def.mpr hlt)
  have hlt' := (p - t).is_lt
  rw [hsub, hval]
  omega

/-! ### Segments -/

/-- The `k` slots from `i` on. -/
def segment (slots : Fin n → α) : Fin n → Nat → List α
  | _, 0 => []
  | i, k + 1 => slots i :: segment slots (i + 1) k

@[simp]
theorem length_segment (slots : Fin n → α) (i : Fin n) (k : Nat) :
  (segment slots i k).length = k
  := by
  induction k generalizing i with
  | zero => rfl
  | succ k ih => rw [segment, List.length_cons, ih]

/-- A segment that ends at `h` is continued from `h` on. -/
theorem segment_add (slots : Fin n → α) {i h : Fin n} {j : Nat} (k : Nat) (hj : (h - i).val = j) :
  segment slots i (j + k) = segment slots i j ++ segment slots h k
  := by
  induction j generalizing i with
  | zero =>
      obtain rfl := dist_eq_zero_iff.mp hj
      rw [Nat.zero_add, segment, List.nil_append]
  | succ j ih =>
      have hne : i ≠ h := by
        rintro rfl
        simp at hj
      have hstep := dist_succ hne
      rw [Nat.add_right_comm, segment, segment, ih (by omega), List.cons_append]

/-- A segment is determined by its slots. -/
theorem segment_congr
    {slots slots' : Fin n → α} {i : Fin n} {k : Nat} (hk : k ≤ n)
    (h : ∀ j, (j - i).val < k → slots' j = slots j) :
  segment slots' i k = segment slots i k
  := by
  induction k generalizing i with
  | zero => rfl
  | succ k ih =>
      rw [segment, segment]
      congr 1
      · apply h
        rw [sub_self, Fin.val_zero]
        omega
      · apply ih (by omega)
        intro j hj
        apply h
        by_cases hij : i = j
        · subst hij
          rw [sub_self, Fin.val_zero]
          omega
        · have hstep := dist_succ hij
          omega

/-! ### Contents -/

/-- The entries, the oldest first. -/
def contents (r : RingBuffer α n) : List α :=
  segment r.slots r.tail (r.head - r.tail).val

theorem length_contents (r : RingBuffer α n) :
  r.contents.length = (r.head - r.tail).val
  := length_segment _ _ _

theorem length_contents_lt (r : RingBuffer α n) :
  r.contents.length < n
  := by
  rw [length_contents]
  apply Fin.is_lt

/-- The ring is full when the head is just before the tail. -/
theorem full_iff (r : RingBuffer α n) :
  r.head + 1 = r.tail ↔ r.contents.length = n - 1
  := by
  have hpred := dist_pred r.head
  rw [length_contents]
  constructor
  · intro hfull
    rw [hfull] at hpred
    omega
  · intro hlen
    by_contra hne
    have hstep := dist_add_one hne
    have hlt := (r.head + 1 - r.tail).is_lt
    omega

/-- Writing at the head and advancing it appends an entry. -/
theorem contents_push (r : RingBuffer α n) (x : α) (hroom : r.head + 1 ≠ r.tail) :
  contents { r with slots := Function.update r.slots r.head x, head := r.head + 1 }
    = r.contents ++ [x]
  := by
  rw [contents, contents, dist_add_one hroom, segment_add _ 1 rfl]
  congr 1
  · apply segment_congr (Nat.le_of_lt (Fin.is_lt _))
    intro j hj
    apply Function.update_of_ne
    rintro rfl
    omega
  · simp [segment]

/-- Advancing the tail drops the oldest entry. -/
theorem contents_pop (r : RingBuffer α n) (hne : r.tail ≠ r.head) :
  r.contents = r.slots r.tail :: contents { r with tail := r.tail + 1 }
  := by
  rw [contents, contents, ← dist_succ hne, segment]

/-- The contents around the entry at `p`. -/
theorem contents_split (r : RingBuffer α n) {p : Fin n} (hp : (p - r.tail).val < (r.head - r.tail).val) :
  r.contents
    = segment r.slots r.tail (p - r.tail).val
      ++ r.slots p :: segment r.slots (p + 1) ((r.head - p).val - 1)
  := by
  have hadd := dist_add hp.le
  have hsucc : (r.head - p).val = (r.head - p).val - 1 + 1 := by omega
  rw [contents, ← hadd, segment_add _ _ rfl]
  congr 1
  rw [hsucc, segment]
  rfl

/-- Removing the entry at `p`: those behind it move one slot towards the tail, and so does
the head. -/
theorem contents_remove
    (r : RingBuffer α n) {slots : Fin n → α} {p : Fin n} (hp : (p - r.tail).val < (r.head - r.tail).val)
    (hbefore : ∀ j, (r.head - p).val ≤ (j - p).val → slots j = r.slots j)
    (hafter : segment slots p ((r.head - p).val - 1)
      = segment r.slots (p + 1) ((r.head - p).val - 1)) :
  contents { r with slots := slots, head := r.head - 1 }
    = segment r.slots r.tail (p - r.tail).val
      ++ segment r.slots (p + 1) ((r.head - p).val - 1)
  := by
  have hadd := dist_add hp.le
  have hlt := (r.head - r.tail).is_lt
  have hne : r.head - r.tail ≠ 0 := by
    apply Fin.val_ne_zero_iff.mp
    omega
  have hlen : (r.head - 1 - r.tail).val = (p - r.tail).val + ((r.head - p).val - 1) := by
    rw [sub_right_comm, Fin.val_sub_one_of_ne_zero hne]
    omega
  rw [contents, hlen, segment_add _ _ rfl, hafter]
  congr 1
  apply segment_congr (Nat.le_of_lt (Fin.is_lt _))
  intro j hj
  apply hbefore
  have hdist : (j - p).val + (p - r.tail).val = n + (j - r.tail).val := dist_before hj
  omega

end RingBuffer
