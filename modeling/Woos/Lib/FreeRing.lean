import Woos.Lib.CountedRing

/-!
# Circular buffers with free-running counters

The entries of a circular buffer of `cap` slots between two 16-bit counters that are never reset:
the reader's `start` and the writer's `stop`.  A counter stands for the slot that is its
remainder by `cap`, which divides `2 ^ 16`, so that nothing special happens when it wraps.
-/

namespace FreeRing

variable {α : Type*} {cap : Nat}

/-- The number of entries. -/
def count (start stop : UInt16) : Nat := (stop - start).toNat

/-- The entries, the oldest first. -/
def window (slots : Nat → α) (cap : Nat) (start stop : UInt16) : List α :=
  CountedRing.contents slots cap start.toNat (count start stop)

@[simp]
theorem length_window (slots : Nat → α) (start stop : UInt16) :
  (window slots cap start stop).length = count start stop
  := by
  apply CountedRing.length_contents

theorem count_eq_zero {start stop : UInt16} :
  count start stop = 0 ↔ start = stop
  := by
  rw [count, ← UInt16.toNat_zero, UInt16.toNat_inj]
  constructor
  · intro h
    rw [← UInt16.sub_add_cancel stop start, h, UInt16.zero_add]
  · rintro rfl
    apply UInt16.sub_self

/-- The writer advances. -/
theorem count_succ_stop {start stop : UInt16} (h : count start stop + 1 < 2 ^ 16) :
  count start (stop + 1) = count start stop + 1
  := by
  have hone : (1 : UInt16).toNat = 1 := rfl
  have hstart := start.toNat_lt
  have hstop := stop.toNat_lt
  simp only [count, UInt16.toNat_sub, UInt16.toNat_add, hone] at *
  omega

/-- The reader advances. -/
theorem count_succ_start {start stop : UInt16} (h : start ≠ stop) :
  count (start + 1) stop + 1 = count start stop
  := by
  have hone : (1 : UInt16).toNat = 1 := rfl
  have hstart := start.toNat_lt
  have hstop := stop.toNat_lt
  rw [ne_eq, ← UInt16.toNat_inj] at h
  rw [count, count, UInt16.toNat_sub, UInt16.toNat_sub, UInt16.toNat_add, hone]
  omega

/-- The slot of the writer is that behind the entries. -/
theorem slot_stop (hcap : cap ∣ 2 ^ 16) (start stop : UInt16) :
  (start.toNat + count start stop) % cap = stop.toNat % cap
  := by
  have hsum : (start.toNat + count start stop) % 2 ^ 16 = stop.toNat := by
    rw [count, UInt16.toNat_sub]
    have hstart := start.toNat_lt
    have hstop := stop.toNat_lt
    omega
  rw [← hsum, Nat.mod_mod_of_dvd _ hcap]

/-- The slot behind that of a counter, also when the counter wraps. -/
theorem slot_succ (hcap : cap ∣ 2 ^ 16) (start : UInt16) :
  (start + 1).toNat % cap = (start.toNat + 1) % cap
  := by
  have hone : (1 : UInt16).toNat = 1 := rfl
  rw [UInt16.toNat_add, hone, Nat.mod_mod_of_dvd _ hcap]

/-- Only the remainder of the head counts. -/
theorem contents_mod (slots : Nat → α) {head head' : Nat} (h : head % cap = head' % cap) (n : Nat) :
  CountedRing.contents slots cap head n = CountedRing.contents slots cap head' n
  := by
  apply List.map_congr_left
  intro i _
  rw [Nat.add_mod, h, ← Nat.add_mod]

/-- Writing the slot of the writer changes no entry. -/
theorem window_write {slots slots' : Nat → α} {start stop : UInt16} (hcap : cap ∣ 2 ^ 16)
    (hroom : count start stop < cap)
    (hold : ∀ k < cap, k ≠ stop.toNat % cap → slots' k = slots k) :
  window slots' cap start stop = window slots cap start stop
  := by
  apply CountedRing.contents_congr
  intro i hi
  apply hold
  · apply Nat.mod_lt
    omega
  · intro heq
    rw [← slot_stop hcap start stop] at heq
    have hsame := CountedRing.slot_inj (lt_trans hi hroom) hroom heq
    omega

/-- Advancing the writer appends the entry of its slot. -/
theorem window_push (slots : Nat → α) (start stop : UInt16) (hcap : cap ∣ 2 ^ 16)
    (hroom : count start stop + 1 < 2 ^ 16) :
  window slots cap start (stop + 1) = window slots cap start stop ++ [slots (stop.toNat % cap)]
  := by
  rw [window, count_succ_stop hroom, CountedRing.contents, List.range_succ, List.map_append,
    List.map_singleton, slot_stop hcap]
  rfl

/-- Advancing the reader drops the entry of its slot. -/
theorem window_pop (slots : Nat → α) {start stop : UInt16} (hcap : cap ∣ 2 ^ 16)
    (hne : start ≠ stop) :
  window slots cap start stop = slots (start.toNat % cap) :: window slots cap (start + 1) stop
  := by
  rw [window, ← count_succ_start hne, CountedRing.contents_pop]
  congr 1
  apply contents_mod
  rw [Nat.mod_mod, slot_succ hcap]

end FreeRing
