import Mathlib.Logic.Basic
import Woos.Lib.Checked

/-!
# Painting cells of an array

`paint P f cells` changes the cells whose index is in `P`, each by the function that `f` has for its
index.  Painting disjoint sets one after the other paints their union (`paint_paint`), so a loop whose
passes paint disjoint sets paints their union (`fromTo_paint`).
-/

namespace Painting

open Checked

variable {α : Type*} {f : Nat → α → α} {P Q : Nat → Prop} {cells : Nat → α}

open Classical in
/-- The cells with those in `P` changed by `f`. -/
noncomputable def paint (P : Nat → Prop) (f : Nat → α → α) (cells : Nat → α) : Nat → α :=
  fun j => if P j then f j (cells j) else cells j

theorem paint_of_mem {j : Nat} (h : P j) :
  paint P f cells j = f j (cells j)
  := if_pos h

theorem paint_of_not_mem {j : Nat} (h : ¬ P j) :
  paint P f cells j = cells j
  := if_neg h

theorem paint_empty (f : Nat → α → α) (cells : Nat → α) (h : ∀ j, ¬ P j) :
  paint P f cells = cells
  := by
  funext j
  exact paint_of_not_mem (h j)

theorem paint_congr {g : Nat → α → α} (cells : Nat → α) (hset : ∀ j, P j ↔ Q j)
    (hfun : ∀ j, P j → f j = g j) :
  paint P f cells = paint Q g cells
  := by
  funext j
  by_cases h : P j
  · rw [paint_of_mem h, paint_of_mem ((hset j).mp h), hfun j h]
  · rw [paint_of_not_mem h, paint_of_not_mem (mt (hset j).mpr h)]

theorem paint_paint (f : Nat → α → α) (cells : Nat → α) (hdisjoint : ∀ j, P j → ¬ Q j) :
  paint Q f (paint P f cells) = paint (fun j => P j ∨ Q j) f cells
  := by
  funext j
  by_cases hp : P j
  · rw [paint_of_not_mem (hdisjoint j hp), paint_of_mem hp,
      paint_of_mem (P := fun j => P j ∨ Q j) (Or.inl hp)]
  · by_cases hq : Q j
    · rw [paint_of_mem hq, paint_of_mem (P := fun j => P j ∨ Q j) (Or.inr hq), paint_of_not_mem hp]
    · rw [paint_of_not_mem hq, paint_of_not_mem hp,
        paint_of_not_mem (P := fun j => P j ∨ Q j) (not_or.mpr ⟨hp, hq⟩)]

/-- Writing a cell paints it. -/
theorem update_eq_paint (f : Nat → α → α) (cells : Nat → α) (j : Nat) :
  Function.update cells j (f j (cells j)) = paint (fun i => i = j) f cells
  := by
  funext i
  by_cases h : i = j
  · rw [paint_of_mem (P := fun i => i = j) h, h, Function.update_self]
  · rw [paint_of_not_mem (P := fun i => i = j) h, Function.update_of_ne h]

/-- A loop whose passes paint disjoint sets. -/
theorem upTo_paint
    {body : Nat → (Nat → α) → Option (Nat → α)} {R : Nat → Nat → Prop} {n : Nat}
    (hbody : ∀ k < n, ∀ cells, body k cells = some (paint (R k) f cells))
    (hdisjoint : ∀ k < n, ∀ l < n, ∀ j, R k j → R l j → k = l) (cells : Nat → α) :
  upTo body n cells = some (paint (fun j => ∃ k < n, R k j) f cells)
  := by
  induction n with
  | zero =>
      rw [upTo, paint_empty]
      rintro j ⟨k, hk, -⟩
      exact Nat.not_lt_zero k hk
  | succ n ih =>
      rw [upTo, ih (fun k hk => hbody k (by omega))
        (fun k hk l hl => hdisjoint k (by omega) l (by omega)), Option.bind_some,
        hbody n (Nat.lt_succ_self n), paint_paint]
      · congr 1
        apply paint_congr _ _ (fun _ _ => rfl)
        intro j
        constructor
        · rintro (⟨k, hk, hj⟩ | hj)
          · exact ⟨k, by omega, hj⟩
          · exact ⟨n, Nat.lt_succ_self n, hj⟩
        · rintro ⟨k, hk, hj⟩
          by_cases hlast : k = n
          · exact Or.inr (hlast ▸ hj)
          · exact Or.inl ⟨k, by omega, hj⟩
      · rintro j ⟨k, hk, hj⟩ hlast
        have heq := hdisjoint k (by omega) n (by omega) j hj hlast
        omega

theorem fromTo_paint
    {first stop : Int} {body : Int → (Nat → α) → Option (Nat → α)} {R : Int → Nat → Prop}
    (hbody : ∀ k, first ≤ k → k < stop → ∀ cells, body k cells = some (paint (R k) f cells))
    (hdisjoint : ∀ k l j, R k j → R l j → k = l) (cells : Nat → α) :
  fromTo first stop body cells = some (paint (fun j => ∃ k, first ≤ k ∧ k < stop ∧ R k j) f cells)
  := by
  rw [fromTo, upTo_paint (R := fun k => R (first + k))]
  · congr 1
    apply paint_congr _ _ (fun _ _ => rfl)
    intro j
    constructor
    · rintro ⟨k, hk, hj⟩
      exact ⟨first + k, by omega, by omega, hj⟩
    · rintro ⟨k, hle, hlt, hj⟩
      refine ⟨(k - first).toNat, by omega, ?_⟩
      have heq : first + ((k - first).toNat : Int) = k := by omega
      rw [heq]
      exact hj
  · intro k hk cells
    exact hbody _ (by omega) (by omega) cells
  · intro k _ l _ j hk hl
    have heq := hdisjoint _ _ j hk hl
    omega

/-- A loop whose passes paint the cells with one key each. -/
theorem fromTo_paint_key
    {first stop d : Int} {body : Int → (Nat → α) → Option (Nat → α)} (key : Nat → Int)
    (hbody : ∀ k, first ≤ k → k < stop → ∀ cells,
      body k cells = some (paint (fun j => key j = d + k ∧ Q j) f cells)) (cells : Nat → α) :
  fromTo first stop body cells
    = some (paint (fun j => first ≤ key j - d ∧ key j - d < stop ∧ Q j) f cells)
  := by
  rw [fromTo_paint hbody]
  · congr 1
    apply paint_congr _ _ (fun _ _ => rfl)
    intro j
    constructor
    · rintro ⟨k, hle, hlt, hkey, hq⟩
      exact ⟨by omega, by omega, hq⟩
    · rintro ⟨hle, hlt, hq⟩
      exact ⟨key j - d, hle, hlt, by omega, hq⟩
  · rintro k l j ⟨hk, -⟩ ⟨hl, -⟩
    omega

end Painting
