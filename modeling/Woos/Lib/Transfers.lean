import Mathlib.Data.List.Range
import Mathlib.Tactic.Use

/-!
# Transfers of consecutive units

A device holds units that are numbered, and a buffer has a place of `size` bytes for each of them.  A
`Movement` says what a state becomes when the `j` units from `n` on have been moved between the device
and the buffer from `p` on, one after the other, and what it may be when that has broken off somewhere
between the unit `n + lo` and the unit `n + hi`.

`Transfers` is the specification of an operation that moves `k` units in groups of `g`: it moves all
of them when none is bad, and breaks off with an error in the group of the first bad unit.
`Transfers.append` composes it: two operations in a row, of which the second is made only when the
first has succeeded, are one operation on all the units, when the first has moved whole groups.
-/

/-- A way to move units, with the laws of its composition. -/
structure Movement (size : Nat) (A : Type*) where
  /-- The first `j` units from `n` on have been moved, from or to `p`. -/
  move : (n p j : Nat) → A → A
  /-- The units before `n + lo` have been moved, and those from `n + hi` on have not been touched. -/
  Broken : (n p lo hi : Nat) → A → A → Prop
  move_zero : ∀ n p s, move n p 0 s = s
  move_add : ∀ n p a b s, move n p (a + b) s = move (n + a) (p + size * a) b (move n p a s)
  broken_add : ∀ {n p a lo hi s s'}, Broken (n + a) (p + size * a) lo hi (move n p a s) s' →
    Broken n p (a + lo) (a + hi) s s'
  broken_mono : ∀ {n p lo hi hi' s s'}, hi ≤ hi' → Broken n p lo hi s s' → Broken n p lo hi' s s'

variable {size : Nat} {A : Type*}

/-- The `k` units from `n` on have been transferred, in groups of `g`, with the result `ok` and the
state `s'`.  When all of them have been moved, `Ready` holds.  A bad unit breaks the transfer off when
`Seen f k` holds of its place `f` among the `k` units. -/
structure Transfers (M : Movement size A) (Bad : Nat → Prop) (Seen : Nat → Nat → Prop)
    (g n p k : Nat) (s : A) (Ready : Prop) (ok : Bool) (s' : A) : Prop where
  whole : (∀ i < k, ¬ Bad (n + i)) → ok = true ∧ Ready ∧ s' = M.move n p k s
  broken : ∀ f < k, (∀ i < f, ¬ Bad (n + i)) → Bad (n + f) → Seen f k →
    ok = false ∧ M.Broken n p (f - f % g) (min k (f - f % g + g)) s s'

namespace Transfers

variable {M : Movement size A} {Bad : Nat → Prop} {Seen : Nat → Nat → Prop} {g n p : Nat}

/-- Nothing is to be moved. -/
theorem nil {s : A} {Ready : Prop} (hready : Ready) :
  Transfers M Bad Seen g n p 0 s Ready true s
  := by
  constructor
  · intro _
    exact ⟨rfl, hready, (M.move_zero n p s).symm⟩
  · intro f hf
    exact absurd hf (Nat.not_lt_zero f)

/-- Fewer bad units are seen. -/
theorem mono {Seen' : Nat → Nat → Prop} {k : Nat} {s s' : A} {Ready : Prop} {ok : Bool}
    (h : Transfers M Bad Seen g n p k s Ready ok s') (himp : ∀ f < k, Seen' f k → Seen f k) :
  Transfers M Bad Seen' g n p k s Ready ok s'
  := by
  constructor
  · exact h.whole
  · intro f hf hgood hbad hseen
    exact h.broken f hf hgood hbad (himp f hf hseen)

/-- The second transfer is made when the first one has succeeded. -/
theorem append {a b : Nat} {s s₁ s₂ : A} {Ready₁ Ready₂ : Prop} {ok₁ ok₂ : Bool} (hdvd : g ∣ a)
    (h₁ : Transfers M Bad Seen g n p a s Ready₁ ok₁ s₁)
    (h₂ : (∀ i < a, ¬ Bad (n + i)) → Transfers M Bad Seen g (n + a) (p + size * a) b s₁ Ready₂ ok₂ s₂)
    (hseen₁ : ∀ f < a, Seen f (a + b) → Seen f a) (hseen₂ : ∀ f, Seen (a + f) (a + b) → Seen f b) :
  Transfers M Bad Seen g n p (a + b) s Ready₂
    (if ok₁ then ok₂ else false) (if ok₁ then s₂ else s₁)
  := by
  constructor
  · intro hgood
    have hfirst : ∀ i < a, ¬ Bad (n + i) := fun i hi => hgood i (by omega)
    obtain ⟨hok₁, -, hs₁⟩ := h₁.whole hfirst
    have hsecond : ∀ i < b, ¬ Bad (n + a + i) := by
      intro i hi
      rw [Nat.add_assoc]
      exact hgood (a + i) (by omega)
    obtain ⟨hok₂, hready, hs₂⟩ := (h₂ hfirst).whole hsecond
    rw [if_pos hok₁, if_pos hok₁]
    refine ⟨hok₂, hready, ?_⟩
    rw [hs₂, hs₁, M.move_add]
  · intro f hf hgood hbad hseen
    by_cases hfa : f < a
    · obtain ⟨hok₁, hbroken⟩ := h₁.broken f hfa hgood hbad (hseen₁ f hfa hseen)
      rw [hok₁, if_neg Bool.false_ne_true, if_neg Bool.false_ne_true]
      exact ⟨rfl, M.broken_mono (by omega) hbroken⟩
    · -- The bad unit is in the second part, at the place `f - a`.
      obtain ⟨e, rfl⟩ := Nat.exists_eq_add_of_le (Nat.not_lt.mp hfa)
      have hfirst : ∀ i < a, ¬ Bad (n + i) := fun i hi => hgood i (by omega)
      obtain ⟨hok₁, -, hs₁⟩ := h₁.whole hfirst
      have hsecond : ∀ i < e, ¬ Bad (n + a + i) := by
        intro i hi
        rw [Nat.add_assoc]
        exact hgood (a + i) (by omega)
      rw [← Nat.add_assoc] at hbad
      obtain ⟨hok₂, hbroken⟩ := (h₂ hfirst).broken e (by omega) hsecond hbad (hseen₂ e hseen)
      rw [if_pos hok₁, if_pos hok₁]
      refine ⟨hok₂, ?_⟩
      obtain ⟨c, rfl⟩ := hdvd
      have hmod : (g * c + e) % g = e % g := Nat.mul_add_mod g c e
      have hle : e % g ≤ e := Nat.mod_le e g
      rw [hs₁] at hbroken
      have hwhole := M.broken_add hbroken
      rw [hmod, show g * c + e - e % g = g * c + (e - e % g) by omega]
      exact M.broken_mono (by omega) hwhole

/-- The first unit is bad. -/
theorem of_bad {k : Nat} {s s' : A} {Ready : Prop} {ok : Bool} (hbad : Bad n) (hk : 0 < k)
    (h : Seen 0 k → ok = false ∧ M.Broken n p 0 (min k g) s s') :
  Transfers M Bad Seen g n p k s Ready ok s'
  := by
  constructor
  · intro hgood
    exact absurd hbad (hgood 0 hk)
  · intro f hf hgood _ hseen
    have hzero : f = 0 := by
      by_contra hne
      exact hgood 0 (Nat.pos_of_ne_zero hne) hbad
    subst hzero
    rw [Nat.zero_mod, Nat.sub_zero, Nat.zero_add]
    exact h hseen

/-- The first unit is good, and has been moved by itself. -/
theorem cons {k : Nat} {s s' : A} {Ready : Prop} {ok : Bool} (hgood : ¬ Bad n)
    (h : Transfers M Bad Seen 1 (n + 1) (p + size) k (M.move n p 1 s) Ready ok s')
    (hseen : ∀ f, Seen (1 + f) (1 + k) → Seen f k) :
  Transfers M Bad Seen 1 n p (k + 1) s Ready ok s'
  := by
  constructor
  · intro hall
    have hrest : ∀ i < k, ¬ Bad (n + 1 + i) := by
      intro i hi
      rw [Nat.add_assoc, Nat.add_comm 1 i]
      exact hall (i + 1) (by omega)
    obtain ⟨hok, hready, hs'⟩ := h.whole hrest
    refine ⟨hok, hready, ?_⟩
    rw [hs', Nat.add_comm k 1, M.move_add, Nat.mul_one]
  · intro f hf hall hbad hseen'
    cases f with
    | zero => exact absurd hbad hgood
    | succ f =>
        have hrest : ∀ i < f, ¬ Bad (n + 1 + i) := by
          intro i hi
          rw [Nat.add_assoc, Nat.add_comm 1 i]
          exact hall (i + 1) (by omega)
        rw [show n + (f + 1) = n + 1 + f by omega] at hbad
        rw [Nat.add_comm f 1, Nat.add_comm k 1] at hseen'
        obtain ⟨hok, hbroken⟩ := h.broken f (by omega) hrest hbad (hseen f hseen')
        refine ⟨hok, ?_⟩
        rw [Nat.mod_one, Nat.sub_zero] at hbroken ⊢
        have hwhole : M.Broken n p (1 + f) (1 + min k (f + 1)) s s' := by
          apply M.broken_add
          rw [Nat.mul_one]
          exact hbroken
        rw [Nat.add_comm f 1]
        exact M.broken_mono (by omega) hwhole

end Transfers
