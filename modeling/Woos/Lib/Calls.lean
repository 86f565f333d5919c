import Mathlib.Data.List.Basic

/-!
# Computations that make calls

A computation of type `Calls E α` makes calls and returns: it is the list of its calls, each with the
answer that it got, and its result.  It is `none` when it has been given up before it returned.

An observer follows the calls with a total function from states to states.  `Ends step r x Q` says that
whenever `x` returns, `Q` holds of its result and of the state in which it leaves the observer, when
this was in state `r` before.  There is one rule for each way in which a computation is made.
-/

/-- A computation that makes calls. -/
def Calls (E α : Type) : Type := Option (List E × α)

namespace Calls

variable {E α β σ R : Type}

/-- Return without a call. -/
def ret (a : α) : Calls E α := some ([], a)

/-- One computation after the other. -/
def andThen (x : Calls E α) (f : α → Calls E β) : Calls E β :=
  Option.bind x (fun p => Option.map (fun q => (p.1 ++ q.1, q.2)) (f p.2))

instance : Monad (Calls E) where
  pure := ret
  bind := andThen

/-- Make a call. -/
def call (e : E) : Calls E Unit := some ([e], ())

/-- Go on until there is a result, for a number of rounds at most. -/
def loop (body : σ → Calls E (σ ⊕ α)) : Nat → σ → Calls E α
  | 0, _ => none
  | n + 1, s => do
      match ← body s with
      | .inl s => loop body n s
      | .inr a => pure a

/-- Whenever the computation returns, its result and the state that the calls lead to are right. -/
structure Ends (step : R → E → R) (r : R) (x : Calls E α) (Q : α → R → Prop) : Prop where
  right : ∀ es a, x = some (es, a) → Q a (es.foldl step r)

namespace Ends

variable {step : R → E → R} {r : R} {Q : α → R → Prop}

theorem mono {x : Calls E α} {Q' : α → R → Prop} (h : Ends step r x Q)
    (himp : ∀ a r', Q a r' → Q' a r') :
  Ends step r x Q'
  := by
  constructor
  intro es a hx
  apply himp
  exact h.right es a hx

theorem pure {a : α} (h : Q a r) :
  Ends step r (Pure.pure a) Q
  := by
  constructor
  rintro es b ⟨⟩
  exact h

theorem call {e : E} {Q : Unit → R → Prop} (h : Q () (step r e)) :
  Ends step r (Calls.call e) Q
  := by
  constructor
  rintro es b ⟨⟩
  exact h

theorem bind {x : Calls E α} {f : α → Calls E β} {Q : β → R → Prop} {P : α → R → Prop}
    (hx : Ends step r x P) (hf : ∀ a r', P a r' → Ends step r' (f a) Q) :
  Ends step r (x >>= f) Q
  := by
  constructor
  intro es b hbind
  obtain ⟨p, hp, hrest⟩ := Option.bind_eq_some_iff.mp hbind
  obtain ⟨q, hq, hsame⟩ := Option.map_eq_some_iff.mp hrest
  obtain ⟨rfl, rfl⟩ := Prod.mk.inj hsame
  rw [List.foldl_append]
  apply (hf p.2 _ _).right q.1 q.2 hq
  exact hx.right p.1 p.2 hp

/-- A call, and what comes after it. -/
theorem call_bind {e : E} {f : Unit → Calls E α} (h : Ends step (step r e) (f ()) Q) :
  Ends step r (Calls.call e >>= f) Q
  := by
  apply bind (P := fun _ r' => r' = step r e) (call rfl)
  rintro ⟨⟩ r' rfl
  exact h

theorem ite {p : Prop} [Decidable p] {x y : Calls E α} (hx : p → Ends step r x Q)
    (hy : ¬ p → Ends step r y Q) :
  Ends step r (if p then x else y) Q
  := by
  split
  case isTrue hp => exact hx hp
  case isFalse hp => exact hy hp

/-- What each round keeps, holds when the loop ends. -/
theorem loop {body : σ → Calls E (σ ⊕ α)} {I : σ → R → Prop}
    (hround : ∀ s r', I s r' → Ends step r' (body s) (fun
      | .inl s', r'' => I s' r''
      | .inr a, r'' => Q a r'')) (n : Nat) {s : σ} (hinit : I s r) :
  Ends step r (Calls.loop body n s) Q
  := by
  induction n generalizing s r with
  | zero =>
      constructor
      intro es a hnone
      cases hnone
  | succ n ih =>
      apply bind (hround s r hinit)
      rintro (s' | a) r' hnext
      · exact ih hnext
      · exact pure hnext

/-- A state that no call leads out of. -/
theorem of_absorbing (habsorbing : ∀ e, step r e = r) (x : Calls E α) :
  Ends step r x (fun _ r' => r' = r)
  := by
  constructor
  rintro es a -
  induction es with
  | nil => rfl
  | cons e es ih => rw [List.foldl_cons, habsorbing, ih]

end Ends

/-- The computation returns, and its result and the state that the calls lead to are right. -/
structure Leads (step : R → E → R) (r : R) (x : Calls E α) (Q : α → R → Prop) : Prop where
  returns : ∃ es a, x = some (es, a) ∧ Q a (es.foldl step r)

namespace Leads

variable {step : R → E → R} {r : R} {Q : α → R → Prop}

theorem pure {a : α} (h : Q a r) :
  Leads step r (Pure.pure a) Q
  := ⟨[], a, rfl, h⟩

theorem call {e : E} {Q : Unit → R → Prop} (h : Q () (step r e)) :
  Leads step r (Calls.call e) Q
  := ⟨[e], (), rfl, h⟩

theorem bind {x : Calls E α} {f : α → Calls E β} {Q : β → R → Prop} {P : α → R → Prop}
    (hx : Leads step r x P) (hf : ∀ a r', P a r' → Leads step r' (f a) Q) :
  Leads step r (x >>= f) Q
  := by
  obtain ⟨es, a, rfl, hP⟩ := hx.returns
  obtain ⟨es', b, hfa, hQ⟩ := (hf a _ hP).returns
  refine ⟨es ++ es', b, ?_, ?_⟩
  · change Option.map _ (f a) = _
    rw [hfa]
    rfl
  · rw [List.foldl_append]
    exact hQ

/-- A call, and what comes after it. -/
theorem call_bind {e : E} {f : Unit → Calls E α} (h : Leads step (step r e) (f ()) Q) :
  Leads step r (Calls.call e >>= f) Q
  := by
  apply bind (P := fun _ r' => r' = step r e) (call rfl)
  rintro ⟨⟩ r' rfl
  exact h

end Leads

end Calls
