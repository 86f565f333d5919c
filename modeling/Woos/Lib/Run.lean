import Mathlib.Tactic.Use

/-!
# Runs of a partial step function

`Run.exec step s as` executes the actions `as` one after the other from the state `s`, and is
`none` as soon as one step has no result.  `Run.Guarded step guard s as` says that every
action of the run meets the condition `guard` in the state in which it is executed.
`Run.exec_invariant` is the induction principle: what holds at the start and is kept by every
step that meets the condition, holds at the end, and every such run has a result.

`Run.exec_agrees_iff` compares a run with a run of a total step function, its specification.

`Run.trace step s as` is the run of a total step function that returns a result for each
action.  `Run.trace_simulation` extends a simulation of single steps to runs.
-/

namespace Run

variable {S A : Type*} (step : S → A → Option S) (guard : S → A → Prop)

/-- Execute the actions one after the other. -/
def exec : S → List A → Option S
  | s, [] => some s
  | s, a :: as => (step s a).bind (fun s' => exec s' as)

/-- Every action meets the condition in the state in which it is executed. -/
def Guarded : S → List A → Prop
  | _, [] => True
  | s, a :: as => guard s a ∧ ∀ s', step s a = some s' → Guarded s' as

variable {step guard}

@[simp]
theorem exec_nil (s : S) :
  exec step s [] = some s
  := rfl

theorem exec_cons {s s' : S} {a : A} (as : List A) (h : step s a = some s') :
  exec step s (a :: as) = exec step s' as
  := by
  rw [exec, h, Option.bind_some]

theorem guarded_cons {s s' : S} {a : A} {as : List A} (hguard : guard s a) (h : step s a = some s')
    (hrest : Guarded step guard s' as) :
  Guarded step guard s (a :: as)
  := by
  use hguard
  intro t ht
  rw [h] at ht
  cases ht
  exact hrest

theorem exec_append {s s' : S} {as bs : List A} (h : exec step s as = some s') :
  exec step s (as ++ bs) = exec step s' bs
  := by
  induction as generalizing s with
  | nil =>
      cases h
      rfl
  | cons a as ih =>
      obtain ⟨t, ht, hrest⟩ := Option.bind_eq_some_iff.mp h
      rw [List.cons_append, exec_cons _ ht]
      apply ih hrest

theorem guarded_concat {s : S} {as : List A} {a : A} (h : Guarded step guard s as)
    (ha : ∀ s', exec step s as = some s' → guard s' a) :
  Guarded step guard s (as ++ [a])
  := by
  induction as generalizing s with
  | nil => exact ⟨ha s rfl, fun _ _ => trivial⟩
  | cons b as ih =>
      use h.1
      intro t ht
      apply ih (h.2 t ht)
      intro s' hs'
      apply ha
      rw [exec_cons _ ht, hs']

/-- What every step that meets the condition keeps, every run that meets it keeps. -/
theorem exec_invariant
    {Inv : S → Prop} (hstep : ∀ s a, Inv s → guard s a → ∃ s', step s a = some s' ∧ Inv s')
    {s : S} {as : List A} (hinit : Inv s) (hguard : Guarded step guard s as) :
  ∃ s', exec step s as = some s' ∧ Inv s'
  := by
  induction as generalizing s with
  | nil => exact ⟨s, rfl, hinit⟩
  | cons a as ih =>
      obtain ⟨t, ht, hinv⟩ := hstep s a hinit hguard.1
      obtain ⟨s', hs', hinv'⟩ := ih hinv (hguard.2 t ht)
      use s'
      rw [exec_cons _ ht]
      use hs', hinv'

/-- What every step that meets the condition keeps, holds in every state that a run which meets
it reaches. -/
theorem exec_safe
    {Inv : S → Prop} (hstep : ∀ s a s', Inv s → guard s a → step s a = some s' → Inv s')
    {s s' : S} {as : List A} (hinit : Inv s) (hguard : Guarded step guard s as)
    (h : exec step s as = some s') :
  Inv s'
  := by
  induction as generalizing s with
  | nil =>
      cases h
      exact hinit
  | cons a as ih =>
      obtain ⟨t, ht, hrest⟩ := Option.bind_eq_some_iff.mp h
      exact ih (hstep s a t hinit hguard.1 ht) (hguard.2 t ht) hrest

/-- When the condition says which steps have a result, it says which runs have one. -/
theorem exec_isSome_iff (hstep : ∀ s a, (step s a).isSome ↔ guard s a) (s : S) (as : List A) :
  (exec step s as).isSome ↔ Guarded step guard s as
  := by
  induction as generalizing s with
  | nil => exact ⟨fun _ => trivial, fun _ => rfl⟩
  | cons a as ih =>
      have hguard := hstep s a
      rw [exec, Guarded, ← hguard]
      cases step s a with
      | none => simp
      | some t => simp [ih]

/-- Actions that meet the condition in every state. -/
theorem guarded_of_forall (s : S) {as : List A} (h : ∀ a ∈ as, ∀ s, guard s a) :
  Guarded step guard s as
  := by
  induction as generalizing s with
  | nil => trivial
  | cons a as ih =>
      use h a List.mem_cons_self s
      intro s' _
      apply ih
      intro b hb
      apply h b (List.mem_cons_of_mem a hb)

/-- When a step that misses the condition breaks a property for good, a run keeps the property when
every step meets the condition, and breaks it otherwise. -/
theorem exec_good_or_bad
    {Good Bad : S → Prop}
    (hgood : ∀ s a, Good s → guard s a → ∃ s', step s a = some s' ∧ Good s')
    (hbreak : ∀ s a, Good s → ¬ guard s a → ∃ s', step s a = some s' ∧ Bad s')
    (hbad : ∀ s a, Bad s → ∃ s', step s a = some s' ∧ Bad s')
    {s : S} (as : List A) (hinit : Good s) :
  ∃ s', exec step s as = some s' ∧ (Guarded step guard s as → Good s')
    ∧ (¬ Guarded step guard s as → Bad s')
  := by
  induction as generalizing s with
  | nil =>
      use s, rfl
      constructor
      · intro
        exact hinit
      · intro hnot
        exact absurd trivial hnot
  | cons a as ih =>
      by_cases hguard : guard s a
      · obtain ⟨t, ht, hkept⟩ := hgood s a hinit hguard
        obtain ⟨s', hs', hmeets, hmisses⟩ := ih hkept
        use s'
        rw [exec_cons _ ht]
        use hs'
        constructor
        · intro h
          apply hmeets (h.2 t ht)
        · intro h
          apply hmisses
          intro hrest
          apply h
          use hguard
          intro t' ht'
          rw [ht] at ht'
          cases ht'
          exact hrest
      · obtain ⟨t, ht, hbroken⟩ := hbreak s a hinit hguard
        obtain ⟨s', hs', hbroken'⟩ :=
          exec_invariant (fun s a h _ => hbad s a h) hbroken (guarded_of_forall t (fun _ _ _ => trivial))
        use s'
        rw [exec_cons _ ht]
        use hs'
        constructor
        · intro h
          exact absurd h.1 hguard
        · intro
          exact hbroken'

/-- When a step that misses the condition breaks the agreement, a run of a partial step function agrees
with a run of a total one all the way exactly when every step meets the condition. -/
theorem exec_agrees_iff {T : Type*} {step' : T → A → T} {guard : T → A → Prop}
    {Rel Agrees : S → T → Prop} (hrel : ∀ s t, Rel s t → Agrees s t)
    (hkeep : ∀ s t a, Rel s t → guard t a → ∃ s', step s a = some s' ∧ Rel s' (step' t a))
    (hbreak : ∀ s t a, Rel s t → ¬ guard t a → ∀ s', step s a = some s' → ¬ Agrees s' (step' t a))
    {s : S} {t : T} (h : Rel s t) (as : List A) :
  (∀ p, p <+: as → ∃ s', exec step s p = some s' ∧ Agrees s' (p.foldl step' t))
    ↔ Guarded (fun t a => some (step' t a)) guard t as
  := by
  induction as generalizing s t with
  | nil =>
      refine ⟨fun _ => trivial, fun _ p hp => ?_⟩
      obtain rfl := List.prefix_nil.mp hp
      exact ⟨s, rfl, hrel s t h⟩
  | cons a as ih =>
      by_cases hguard : guard t a
      · obtain ⟨s', hs', hnext⟩ := hkeep s t a h hguard
        constructor
        · intro hall
          refine ⟨hguard, fun t' ht' => ?_⟩
          cases ht'
          apply (ih hnext).mp
          intro p hp
          obtain ⟨u, hu, hagrees⟩ := hall (a :: p) (List.cons_prefix_cons.mpr ⟨rfl, hp⟩)
          rw [exec_cons p hs'] at hu
          exact ⟨u, hu, hagrees⟩
        · intro hrest p hp
          cases p with
          | nil => exact ⟨s, rfl, hrel s t h⟩
          | cons b p =>
              obtain ⟨rfl, hpre⟩ := List.cons_prefix_cons.mp hp
              rw [exec_cons p hs']
              exact (ih hnext).mpr (hrest.2 _ rfl) p hpre
      · refine ⟨fun hall => ?_, fun hrest => absurd hrest.1 hguard⟩
        obtain ⟨s', hs', hagrees⟩ := hall [a] (List.cons_prefix_cons.mpr ⟨rfl, List.nil_prefix⟩)
        obtain ⟨u, hu, hlast⟩ := Option.bind_eq_some_iff.mp hs'
        cases hlast
        exact absurd hagrees (hbreak s t a h hguard s' hu)

/-- When every step that meets the condition agrees with a step of a total function, every run that
meets it agrees with a run of that function. -/
theorem exec_related {T : Type*} {step' : T → A → T} {guard : T → A → Prop} {Rel : S → T → Prop}
    (hstep : ∀ s t a, Rel s t → guard t a → ∃ s', step s a = some s' ∧ Rel s' (step' t a))
    {s : S} {t : T} (h : Rel s t) {as : List A}
    (hguard : Guarded (fun t a => some (step' t a)) guard t as) :
  ∃ s', exec step s as = some s' ∧ Rel s' (as.foldl step' t)
  := by
  induction as generalizing s t with
  | nil => exact ⟨s, rfl, h⟩
  | cons a as ih =>
      obtain ⟨s', hs', hnext⟩ := hstep s t a h hguard.1
      rw [exec_cons as hs', List.foldl_cons]
      exact ih hnext (hguard.2 _ rfl)

/-- When a step that misses the condition breaks an invariant, a run of a total step function keeps it
all the way exactly when every step meets the condition. -/
theorem foldl_invariant_iff {f : S → A → S} {Inv : S → Prop}
    (hkeep : ∀ s a, Inv s → guard s a → Inv (f s a))
    (hbreak : ∀ s a, Inv s → ¬ guard s a → ¬ Inv (f s a)) {s : S} (h : Inv s) (as : List A) :
  (∀ p, p <+: as → Inv (p.foldl f s)) ↔ Guarded (fun s a => some (f s a)) guard s as
  := by
  induction as generalizing s with
  | nil =>
      refine ⟨fun _ => trivial, fun _ p hp => ?_⟩
      obtain rfl := List.prefix_nil.mp hp
      exact h
  | cons a as ih =>
      by_cases hguard : guard s a
      · have hnext := hkeep s a h hguard
        constructor
        · intro hall
          refine ⟨hguard, fun s' hs' => ?_⟩
          cases hs'
          apply (ih hnext).mp
          intro p hp
          exact hall (a :: p) (List.cons_prefix_cons.mpr ⟨rfl, hp⟩)
        · intro hrest p hp
          cases p with
          | nil => exact h
          | cons b p =>
              obtain ⟨rfl, hpre⟩ := List.cons_prefix_cons.mp hp
              exact (ih hnext).mpr (hrest.2 _ rfl) p hpre
      · refine ⟨fun hall => ?_, fun hrest => absurd hrest.1 hguard⟩
        have hnext := hall [a] (List.cons_prefix_cons.mpr ⟨rfl, List.nil_prefix⟩)
        exact absurd hnext (hbreak s a h hguard)

/-- A total step function folds over the actions. -/
theorem exec_some (f : S → A → S) (s : S) (as : List A) :
  exec (fun s a => some (f s a)) s as = some (as.foldl f s)
  := by
  induction as generalizing s with
  | nil => rfl
  | cons a as ih =>
      rw [exec_cons _ rfl, List.foldl_cons]
      apply ih

/-! ### Runs with results -/

section Trace

variable {S T A R : Type*}

/-- Execute the actions one after the other and collect their results. -/
def trace (step : S → A → R × S) : S → List A → List R × S
  | s, [] => ([], s)
  | s, a :: as =>
      let r := step s a
      let rs := trace step r.2 as
      (r.1 :: rs.1, rs.2)

/-- When `view` maps each step to a step with the same result, it maps each run to a run
with the same results. -/
theorem trace_simulation
    {step : S → A → R × S} {step' : T → A → R × T} {view : S → T}
    (hstep : ∀ s a, step' (view s) a = ((step s a).1, view (step s a).2)) (s : S) (as : List A) :
  trace step' (view s) as = ((trace step s as).1, view (trace step s as).2)
  := by
  induction as generalizing s with
  | nil => rfl
  | cons a as ih => simp only [trace, hstep, ih]

/-- When related states give the same result and stay related, related states have runs with the
same results. -/
theorem trace_related
    {step : S → A → R × S} {step' : T → A → R × T} {Rel : S → T → Prop}
    (hstep : ∀ s t a, Rel s t → (step s a).1 = (step' t a).1 ∧ Rel (step s a).2 (step' t a).2)
    {s : S} {t : T} (h : Rel s t) (as : List A) :
  (trace step s as).1 = (trace step' t as).1 ∧ Rel (trace step s as).2 (trace step' t as).2
  := by
  induction as generalizing s t with
  | nil => exact ⟨rfl, h⟩
  | cons a as ih =>
      obtain ⟨hresult, hnext⟩ := hstep s t a h
      obtain ⟨hresults, hlast⟩ := ih hnext
      simp only [trace, hresult, hresults]
      exact ⟨trivial, hlast⟩

end Trace

end Run
