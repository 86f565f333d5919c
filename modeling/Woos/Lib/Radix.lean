import Mathlib.Data.List.Induction
import Mathlib.Data.Option.Basic
import Mathlib.Logic.Function.Basic

/-!
# Trees of tables

Entry `i` of the table `p` points to the table `next p i`, if any.  `Radix.node next p is` is the
table that is reached from the table `p` by the path `is`.

`Radix.Separate` says of the trees under several roots that no two paths reach the same table.
`own` selects the paths concerned, as some entries may lead into tables that trees share.  Then a
change of an entry is a change at one path of one tree: `Separate.node_graft` is the rule for a new
table, and `Separate.node_leaf` that for an entry that is the end of a path.
-/

namespace Radix

variable {P I : Type*} {next next' : P → I → Option P}

/-- The table at the end of a path. -/
def node (next : P → I → Option P) : P → List I → Option P
  | p, [] => some p
  | p, i :: is => (next p i).bind (fun q => node next q is)

theorem node_append (next : P → I → Option P) (p : P) (is js : List I) :
  node next p (is ++ js) = (node next p is).bind (fun q => node next q js)
  := by
  induction is generalizing p with
  | nil => rfl
  | cons i is ih =>
      rw [List.cons_append, node, node]
      cases next p i with
      | none => rfl
      | some q => apply ih

theorem node_snoc (next : P → I → Option P) (p : P) (is : List I) (i : I) :
  node next p (is ++ [i]) = (node next p is).bind (fun q => next q i)
  := by
  rw [node_append]
  congr 1
  funext q
  rw [node]
  cases next q i with
  | none => rfl
  | some r => rfl

theorem node_snoc_of_node {p q : P} {is : List I} (h : node next p is = some q) (i : I) :
  node next p (is ++ [i]) = next q i
  := by
  rw [node_snoc, h]
  rfl

/-- Paths do not leave a set of tables that is closed under entries. -/
theorem node_closed {S : P → Prop} (hS : ∀ p i q, S p → next p i = some q → S q) {p q : P} {is : List I}
    (hp : S p) (h : node next p is = some q) :
  S q
  := by
  induction is generalizing p with
  | nil =>
      cases h
      exact hp
  | cons i is ih =>
      obtain ⟨r, hr, hrest⟩ := Option.bind_eq_some_iff.mp h
      exact ih (hS p i r hp hr) hrest

/-- A path goes where it went, when the entries along it point where they pointed. -/
theorem node_congr {p : P} {is : List I}
    (h : ∀ js i, js ++ [i] <+: is → ∀ q, node next p js = some q → next' q i = next q i) :
  node next' p is = node next p is
  := by
  induction is using List.reverseRecOn with
  | nil => rfl
  | append_singleton is i ih =>
      have hpath : node next' p is = node next p is := by
        apply ih
        intro js j hjs
        apply h js j (hjs.trans (List.prefix_append is [i]))
      rw [node_snoc, node_snoc, hpath]
      cases hnode : node next p is with
      | none => rfl
      | some q =>
          rw [Option.bind_some, Option.bind_some]
          apply h is i (List.prefix_refl _) q hnode

/-! ### Separate trees -/

/-- The paths that are concerned: with a path, the shorter ones. -/
structure PrefixClosed (own : List I → Prop) : Prop where
  init : ∀ is i, own (is ++ [i]) → own is

theorem PrefixClosed.of_prefix {own : List I → Prop} (h : PrefixClosed own) {is js : List I}
    (hjs : own js) (hpath : is <+: js) :
  own is
  := by
  induction js using List.reverseRecOn with
  | nil =>
      rw [List.prefix_nil.mp hpath]
      exact hjs
  | append_singleton js j ih =>
      rcases List.prefix_concat_iff.mp hpath with rfl | hshorter
      · exact hjs
      · apply ih (h.init js j hjs) hshorter

/-- No two paths of the trees under the roots reach the same table. -/
structure Separate (next : P → I → Option P) (root : P → Prop) (own : List I → Prop) : Prop where
  eq : ∀ {r r' is is' p}, root r → root r' → own is → own is' → node next r is = some p →
    node next r' is' = some p → r = r' ∧ is = is'

/-- The tables of the trees. -/
def Reached (next : P → I → Option P) (root : P → Prop) (own : List I → Prop) (p : P) : Prop :=
  ∃ r is, root r ∧ own is ∧ node next r is = some p

theorem node_reached {root : P → Prop} {own : List I → Prop} {r p : P} {is : List I} (hr : root r)
    (his : own is) (hp : node next r is = some p) :
  Reached next root own p
  := ⟨r, is, hr, his, hp⟩

namespace Separate

variable {root : P → Prop} {own : List I → Prop} {r p q : P} {is : List I} {i : I}

/-- The entry at the end of a path changes, and the path does not go on: the tables are reached as
before. -/
theorem node_leaf (h : Separate next root own) (hown : PrefixClosed own) (hr : root r)
    (his : own is) (hp : node next r is = some p) (hleaf : ¬ own (is ++ [i]))
    (hsame : ∀ s, Reached next root own s → ∀ j, ¬ (s = p ∧ j = i) → next' s j = next s j)
    {r' : P} (hr' : root r') {js : List I} (hjs : own js) :
  node next' r' js = node next r' js
  := by
  apply node_congr
  intro ks k hks s hs
  have hksk := hown.of_prefix hjs hks
  apply hsame s (node_reached hr' (hown.init ks k hksk) hs)
  rintro ⟨rfl, rfl⟩
  obtain ⟨-, rfl⟩ := h.eq hr hr' his (hown.init ks k hksk) hp hs
  exact hleaf hksk

/-- The entry at the end of a path, which pointed to no table, points to the new table `q`, whose
entries point to none. -/
theorem node_graft [DecidableEq P] [DecidableEq I] (h : Separate next root own)
    (hown : PrefixClosed own) (hr : root r) (his : own is) (hp : node next r is = some p)
    (hnone : next p i = none)
    (hsame : ∀ s, Reached next root own s → ∀ j, ¬ (s = p ∧ j = i) → next' s j = next s j)
    (hnew : next' p i = some q) (hempty : ∀ j, next' q j = none)
    {r' : P} (hr' : root r') {js : List I} (hjs : own js) :
  node next' r' js = if r' = r ∧ js = is ++ [i] then some q else node next r' js
  := by
  induction js using List.reverseRecOn with
  | nil =>
      rw [if_neg]
      · rfl
      · rintro ⟨-, heq⟩
        simp at heq
  | append_singleton js j ih =>
      have hjs' := hown.init js j hjs
      rw [node_snoc, ih hjs']
      by_cases hnewnode : r' = r ∧ js = is ++ [i]
      · obtain ⟨rfl, rfl⟩ := hnewnode
        rw [if_pos ⟨rfl, rfl⟩, if_neg, node_snoc, node_snoc_of_node hp, hnone, Option.bind_some, hempty]
        · rfl
        · rintro ⟨-, heq⟩
          have hlen := congrArg List.length heq
          simp at hlen
      · rw [if_neg hnewnode, node_snoc]
        cases hs : node next r' js with
        | none =>
            rw [if_neg]
            · rfl
            · rintro ⟨rfl, heq⟩
              obtain ⟨rfl, -⟩ := List.append_inj' heq rfl
              rw [hp] at hs
              cases hs
        | some s =>
            rw [Option.bind_some, Option.bind_some]
            by_cases hslot : s = p ∧ j = i
            · obtain ⟨rfl, rfl⟩ := hslot
              obtain ⟨rfl, rfl⟩ := h.eq hr hr' his hjs' hp hs
              rw [if_pos ⟨rfl, rfl⟩, hnew]
            · rw [if_neg, hsame s (node_reached hr' hjs' hs) j hslot]
              rintro ⟨rfl, heq⟩
              obtain ⟨rfl, hj⟩ := List.append_inj' heq rfl
              rw [hp] at hs
              cases hs
              exact hslot ⟨rfl, List.singleton_inj.mp hj⟩

/-- The trees stay separate when the tables are reached as before. -/
theorem congr (h : Separate next root own)
    (hsame : ∀ r', root r' → ∀ js, own js → node next' r' js = node next r' js) :
  Separate next' root own
  := by
  constructor
  intro r r' is is' p hr hr' his his' hp hp'
  rw [hsame r hr is his] at hp
  rw [hsame r' hr' is' his'] at hp'
  exact h.eq hr hr' his his' hp hp'

/-- The trees stay separate when one path is added, which reaches a table that no path reached. -/
theorem graft [DecidableEq P] [DecidableEq I] (h : Separate next root own)
    (hfresh : ¬ Reached next root own q)
    (hnode : ∀ r', root r' → ∀ js, own js
      → node next' r' js = if r' = r ∧ js = is then some q else node next r' js) :
  Separate next' root own
  := by
  constructor
  intro r₁ r₂ is₁ is₂ s hr₁ hr₂ his₁ his₂ hs₁ hs₂
  rw [hnode r₁ hr₁ is₁ his₁] at hs₁
  rw [hnode r₂ hr₂ is₂ his₂] at hs₂
  split at hs₁
  case isTrue h₁ =>
    cases hs₁
    split at hs₂
    case isTrue h₂ => exact ⟨h₁.1.trans h₂.1.symm, h₁.2.trans h₂.2.symm⟩
    case isFalse => exact absurd (node_reached hr₂ his₂ hs₂) hfresh
  case isFalse =>
    split at hs₂
    case isTrue =>
      cases hs₂
      exact absurd (node_reached hr₁ his₁ hs₁) hfresh
    case isFalse => exact h.eq hr₁ hr₂ his₁ his₂ hs₁ hs₂

/-- The tables of the trees after a path is added. -/
theorem reached_graft [DecidableEq P] [DecidableEq I]
    (hnode : ∀ r', root r' → ∀ js, own js
      → node next' r' js = if r' = r ∧ js = is then some q else node next r' js)
    (hs : Reached next' root own p) :
  p = q ∨ Reached next root own p
  := by
  obtain ⟨r', js, hr', hjs, hs⟩ := hs
  rw [hnode r' hr' js hjs] at hs
  split at hs
  · left
    cases hs
    rfl
  · right
    exact node_reached hr' hjs hs

/-- The tables of the trees are the same when they are reached as before. -/
theorem reached_congr
    (hsame : ∀ r', root r' → ∀ js, own js → node next' r' js = node next r' js)
    (hs : Reached next' root own p) :
  Reached next root own p
  := by
  obtain ⟨r', js, hr', hjs, hs⟩ := hs
  rw [hsame r' hr' js hjs] at hs
  exact node_reached hr' hjs hs

/-- Fewer roots. -/
theorem mono (h : Separate next root own) {root' : P → Prop} (hroot : ∀ r, root' r → root r) :
  Separate next root' own
  := by
  constructor
  intro r r' is is' p hr hr'
  exact h.eq (hroot r hr) (hroot r' hr')

/-- A new root, whose tree is separate and does not meet the others. -/
theorem insert (h : Separate next root own) {r₀ : P}
    (hinner : ∀ {is is' p}, own is → own is' → node next r₀ is = some p
      → node next r₀ is' = some p → is = is')
    (hapart : ∀ {is p}, own is → node next r₀ is = some p → ¬ Reached next root own p) :
  Separate next (fun r => r = r₀ ∨ root r) own
  := by
  constructor
  rintro r r' is is' p (rfl | hr) (rfl | hr') his his' hp hp'
  · exact ⟨rfl, hinner his his' hp hp'⟩
  · exact absurd (node_reached hr' his' hp') (hapart his hp)
  · exact absurd (node_reached hr his hp) (hapart his' hp')
  · exact h.eq hr hr' his his' hp hp'

end Separate

end Radix
