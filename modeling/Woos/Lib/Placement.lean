import Mathlib.Data.List.Nodup
import Mathlib.Data.List.Perm.Subperm
import Mathlib.Data.List.TakeWhile
import Mathlib.Tactic.Use

/-!
# Placing entries in cells

Entries `α` are placed in cells `β`, some of which are taken.  An entry may want a cell.
`settle` goes
through the entries and lets each keep the cell that it wants, unless the cell is taken already;
`fill` gives the others the first free cells of a list, from where the last one was found.
`place` does one after the other.

The cells that are given out are distinct and were free (`nodup_place`); with enough cells every
entry is placed, those that keep their cells first (`map_fst_place`).  Which entries these are is
said in `getElem?_settle`: those whose cell is free and not wanted by an earlier entry.
-/

namespace Placement

variable {α β : Type*}

/-! ### Marked entries -/

/-- The entries that keep a cell, with their cells. -/
def kept (marks : List (α × Option β)) : List (α × β) :=
  marks.filterMap (fun m => m.2.map (m.1, ·))

/-- The entries that keep no cell. -/
def left (marks : List (α × Option β)) : List α :=
  (marks.filter (fun m => m.2.isNone)).map Prod.fst

/-- The entries that keep a cell, and then the others. -/
def order (marks : List (α × Option β)) : List α :=
  (marks.filter (fun m => m.2.isSome) ++ marks.filter (fun m => m.2.isNone)).map Prod.fst

@[simp]
theorem kept_cons_some (a : α) (c : β) (marks : List (α × Option β)) :
  kept ((a, some c) :: marks) = (a, c) :: kept marks
  := rfl

@[simp]
theorem kept_cons_none (a : α) (marks : List (α × Option β)) :
  kept ((a, none) :: marks) = kept marks
  := rfl

@[simp]
theorem mem_kept {a : α} {c : β} {marks : List (α × Option β)} :
  (a, c) ∈ kept marks ↔ (a, some c) ∈ marks
  := by
  simp [kept]

theorem map_fst_kept (marks : List (α × Option β)) :
  (kept marks).map Prod.fst = (marks.filter (fun m => m.2.isSome)).map Prod.fst
  := by
  induction marks with
  | nil => rfl
  | cons m marks ih =>
      obtain ⟨a, _ | c⟩ := m
      · simpa using ih
      · simpa using ih

theorem order_perm (marks : List (α × Option β)) :
  (order marks).Perm (marks.map Prod.fst)
  := by
  have h := List.filter_append_perm (fun m : α × Option β => m.2.isSome) marks
  simp only [Option.not_isSome] at h
  apply h.map

/-- The entries that keep a cell stand first already. -/
theorem order_eq_iff {marks : List (α × Option β)} (hnodup : (marks.map Prod.fst).Nodup) :
  order marks = marks.map Prod.fst
    ↔ marks.Pairwise (fun m n => n.2.isSome → m.2.isSome)
  := by
  induction marks with
  | nil => simp [order]
  | cons m marks ih =>
      obtain ⟨a, c⟩ := m
      have ih := ih (List.nodup_cons.mp hnodup).2
      cases c with
      | some c =>
          have hcons : order ((a, some c) :: marks) = a :: order marks := by
            simp [order]
          rw [hcons, List.map_cons, List.cons.injEq, List.pairwise_cons, ih]
          simp
      | none =>
          rw [List.pairwise_cons]
          constructor
          · intro heq
            have hnone : marks.filter (fun m => m.2.isSome) = [] := by
              cases hfilter : marks.filter (fun m => m.2.isSome) with
              | nil => rfl
              | cons n rest =>
                  have hn : n ∈ marks := List.mem_of_mem_filter (hfilter ▸ List.mem_cons_self)
                  have ha : n.1 = a := by
                    simp [order, hfilter] at heq
                    exact heq.1
                  rw [List.map_cons, List.nodup_cons] at hnodup
                  exact absurd (List.mem_map.mpr ⟨n, hn, ha⟩) hnodup.1
            have hall : ∀ n ∈ marks, n.2 = none := by
              simpa using hnone
            constructor
            · intro n hn hsome
              rw [hall n hn] at hsome
              cases hsome
            · rw [List.pairwise_iff_forall_sublist]
              intro m n hsub hsome
              rw [hall n (hsub.subset (by simp))] at hsome
              cases hsome
          · rintro ⟨hfirst, hrest⟩
            have hall : ∀ n ∈ marks, n.2 = none := by
              intro n hn
              have := hfirst n hn
              simpa using this
            have hsome : marks.filter (fun m => m.2.isSome) = [] := by
              simpa using hall
            have hnone : marks.filter (fun m => m.2.isNone) = marks := by
              simpa using hall
            simp [order, hsome, hnone]

/-- Where an entry that keeps its cell stands in the order. -/
theorem getElem?_order_kept {marks : List (α × Option β)} {k : ℕ} {a : α} {c : β}
    (h : marks[k]? = some (a, some c)) :
  (order marks)[(marks.take k).countP (fun m => m.2.isSome)]? = some a
  := by
  obtain ⟨hk, hget⟩ := List.getElem?_eq_some_iff.mp h
  have hsplit : marks.filter (fun m => m.2.isSome)
      = (marks.take k).filter (fun m => m.2.isSome)
        ++ (a, some c) :: (marks.drop (k + 1)).filter (fun m => m.2.isSome) := by
    nth_rewrite 1 [← List.take_append_drop k marks]
    rw [List.drop_eq_getElem_cons hk, List.filter_append, hget, List.filter_cons_of_pos (by rfl)]
  rw [order, hsplit, List.countP_eq_length_filter]
  simp

/-- Where an entry that keeps no cell stands in the order. -/
theorem getElem?_order_left {marks : List (α × Option β)} {k : ℕ} {a : α}
    (h : marks[k]? = some (a, none)) :
  (order marks)[marks.countP (fun m => m.2.isSome)
      + (marks.take k).countP (fun m => m.2.isNone)]? = some a
  := by
  obtain ⟨hk, hget⟩ := List.getElem?_eq_some_iff.mp h
  have hsplit : marks.filter (fun m => m.2.isNone)
      = (marks.take k).filter (fun m => m.2.isNone)
        ++ (a, none) :: (marks.drop (k + 1)).filter (fun m => m.2.isNone) := by
    nth_rewrite 1 [← List.take_append_drop k marks]
    rw [List.drop_eq_getElem_cons hk, List.filter_append, hget, List.filter_cons_of_pos (by rfl)]
  rw [order, hsplit, List.countP_eq_length_filter, List.countP_eq_length_filter, List.map_append,
    List.getElem?_append_right (by simp)]
  simp

/-! ### The two passes -/

variable [DecidableEq β] (want : α → Option β)

/-- Each entry, with the cell that it keeps. -/
def settle : List β → List α → List (α × Option β)
  | _, [] => []
  | taken, a :: as =>
    match (want a).filter (· ∉ taken) with
    | some c => (a, some c) :: settle (c :: taken) as
    | none => (a, none) :: settle taken as

/-- The entries in the first free cells, until there is none. -/
def fill : List β → List β → List α → List (α × β)
  | _, _, [] => []
  | taken, cells, a :: as =>
    match cells.dropWhile (· ∈ taken) with
    | [] => []
    | c :: rest => (a, c) :: fill (c :: taken) rest as

/-- The entries that keep their cells, and then the others in the first free cells. -/
def place (taken cells : List β) (as : List α) : List (α × β) :=
  let marks := settle want taken as
  kept marks ++ fill ((kept marks).map Prod.snd ++ taken) cells (left marks)

variable {want}

/-! ### Keeping a cell -/

theorem settle_cons_some {taken : List β} {a : α} {c : β} (as : List α) (hwant : want a = some c)
    (hfree : c ∉ taken) :
  settle want taken (a :: as) = (a, some c) :: settle want (c :: taken) as
  := by
  rw [settle, hwant, Option.filter_some_pos (by simpa using hfree)]

theorem settle_cons_none {taken : List β} {a : α} (as : List α)
    (h : ∀ c, want a = some c → c ∈ taken) :
  settle want taken (a :: as) = (a, none) :: settle want taken as
  := by
  have hnone : (want a).filter (· ∉ taken) = none := by
    rw [Option.filter_eq_none_iff]
    intro c hc
    simpa using h c hc
  rw [settle, hnone]

/-- An entry keeps the cell that it wants, or that cell is taken. -/
theorem settle_cons_cases (want : α → Option β) (taken : List β) (a : α) (as : List α) :
  (∃ c, want a = some c ∧ c ∉ taken
      ∧ settle want taken (a :: as) = (a, some c) :: settle want (c :: taken) as)
    ∨ (∀ c, want a = some c → c ∈ taken)
      ∧ settle want taken (a :: as) = (a, none) :: settle want taken as
  := by
  cases hwant : want a with
  | none =>
      right
      have h : ∀ c, want a = some c → c ∈ taken := by
        simp [hwant]
      use by simp
      apply settle_cons_none as h
  | some c =>
      by_cases hc : c ∈ taken
      · right
        have h : ∀ d, want a = some d → d ∈ taken := by
          intro d hd
          rw [hwant] at hd
          rwa [← Option.some_inj.mp hd]
        use by simpa using hc
        apply settle_cons_none as h
      · left
        use c, rfl, hc
        apply settle_cons_some as hwant hc

@[simp]
theorem map_fst_settle (taken : List β) (as : List α) :
  (settle want taken as).map Prod.fst = as
  := by
  induction as generalizing taken with
  | nil => rfl
  | cons a as ih =>
      rcases settle_cons_cases want taken a as with ⟨c, _, _, h⟩ | ⟨_, h⟩
      · rw [h, List.map_cons, ih]
      · rw [h, List.map_cons, ih]

/-- The mark of an entry: it keeps the cell that it wants unless the cell is taken at the start,
or wanted by an earlier entry. -/
theorem getElem?_settle (taken : List β) (as : List α) (k : ℕ) :
  (settle want taken as)[k]?
    = as[k]?.map (fun a =>
        (a, (want a).filter (fun c => c ∉ taken ∧ ∀ b ∈ as.take k, want b ≠ some c)))
  := by
  induction as generalizing taken k with
  | nil => rfl
  | cons a as ih =>
      rcases settle_cons_cases want taken a as with ⟨d, hwant, hfree, h⟩ | ⟨htaken, h⟩
      · rw [h]
        cases k with
        | zero => simp [hwant, hfree, Option.filter_some]
        | succ k =>
            rw [List.getElem?_cons_succ, List.getElem?_cons_succ, ih]
            congr
            funext b
            congr
            funext c
            simp only [List.take_succ_cons, List.mem_cons, forall_eq_or_imp, hwant]
            grind
      · rw [h]
        cases k with
        | zero =>
            have hnone : (want a).filter (· ∉ taken) = none := by
              simpa using htaken
            simpa using hnone.symm
        | succ k =>
            rw [List.getElem?_cons_succ, List.getElem?_cons_succ, ih]
            congr
            funext b
            congr
            funext c
            simp only [List.take_succ_cons, List.mem_cons, forall_eq_or_imp]
            have := htaken c
            grind

/-- The cells that are kept are distinct, and were free. -/
theorem nodup_settle {taken : List β} (as : List α) (htaken : taken.Nodup) :
  ((kept (settle want taken as)).map Prod.snd ++ taken).Nodup
  := by
  induction as generalizing taken with
  | nil => simpa [settle, kept] using htaken
  | cons a as ih =>
      rcases settle_cons_cases want taken a as with ⟨c, _, hfree, h⟩ | ⟨_, h⟩
      · have hnext := ih (List.nodup_cons.mpr ⟨hfree, htaken⟩)
        rw [h, kept_cons_some, List.map_cons, List.cons_append]
        apply List.perm_middle.nodup_iff.mp hnext
      · rw [h]
        apply ih htaken

theorem want_of_mem_settle {taken : List β} {as : List α} {a : α} {c : β}
    (h : (a, some c) ∈ settle want taken as) :
  want a = some c
  := by
  obtain ⟨k, hk⟩ := List.mem_iff_getElem?.mp h
  rw [getElem?_settle] at hk
  obtain ⟨b, _, heq⟩ := Option.map_eq_some_iff.mp hk
  obtain ⟨rfl, hfilter⟩ := Prod.mk.inj heq
  exact (Option.filter_eq_some_iff.mp hfilter).1

/-! ### The first free cells -/

theorem fill_cons_cases (taken cells : List β) (a : α) (as : List α) :
  (∀ c ∈ cells, c ∈ taken) ∧ fill taken cells (a :: as) = []
    ∨ ∃ before c rest, cells = before ++ c :: rest ∧ (∀ d ∈ before, d ∈ taken) ∧ c ∉ taken
      ∧ fill taken cells (a :: as) = (a, c) :: fill (c :: taken) rest as
  := by
  cases hdrop : cells.dropWhile (· ∈ taken) with
  | nil =>
      left
      use by simpa using List.dropWhile_eq_nil_iff.mp hdrop
      rw [fill, hdrop]
  | cons c rest =>
      right
      use cells.takeWhile (· ∈ taken), c, rest
      constructor
      · rw [← hdrop, List.takeWhile_append_dropWhile]
      · constructor
        · intro d hd
          simpa using List.mem_takeWhile_imp hd
        · constructor
          · have := List.head_dropWhile_not (· ∈ taken) (l := cells) (by rw [hdrop]; simp)
            simpa [hdrop] using this
          · rw [fill, hdrop]

/-- The cells that are filled are distinct, and were free. -/
theorem nodup_fill {taken : List β} (cells : List β) (as : List α) (htaken : taken.Nodup) :
  ((fill taken cells as).map Prod.snd ++ taken).Nodup
  := by
  induction as generalizing taken cells with
  | nil => simpa [fill] using htaken
  | cons a as ih =>
      rcases fill_cons_cases taken cells a as with ⟨_, h⟩ | ⟨_, c, rest, _, _, hfree, h⟩
      · rw [h]
        exact htaken
      · have hnext := ih rest (List.nodup_cons.mpr ⟨hfree, htaken⟩)
        rw [h, List.map_cons, List.cons_append]
        apply List.perm_middle.nodup_iff.mp hnext

theorem mem_cells_of_fill {taken cells : List β} {as : List α} {x : α × β}
    (h : x ∈ fill taken cells as) :
  x.2 ∈ cells
  := by
  induction as generalizing taken cells with
  | nil => cases h
  | cons a as ih =>
      rcases fill_cons_cases taken cells a as with ⟨_, hfill⟩ | ⟨before, c, rest, hcells, _, _, hfill⟩
      · rw [hfill] at h
        cases h
      · rw [hfill] at h
        rw [hcells]
        rcases List.mem_cons.mp h with rfl | h
        · simp
        · have := ih h
          simp [this]

/-- With enough free cells every entry gets one. -/
theorem map_fst_fill {taken cells : List β} {as : List α} (hcells : cells.Nodup)
    (hroom : as.length ≤ (cells.filter (· ∉ taken)).length) :
  (fill taken cells as).map Prod.fst = as
  := by
  induction as generalizing taken cells with
  | nil => rfl
  | cons a as ih =>
      rcases fill_cons_cases taken cells a as with ⟨hnone, _⟩ | ⟨before, c, rest, heq, hbefore, hfree, h⟩
      · have : cells.filter (· ∉ taken) = [] := by
          simpa using hnone
        rw [this] at hroom
        cases hroom
      · have hfilter : cells.filter (· ∉ taken) = c :: rest.filter (· ∉ c :: taken) := by
          have hc : c ∉ rest := by
            rw [heq] at hcells
            exact (List.nodup_cons.mp (List.nodup_append.mp hcells).2.1).1
          have hskip : before.filter (· ∉ taken) = [] := by
            simpa using hbefore
          rw [heq, List.filter_append, hskip, List.nil_append, List.filter_cons_of_pos (by simpa)]
          congr 1
          apply List.filter_congr
          intro d hd
          have : d ≠ c := by
            rintro rfl
            exact hc hd
          simp [this]
        rw [h, List.map_cons, ih]
        · rw [heq] at hcells
          exact (List.nodup_cons.mp (List.nodup_append.mp hcells).2.1).2
        · rw [hfilter, List.length_cons, List.length_cons] at hroom
          omega

/-- Taken cells take at most as many of the free ones. -/
theorem room_le (taken : List β) {cells : List β} (hcells : cells.Nodup) :
  cells.length ≤ (cells.filter (· ∉ taken)).length + taken.length
  := by
  have hsub : (cells.filter (· ∈ taken)).length ≤ taken.length := by
    apply List.Subperm.length_le
    apply List.subperm_of_subset (hcells.filter _)
    intro c hc
    simpa using (List.mem_filter.mp hc).2
  have hlen := List.length_eq_length_filter_add (l := cells) (fun c => decide (c ∉ taken))
  simp only [decide_not, Bool.not_not] at hlen hsub ⊢
  omega

/-! ### Both -/

/-- The cells that are given out are distinct, and were free. -/
theorem nodup_place {taken : List β} (cells : List β) (as : List α) (htaken : taken.Nodup) :
  ((place want taken cells as).map Prod.snd ++ taken).Nodup
  := by
  have hsettle : ((kept (settle want taken as)).map Prod.snd ++ taken).Nodup := by
    apply nodup_settle as htaken
  have hfill := nodup_fill cells (left (settle want taken as)) hsettle
  rw [place, List.map_append, List.append_assoc]
  apply List.perm_append_comm_assoc _ _ _ |>.nodup_iff.mp hfill

/-- An entry is placed in the cell that it wants, or in one of the list. -/
theorem mem_place {taken cells : List β} {as : List α} {a : α} {c : β}
    (h : (a, c) ∈ place want taken cells as) :
  want a = some c ∨ c ∈ cells
  := by
  rw [place] at h
  rcases List.mem_append.mp h with h | h
  · left
    apply want_of_mem_settle (mem_kept.mp h)
  · right
    apply mem_cells_of_fill h

/-- An entry keeps the cell that it wants when that is free and no other entry wants it. -/
theorem mem_place_of_only {taken : List β} (cells : List β) {as : List α} {a : α} {c : β}
    (ha : a ∈ as) (hwant : want a = some c) (hfree : c ∉ taken)
    (honly : ∀ b ∈ as, want b = some c → b = a) :
  (a, c) ∈ place want taken cells as
  := by
  rw [place, List.mem_append, mem_kept]
  left
  clear cells
  induction as generalizing taken with
  | nil => cases ha
  | cons b as ih =>
      have hrest : ∀ b ∈ as, want b = some c → b = a := by
        intro b hb
        apply honly b (by simp [hb])
      by_cases hb : want b = some c
      · rw [honly b (by simp) hb, settle_cons_some as hwant hfree]
        apply List.mem_cons_self
      · have hne : b ≠ a := by
          rintro rfl
          exact hb hwant
        have ha : a ∈ as := (List.mem_cons.mp ha).resolve_left hne.symm
        rcases settle_cons_cases want taken b as with ⟨d, hd, _, h⟩ | ⟨_, h⟩
        · rw [h]
          apply List.mem_cons_of_mem
          apply ih ha _ hrest
          rw [List.mem_cons, not_or]
          refine ⟨?_, hfree⟩
          rintro rfl
          exact hb hd
        · rw [h]
          apply List.mem_cons_of_mem
          apply ih ha hfree hrest

/-- With enough cells, all entries are placed: those that keep their cells first. -/
theorem map_fst_place {taken cells : List β} {as : List α} (hcells : cells.Nodup)
    (hroom : as.length + taken.length ≤ cells.length) :
  (place want taken cells as).map Prod.fst = order (settle want taken as)
  := by
  have hsplit : (kept (settle want taken as)).length + (left (settle want taken as)).length
      = as.length := by
    have hlen := congrArg List.length (map_fst_kept (settle want taken as))
    have hmarks : ((settle want taken as).map Prod.fst).length = as.length := by
      rw [map_fst_settle]
    have htotal := List.length_eq_length_filter_add (l := settle want taken as)
      (fun m => m.2.isSome)
    rw [List.length_map, List.length_map] at hlen
    rw [List.length_map] at hmarks
    simp only [Option.not_isSome] at htotal
    rw [left, List.length_map]
    omega
  have hfree := room_le ((kept (settle want taken as)).map Prod.snd ++ taken) hcells
  rw [List.length_append, List.length_map] at hfree
  rw [place, List.map_append, map_fst_kept, map_fst_fill hcells (by omega), order, List.map_append,
    left]

theorem settle_map {γ : Type*} (g : γ → α) (taken : List β) (as : List γ) :
  settle want taken (as.map g)
    = (settle (fun a => want (g a)) taken as).map (Prod.map g id)
  := by
  induction as generalizing taken with
  | nil => rfl
  | cons a as ih =>
      rcases settle_cons_cases (fun a => want (g a)) taken a as with ⟨c, hwant, hfree, h⟩ | ⟨hnone, h⟩
      · rw [h, List.map_cons, settle_cons_some _ hwant hfree, ih]
        rfl
      · rw [h, List.map_cons, settle_cons_none _ hnone, ih]
        rfl

theorem fill_map {γ : Type*} (g : γ → α) (taken cells : List β) (as : List γ) :
  fill taken cells (as.map g) = (fill taken cells as).map (Prod.map g id)
  := by
  induction as generalizing taken cells with
  | nil => rfl
  | cons a as ih =>
      rw [List.map_cons, fill, fill]
      split
      · rfl
      · rw [ih]
        rfl

/-- What the entries are does not matter, only which cells they want. -/
theorem place_map {γ : Type*} (g : γ → α) (taken cells : List β) (as : List γ) :
  place want taken cells (as.map g)
    = (place (fun a => want (g a)) taken cells as).map (Prod.map g id)
  := by
  have hkept (marks : List (γ × Option β)) :
      kept (marks.map (Prod.map g id)) = (kept marks).map (Prod.map g id) := by
    simp [kept, List.filterMap_map, List.map_filterMap, Function.comp_def]
  have hleft (marks : List (γ × Option β)) :
      left (marks.map (Prod.map g id)) = (left marks).map g := by
    simp [left, List.filter_map, Function.comp_def]
  simp only [place]
  rw [settle_map, hkept, hleft, fill_map, List.map_append, List.map_map]
  rfl

/-- When the cells that the entries want are free and distinct, every entry gets the cell that it
wants, and the order of the entries remains. -/
theorem place_of_wanted {f : α → β} {taken cells : List β} {as : List α}
    (hwant : ∀ a ∈ as, want a = some (f a)) (hfree : ∀ a ∈ as, f a ∉ taken)
    (hnodup : (as.map f).Nodup) :
  place want taken cells as = as.map (fun a => (a, f a))
  := by
  have hsettle : settle want taken as = as.map (fun a => (a, some (f a))) := by
    clear cells
    induction as generalizing taken with
    | nil => rfl
    | cons a as ih =>
        rw [List.map_cons, List.nodup_cons] at hnodup
        rw [settle_cons_some as (hwant a (by simp)) (hfree a (by simp)), List.map_cons, ih]
        · intro b hb
          apply hwant b (by simp [hb])
        · intro b hb
          rw [List.mem_cons, not_or]
          use fun heq => hnodup.1 (List.mem_map.mpr ⟨b, hb, heq⟩)
          apply hfree b (by simp [hb])
        · exact hnodup.2
  have hkept : kept (as.map (fun a => (a, some (f a)))) = as.map (fun a => (a, f a)) := by
    simp [kept, List.filterMap_map]
  have hleft : left (as.map (fun a => (a, some (f a)))) = [] := by
    simp [left]
  rw [place, hsettle, hkept, hleft, fill, List.append_nil]

end Placement
