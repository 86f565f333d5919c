import Mathlib.Tactic.Use
import Woos.Lib.Shift

/-!
# Visits

What has been visited, one entry after the other: `visit` shows a new entry and forgets those behind the
one that was shown, `back` and `forward` move by one entry.  `Stored` says that an array holds a history,
with the index of the entry that is shown and the number of entries.
-/

/-- A history of visits. -/
structure Visits (α : Type*) where
  /-- the entry that is shown and those before it, the last one first -/
  shown : List α
  /-- the entries behind the one that is shown -/
  after : List α

namespace Visits

variable {α : Type*}

/-- Nothing has been visited. -/
def empty : Visits α := ⟨[], []⟩

/-- The entry that is shown. -/
def current (h : Visits α) : Option α := h.shown.head?

/-- Show a new entry. -/
def visit (h : Visits α) (x : α) : Visits α := ⟨x :: h.shown, []⟩

/-- Show the entry before the one that is shown, when there is one. -/
def back : Visits α → Visits α
  | ⟨x :: y :: shown, after⟩ => ⟨y :: shown, x :: after⟩
  | h => h

/-- Show the entry behind the one that is shown, when there is one. -/
def forward : Visits α → Visits α
  | ⟨shown, y :: after⟩ => ⟨y :: shown, after⟩
  | h => h

theorem back_eq {h : Visits α} {x y : α} {rest : List α} (hshown : h.shown = x :: y :: rest) :
  h.back = ⟨y :: rest, x :: h.after⟩
  := by
  obtain ⟨shown, after⟩ := h
  cases hshown
  rfl

theorem forward_eq {h : Visits α} {y : α} {rest : List α} (hafter : h.after = y :: rest) :
  h.forward = ⟨y :: h.shown, rest⟩
  := by
  obtain ⟨shown, after⟩ := h
  cases hafter
  rfl

/-! ### Visits in arrays -/

/-- The array holds the history, with the index of the entry that is shown and the number of entries. -/
structure Stored (a : Nat → α) (idx count : Int) (h : Visits α) : Prop where
  idx_eq : idx + 1 = h.shown.length
  count_eq : count = h.shown.length + h.after.length
  entries_eq : Shift.entries a (h.shown.length + h.after.length) = h.shown.reverse ++ h.after

variable {a : Nat → α} {idx count : Int} {h : Visits α}

theorem stored_empty (a : Nat → α) :
  Stored a (-1) 0 empty
  := ⟨rfl, rfl, rfl⟩

/-- An entry of the array is an entry of the history. -/
theorem Stored.getElem? (hstored : Stored a idx count h) {i : Nat}
    (hi : i < h.shown.length + h.after.length) :
  (h.shown.reverse ++ h.after)[i]? = some (a i)
  := by
  have hlen : (h.shown.reverse ++ h.after).length = h.shown.length + h.after.length := by
    rw [List.length_append, List.length_reverse]
  have hentries := hstored.entries_eq
  rw [← hlen, Shift.entries_eq_iff] at hentries
  apply hentries i
  rw [hlen]
  exact hi

/-- The next entry of the array becomes the last one of the history. -/
theorem Stored.visit (hstored : Stored a idx count h) (x : α) :
  Stored (Function.update a (idx + 1).toNat x) (idx + 1) (idx + 1 + 1) (h.visit x)
  := by
  have hidx : (idx + 1).toNat = h.shown.length := by
    rw [hstored.idx_eq, Int.toNat_natCast]
  have hbefore : Shift.entries a h.shown.length = h.shown.reverse := by
    have hentries := hstored.entries_eq
    rw [Shift.entries_add] at hentries
    apply (List.append_inj hentries _).1
    rw [Shift.length_entries, List.length_reverse]
  refine ⟨?_, ?_, ?_⟩
  · rw [hstored.idx_eq, Visits.visit, List.length_cons]
    rfl
  · rw [hstored.idx_eq, Visits.visit, List.length_cons]
    rfl
  · rw [hidx, Visits.visit, List.length_cons, List.length_nil, Nat.add_zero, Shift.entries_succ,
      Shift.entries_update_ge _ (Nat.le_refl _), Function.update_self, hbefore, List.reverse_cons,
      List.append_nil]

/-- There is an entry before the one that is shown. -/
theorem Stored.back (hstored : Stored a idx count h) (hpos : 0 < idx) :
  ∃ x y rest, h.shown = x :: y :: rest ∧ a (idx - 1).toNat = y ∧ Stored a (idx - 1) count h.back
  := by
  obtain ⟨shown, after⟩ := h
  have hidx := hstored.idx_eq
  match shown, hstored, hidx with
  | [], _, hidx | [_], _, hidx =>
      simp only [List.length_nil, List.length_singleton] at hidx
      omega
  | x :: y :: rest, hstored, hidx =>
      simp only [List.length_cons] at hidx
      have hprev : (idx - 1).toNat = rest.length := by omega
      have hentry := hstored.getElem? (i := rest.length) (by simp only [List.length_cons]; omega)
      use x, y, rest, rfl
      constructor
      · rw [hprev]
        simpa using hentry.symm
      · refine ⟨?_, ?_, ?_⟩
        · simp only [Visits.back, List.length_cons]
          omega
        · have hcount := hstored.count_eq
          simp only [Visits.back, List.length_cons] at hcount ⊢
          omega
        · have hentries := hstored.entries_eq
          have hlen : (x :: y :: rest).length + after.length = (y :: rest).length + (x :: after).length := by
            simp only [List.length_cons]
            omega
          simp only [Visits.back]
          rw [← hlen, hentries, List.reverse_cons, List.append_assoc, List.singleton_append]

/-- There is none before the first entry. -/
theorem Stored.back_eq (hstored : Stored a idx count h) (hpos : ¬ 0 < idx) :
  h.back = h
  := by
  obtain ⟨shown, after⟩ := h
  have hidx := hstored.idx_eq
  match shown, hidx with
  | [], _ | [_], _ => rfl
  | x :: y :: rest, hidx =>
      simp only [List.length_cons] at hidx
      omega

/-- There is an entry behind the one that is shown. -/
theorem Stored.forward (hstored : Stored a idx count h) (hlt : idx < count - 1) :
  ∃ y rest, h.after = y :: rest ∧ a (idx + 1).toNat = y ∧ Stored a (idx + 1) count h.forward
  := by
  obtain ⟨shown, after⟩ := h
  have hidx := hstored.idx_eq
  have hcount := hstored.count_eq
  cases after with
  | nil =>
      simp only [List.length_nil] at hidx hcount
      omega
  | cons y rest =>
      have hnext : (idx + 1).toNat = shown.length := by
        rw [hidx, Int.toNat_natCast]
      have hentry := hstored.getElem? (i := shown.length) (by simp only [List.length_cons]; omega)
      use y, rest, rfl
      constructor
      · rw [hnext]
        simpa using hentry.symm
      · simp only [List.length_cons] at hidx hcount
        refine ⟨?_, ?_, ?_⟩
        · simp only [Visits.forward, List.length_cons]
          omega
        · simp only [Visits.forward, List.length_cons]
          omega
        · have hentries := hstored.entries_eq
          have hlen : shown.length + (y :: rest).length = (y :: shown).length + rest.length := by
            simp only [List.length_cons]
            omega
          simp only [Visits.forward]
          rw [← hlen, hentries, List.reverse_cons, List.append_assoc, List.singleton_append]

/-- There is none behind the last entry. -/
theorem Stored.forward_eq (hstored : Stored a idx count h) (hlt : ¬ idx < count - 1) :
  h.forward = h
  := by
  obtain ⟨shown, after⟩ := h
  have hidx := hstored.idx_eq
  have hcount := hstored.count_eq
  cases after with
  | nil => rfl
  | cons y rest =>
      simp only [List.length_cons] at hidx hcount
      omega

end Visits
