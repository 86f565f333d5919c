import Mathlib.Data.List.Basic
import Mathlib.Tactic.Use

/-!
# Codes with lead entries

A code writes each character as a word: an entry that leads it and tells its length, and entries that
continue it.  From the entries of a text alone one sees where its characters begin: what is left of a
text behind a text is one (`text_rest`), and a cut inside a word, or in front of an entry that continues
a word, is none between characters.
-/

/-- The words of a code, the length that a leading entry tells, and the entries that continue a word. -/
structure Code (χ α : Type*) where
  word : χ → List α
  width : α → Nat
  cont : α → Prop
  word_eq (c : χ) : ∃ lead rest, word c = lead :: rest ∧ ¬ cont lead ∧ (∀ b ∈ rest, cont b)
    ∧ width lead = (word c).length

namespace Code

variable {χ α : Type*} (K : Code χ α)

/-- The entries of a text. -/
def text (cs : List χ) : List α := cs.flatMap K.word

variable {K}

@[simp]
theorem text_nil :
  K.text [] = []
  := rfl

theorem text_cons (c : χ) (cs : List χ) :
  K.text (c :: cs) = K.word c ++ K.text cs
  := List.flatMap_cons

theorem text_append (as bs : List χ) :
  K.text (as ++ bs) = K.text as ++ K.text bs
  := List.flatMap_append

theorem text_concat (cs : List χ) (c : χ) :
  K.text (cs ++ [c]) = K.text cs ++ K.word c
  := by
  rw [text_append, text_cons, text_nil, List.append_nil]

theorem length_word_pos (c : χ) :
  0 < (K.word c).length
  := by
  obtain ⟨lead, rest, hword, -⟩ := K.word_eq c
  rw [hword]
  exact Nat.zero_lt_succ _

/-- Words that begin two equal texts are equal. -/
theorem word_eq_of_append {c d : χ} {as bs : List α} (h : K.word c ++ as = K.word d ++ bs) :
  K.word c = K.word d ∧ as = bs
  := by
  obtain ⟨lead, rest, hc, -, -, hwidth⟩ := K.word_eq c
  obtain ⟨lead', rest', hd, -, -, hwidth'⟩ := K.word_eq d
  have hlead : lead = lead' := by
    rw [hc, hd] at h
    exact (List.cons.inj h).1
  apply List.append_inj h
  rw [← hwidth, ← hwidth', hlead]

/-- What is left of a text behind a text is a text. -/
theorem text_rest {as bs : List χ} {rest : List α} (h : K.text as = K.text bs ++ rest) :
  ∃ cs, rest = K.text cs
  := by
  induction bs generalizing as with
  | nil => exact ⟨as, h.symm⟩
  | cons b bs ih =>
      cases as with
      | nil =>
          have hlength := congrArg List.length h
          have hpos := K.length_word_pos b
          rw [text_cons, text_nil, List.length_append, List.length_append, List.length_nil] at hlength
          omega
      | cons a as =>
          rw [text_cons, text_cons, List.append_assoc] at h
          exact ih (word_eq_of_append h).2

/-- A part of a word is no text. -/
theorem not_text_part {c : χ} {part missing : List α} (h : K.word c = part ++ missing)
    (hpart : part ≠ []) (hmissing : missing ≠ []) (cs : List χ) :
  part ≠ K.text cs
  := by
  rintro rfl
  cases cs with
  | nil => exact hpart rfl
  | cons d cs =>
      rw [text_cons, List.append_assoc] at h
      have hsame : K.word c ++ [] = K.word d ++ (K.text cs ++ missing) := by
        rw [List.append_nil]
        exact h
      have hrest := (word_eq_of_append hsame).2
      exact hmissing (List.append_eq_nil_iff.mp hrest.symm).2

/-- No text begins with an entry that continues a word. -/
theorem not_text_cont {b : α} (hcont : K.cont b) (rest : List α) (cs : List χ) :
  b :: rest ≠ K.text cs
  := by
  intro h
  cases cs with
  | nil => cases h
  | cons c cs =>
      obtain ⟨lead, tail, hword, hlead, -⟩ := K.word_eq c
      rw [text_cons, hword] at h
      rw [(List.cons.inj h).1] at hcont
      exact hlead hcont

/-- A cut inside a word is not between characters. -/
theorem not_cut {before cs : List χ} {c : χ} {part missing : List α}
    (h : K.word c = part ++ missing) (hpart : part ≠ []) (hmissing : missing ≠ []) :
  K.text cs ≠ K.text before ++ part
  := by
  intro hcut
  obtain ⟨rest, hrest⟩ := text_rest hcut
  exact not_text_part h hpart hmissing rest hrest

/-- A text from which the leading entry of a word is missing is none. -/
theorem not_headless {before cs : List χ} {b : α} {rest : List α} (hcont : K.cont b) :
  K.text cs ≠ K.text before ++ b :: rest
  := by
  intro hcut
  obtain ⟨tail, htail⟩ := text_rest hcut
  exact not_text_cont hcont rest tail htail

/-- A word in two parts. -/
theorem exists_parts {c : χ} {n : Nat} (hpos : 0 < n) (hn : n < (K.word c).length) :
  ∃ part rest, K.word c = part ++ rest ∧ part ≠ [] ∧ rest ≠ [] ∧ part.length = n
    ∧ rest.length = (K.word c).length - n
  := by
  have htake : ((K.word c).take n).length = n := by
    rw [List.length_take]
    omega
  have hdrop : ((K.word c).drop n).length = (K.word c).length - n := List.length_drop
  refine ⟨(K.word c).take n, (K.word c).drop n, (List.take_append_drop _ _).symm, ?_, ?_, htake,
    hdrop⟩
  · apply List.ne_nil_of_length_pos
    omega
  · apply List.ne_nil_of_length_pos
    omega

/-- A position in a text lies between two characters or inside one. -/
theorem boundary_or_inside (cs : List χ) {i : Nat} (hi : i ≤ (K.text cs).length) :
  (∃ before after, cs = before ++ after ∧ i = (K.text before).length)
    ∨ ∃ before c after n, cs = before ++ c :: after ∧ 0 < n ∧ n < (K.word c).length
      ∧ i = (K.text before).length + n
  := by
  induction cs generalizing i with
  | nil => exact Or.inl ⟨[], [], rfl, Nat.le_zero.mp hi⟩
  | cons c cs ih =>
      rw [text_cons, List.length_append] at hi
      by_cases hfirst : i < (K.word c).length
      · cases i with
        | zero => exact Or.inl ⟨[], c :: cs, rfl, rfl⟩
        | succ i =>
            exact Or.inr ⟨[], c, cs, i + 1, rfl, Nat.succ_pos i, hfirst, (Nat.zero_add _).symm⟩
      · rcases @ih (i - (K.word c).length) (by omega) with
          ⟨before, after, hcs, hposition⟩ | ⟨before, d, after, n, hcs, hpos, hn, hposition⟩
        · refine Or.inl ⟨c :: before, after, by rw [hcs, List.cons_append], ?_⟩
          rw [text_cons, List.length_append]
          omega
        · refine Or.inr ⟨c :: before, d, after, n, by rw [hcs, List.cons_append], hpos, hn, ?_⟩
          rw [text_cons, List.length_append]
          omega

end Code
