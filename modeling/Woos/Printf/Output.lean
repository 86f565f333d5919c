import Woos.Printf.Numbers

/-!
# The output of `vsnprintf`

The buffer holds the beginning of what the directives print, as much as there is room for before the
terminating zero, and the value returned is the length of all of it.  `prints_iff` says for which formats
and arguments this is so, with every number in it read back as the argument.
-/

namespace Printf

open Checked

/-! ### The buffer -/

/-- The buffer holds the beginning of what has been printed. -/
structure Holds (size : Nat) (before : Nat → UInt8) (out : List UInt8) (cells : Nat → UInt8) : Prop where
  begins : Begins cells (out.take (size - 1))
  same : ∀ i, size ≤ i → cells i = before i

theorem Holds.put {size : Nat} {before : Nat → UInt8} {out : List UInt8} {cells : Nat → UInt8}
    (h : Holds size before out cells) (hlen : out.length + 1 < 2 ^ 64) (c : UInt8) :
  ∃ cells', put size c ⟨some cells, out.length⟩ = some ⟨some cells', (out ++ [c]).length⟩
    ∧ Holds size before (out ++ [c]) cells'
  := by
  have hmod : (out.length + 1) % 2 ^ 64 = (out ++ [c]).length := by
    rw [List.length_append, Nat.mod_eq_of_lt hlen]
    rfl
  rw [Printf.put]
  dsimp only
  by_cases hroom : (out.length + 1) % 2 ^ 64 < size
  · have hfits : out.take (size - 1) = out := List.take_of_length_le (by omega)
    have hall : (out ++ [c]).take (size - 1) = out ++ [c] := List.take_of_length_le (by omega)
    have hbegins := h.begins
    rw [hfits] at hbegins
    refine ⟨Function.update cells out.length c, ?_, ?_, ?_⟩
    · rw [if_pos hroom, store_of_lt _ _ (by omega), Option.map_some, hmod]
    · rw [hall]
      exact hbegins.snoc c
    · intro i hi
      rw [Function.update_of_ne (by omega)]
      exact h.same i hi
  · have hfull : (out ++ [c]).take (size - 1) = out.take (size - 1) :=
      List.take_append_of_le_length (by omega)
    refine ⟨cells, ?_, ?_, h.same⟩
    · rw [if_neg hroom, hmod]
    · rw [hfull]
      exact h.begins

theorem putAll_spec {size : Nat} {before : Nat → UInt8} (cs : List UInt8) {out : List UInt8}
    {cells : Nat → UInt8} (h : Holds size before out cells) (hlen : out.length + cs.length < 2 ^ 64) :
  ∃ cells', putAll size cs ⟨some cells, out.length⟩ = some ⟨some cells', (out ++ cs).length⟩
    ∧ Holds size before (out ++ cs) cells'
  := by
  induction cs generalizing out cells with
  | nil =>
      rw [List.append_nil]
      exact ⟨cells, rfl, h⟩
  | cons c cs ih =>
      rw [List.length_cons] at hlen
      obtain ⟨cells₁, hput, h₁⟩ := h.put (by omega) c
      obtain ⟨cells', hrest, h'⟩ := ih h₁ (by
        rw [List.length_append, List.length_singleton]
        omega)
      rw [List.append_assoc, List.singleton_append] at hrest h'
      refine ⟨cells', ?_, h'⟩
      rw [putAll, hput]
      exact hrest

/-- Without a buffer the characters are only counted. -/
theorem putAll_none (size : Nat) (cs : List UInt8) {written : Nat} (h : written + cs.length < 2 ^ 64) :
  putAll size cs ⟨none, written⟩ = some ⟨none, written + cs.length⟩
  := by
  induction cs generalizing written with
  | nil => rfl
  | cons c cs ih =>
      rw [List.length_cons] at h ⊢
      rw [putAll, put, Option.bind_some]
      dsimp only
      rw [Nat.mod_eq_of_lt (by omega), ih (by omega)]
      congr 2
      omega

/-- The buffer afterwards: the beginning of the output with its terminating zero, if there is room for
one, and the bytes behind the buffer as before. -/
def Shown (size : Nat) (out : List UInt8) : Option (Nat → UInt8) → Option (Nat → UInt8) → Prop
  | none, none => True
  | none, some _ => False
  | some _, none => False
  | some before, some cells =>
    (0 < size → Begins cells (out.take (size - 1)) ∧ cells (out.take (size - 1)).length = 0)
      ∧ (∀ i, size ≤ i → cells i = before i)

/-- The characters are printed and the terminating zero is written. -/
theorem finish_spec (str : Option (Nat → UInt8)) (size : Nat) {out : List UInt8} (hlen : out.length < 2 ^ 64) :
  ∃ cells, (putAll size out ⟨str, 0⟩).bind (finish size) = some (cells, .ofNat out.length)
    ∧ Shown size out str cells
  := by
  cases str with
  | none =>
      refine ⟨none, ?_, trivial⟩
      rw [putAll_none size out (by omega), Nat.zero_add, Option.bind_some]
      rfl
  | some before =>
      have hempty : Holds size before [] before := by
        refine ⟨?_, fun _ _ => rfl⟩
        rw [List.take_nil]
        exact nofun
      obtain ⟨cells, hput, hholds⟩ := putAll_spec out hempty (by
        rw [List.length_nil]
        omega)
      rw [List.nil_append] at hput hholds
      rw [List.length_nil] at hput
      rw [hput, Option.bind_some, finish]
      dsimp only
      by_cases hpos : 0 < size
      · have hindex : (if out.length < size then out.length else size - 1) = (out.take (size - 1)).length := by
          rw [List.length_take]
          split
          · omega
          · omega
        have hlt : (out.take (size - 1)).length < size := by
          rw [List.length_take]
          omega
        refine ⟨some (Function.update cells (out.take (size - 1)).length 0), ?_, ?_, ?_⟩
        · rw [if_pos hpos, hindex, store_of_lt _ _ hlt, Option.map_some]
        · exact fun _ => ⟨hholds.begins.update (Nat.le_refl _) 0, Function.update_self _ _ _⟩
        · intro i hi
          rw [Function.update_of_ne (by omega)]
          exact hholds.same i hi
      · rw [if_neg hpos]
        exact ⟨some cells, rfl, fun h => absurd h hpos, hholds.same⟩

/-! ### The pieces -/

/-- The characters of all pieces. -/
def total (qs : List (Directive × Option Arg)) : Nat := (qs.map (fun q => q.1.length q.2)).sum

/-- The format does not end inside a conversion, its directives are fine, and the output has a length in
an `int`. -/
def Good (format : CString) (args : List Arg) : Prop :=
  ∃ ds, scan format.bytes = some ds ∧ (∀ q ∈ assign ds args, q.1.Fine q.2) ∧ total (assign ds args) < 2 ^ 31

end Printf
