import Woos.Lib.Run
import Woos.Lib.Signed
import Mathlib.Algebra.Order.Group.Unbundled.Int
import Mathlib.Algebra.Order.Group.Abs
import Mathlib.Tactic.ByContra
import Mathlib.Tactic.SplitIfs

/-!
# The calculator

`handleButtonClick` is the calculator of `calc.wat` in words of 32 bits.  `Chain` is a calculator with
exact numbers, whose error is a division by zero or a result outside the words.  `exact_iff` says that
the calculator agrees with it after every press of a run exactly when every press of the run fits.
-/

namespace Calc

/-- An operator: the numbers 1 to 4 of `g_pending_op`. -/
inductive Op where
  | add
  | sub
  | mul
  | div
  deriving DecidableEq, Repr

end Calc

open Calc in
/-- The state of the calculator. -/
structure Calc where
  displayValue : Int32
  accumulator : Int32
  pendingOp : Option Op
  hasError : Bool
  inputMode : Bool
  deriving DecidableEq

namespace Calc

/-! ### Buttons -/

/-- The state of a calculator that has been started or cleared. -/
def start : Calc := ⟨0, 0, none, false, false⟩

/-- `i32.div_s`, which traps when the divisor is zero or the quotient no word. -/
def divS (a b : Int32) : Option Int32 :=
  if b = 0 ∨ (a = Int32.minValue ∧ b = -1) then none else some (a / b)

/-- `$execute_op` -/
def executeOp (c : Calc) : Option (Int32 × Calc) :=
  match c.pendingOp with
  | some .add => some (c.accumulator + c.displayValue, c)
  | some .sub => some (c.accumulator - c.displayValue, c)
  | some .mul => some (c.accumulator * c.displayValue, c)
  | some .div =>
      if c.displayValue = 0 then some (0, { c with hasError := true })
      else (divS c.accumulator c.displayValue).map (·, c)
  | none => some (c.displayValue, c)

/-- A digit. -/
def clickDigit (c : Calc) (btn : Int32) : Calc :=
  let c := if c.hasError then { c with hasError := false, inputMode := false } else c
  if c.inputMode then
    let abs := if c.displayValue < 0 then 0 - c.displayValue else c.displayValue
    if abs < 100000000 then
      if 0 ≤ c.displayValue then { c with displayValue := c.displayValue * 10 + btn }
      else { c with displayValue := c.displayValue * 10 - btn }
    else c
  else { c with displayValue := btn, inputMode := true }

/-- Backspace. -/
def clickBackspace (c : Calc) : Calc :=
  if c.hasError then { c with hasError := false, displayValue := 0, inputMode := false }
  else if c.inputMode then
    let c := { c with displayValue := c.displayValue / 10 }
    if c.displayValue = 0 then { c with inputMode := false } else c
  else c

/-- Negate. -/
def clickNegate (c : Calc) : Calc :=
  if c.hasError then c else { c with displayValue := 0 - c.displayValue }

/-- An operator. -/
def clickOperator (c : Calc) (op : Op) : Option Calc :=
  if c.hasError then some c
  else do
    let c ← if c.inputMode ∧ c.pendingOp.isSome then do
        let (v, c) ← c.executeOp
        some { c with displayValue := v }
      else some c
    if c.hasError then some c
    else some { c with accumulator := c.displayValue, pendingOp := some op, inputMode := false }

/-- Equals. -/
def clickEquals (c : Calc) : Option Calc :=
  if c.hasError then some c
  else if c.pendingOp.isSome then do
    let (v, c) ← c.executeOp
    some { c with displayValue := v, accumulator := v, pendingOp := none, inputMode := false }
  else some c

/-- `$handle_button_click`; a trap is none. -/
def handleButtonClick (c : Calc) (btn : Int32) : Option Calc :=
  if 0 ≤ btn ∧ btn ≤ 9 then some (c.clickDigit btn)
  else if btn = 10 then some start
  else if btn = 11 then some c.clickBackspace
  else if btn = 12 then some c.clickNegate
  else if btn = 16 then c.clickOperator .add
  else if btn = 15 then c.clickOperator .sub
  else if btn = 14 then c.clickOperator .mul
  else if btn = 13 then c.clickOperator .div
  else if btn = 17 then c.clickEquals
  else some c

/-! ### Exact numbers -/

/-- The exact result of an operation: none for a division by zero. -/
def Op.exact : Op → Int → Int → Option Int
  | .add, a, b => some (a + b)
  | .sub, a, b => some (a - b)
  | .mul, a, b => some (a * b)
  | .div, a, b => if b = 0 then none else some (a.tdiv b)

/-- A number that is a word. -/
def InWord (n : Int) : Prop := -2 ^ 31 ≤ n ∧ n < 2 ^ 31

instance (n : Int) : Decidable (InWord n) := inferInstanceAs (Decidable (_ ∧ _))

/-- The exact result, when it is a word. -/
def Op.result (op : Op) (a b : Int) : Option Int := (op.exact a b).filter (InWord ·)

/-- A chain of operations: the operand and the operator that wait, the number that is shown, whether
digits are appended to it, whether it has been entered since the operator, and whether there is an
error.  After the error of an operator the operand is entered again; the error of equals ends the
chain. -/
structure Chain where
  left : Option (Int × Op)
  shown : Int
  typing : Bool
  entered : Bool
  failed : Bool

namespace Chain

/-- Nothing has been entered. -/
def start : Chain := ⟨none, 0, false, false, false⟩

/-- A digit goes behind the number that is typed, unless that is long, or starts one. -/
def digit (s : Chain) (d : Int) : Chain :=
  if s.failed = false ∧ s.typing then
    if |s.shown| < 100000000 then
      { s with shown := if 0 ≤ s.shown then s.shown * 10 + d else s.shown * 10 - d }
    else s
  else { s with shown := d, typing := true, entered := true, failed := false }

/-- Erase the last digit of the number that is typed, or the error. -/
def backspace (s : Chain) : Chain :=
  if s.failed then { s with shown := 0, typing := false, entered := true, failed := false }
  else if s.typing then
    { s with shown := s.shown.tdiv 10, typing := decide (s.shown.tdiv 10 ≠ 0) }
  else s

/-- Negate the number that is shown. -/
def negate (s : Chain) : Chain :=
  if s.failed then s
  else if InWord (-s.shown) then { s with shown := -s.shown, entered := true }
  else { s with failed := true }

/-- An operator completes the operation that waits, or takes the place of its operator when nothing has
been entered since. -/
def operator (s : Chain) (op : Op) : Chain :=
  if s.failed then s
  else
    match s.left with
    | none => { s with left := some (s.shown, op), typing := false, entered := false }
    | some (a, waiting) =>
        if s.entered then
          match waiting.result a s.shown with
          | none => { s with failed := true }
          | some r =>
              { s with left := some (r, op), shown := r, typing := false, entered := false }
        else { s with left := some (a, op) }

/-- Equals completes the operation that waits. -/
def equals (s : Chain) : Chain :=
  if s.failed then s
  else
    match s.left with
    | none => s
    | some (a, waiting) =>
        match waiting.result a s.shown with
        | none => { s with left := none, typing := false, failed := true }
        | some r => { s with left := none, shown := r, typing := false, entered := false }

/-- A press of the button with a number. -/
def press (s : Chain) (btn : Int32) : Chain :=
  if 0 ≤ btn ∧ btn ≤ 9 then s.digit btn.toInt
  else if btn = 10 then start
  else if btn = 11 then s.backspace
  else if btn = 12 then s.negate
  else if btn = 16 then s.operator .add
  else if btn = 15 then s.operator .sub
  else if btn = 14 then s.operator .mul
  else if btn = 13 then s.operator .div
  else if btn = 17 then s.equals
  else s

/-- The operation that waits has a result that is a word, or divides by zero. -/
def ResultFits (s : Chain) : Prop :=
  ∀ a waiting, s.left = some (a, waiting) → ∀ r, waiting.exact a s.shown = some r → InWord r

/-- An operator fits when there is an error, no operation waits or nothing has been entered since; when
the operand has been typed and the result fits; or, when the operand has been negated or erased but not
typed, when the result is that operand. -/
def OperatorFits (s : Chain) : Prop :=
  s.failed = true ∨ s.left = none ∨ s.entered = false ∨ (s.typing = true ∧ s.ResultFits)
    ∨ (s.typing = false ∧ ∀ a waiting, s.left = some (a, waiting) →
      waiting.result a s.shown = some s.shown)

/-- The condition on a press. -/
def Fits (s : Chain) (btn : Int32) : Prop :=
  (btn = 12 → s.failed = true ∨ s.shown ≠ -2 ^ 31)
    ∧ (btn = 13 ∨ btn = 14 ∨ btn = 15 ∨ btn = 16 → s.OperatorFits)
    ∧ (btn = 17 → s.failed = true ∨ s.ResultFits)

end Chain

/-! ### Words are exact -/

section

variable {c : Calc} {s : Chain} {op : Op} {a b : Int32} {r : Int}

theorem inWord_toInt (a : Int32) :
  InWord a.toInt
  := ⟨a.le_toInt, a.toInt_lt⟩

/-- A division that does not trap is exact. -/
theorem toInt_divS {q : Int32} (h : divS a b = some q) :
  q.toInt = a.toInt.tdiv b.toInt
  := by
  rw [divS] at h
  split at h
  case isTrue => cases h
  case isFalse hok =>
    cases h
    by_cases hb : b = -1
    · have ha : a ≠ Int32.minValue := fun ha => hok (Or.inr ⟨ha, hb⟩)
      exact Int32.toInt_div_of_ne_left a b ha
    · exact Int32.toInt_div_of_ne_right a b hb

/-- A division whose result is a word does not trap. -/
theorem divS_isSome (hb : b ≠ 0) (h : InWord (a.toInt.tdiv b.toInt)) :
  ∃ q, divS a b = some q
  := by
  have hok : ¬ (b = 0 ∨ (a = Int32.minValue ∧ b = -1)) := by
    rintro (hzero | ⟨rfl, rfl⟩)
    · exact hb hzero
    · exact absurd h (by decide)
  exact ⟨a / b, if_neg hok⟩

theorem toInt_ne_zero (hb : b ≠ 0) :
  b.toInt ≠ 0
  := fun h => hb (Int32.toInt_inj.mp h)

/-- A result that is a word is what `execute_op` returns. -/
theorem executeOp_exact (hop : c.pendingOp = some op)
    (hexact : op.exact c.accumulator.toInt c.displayValue.toInt = some r) (hr : InWord r) :
  ∃ v, c.executeOp = some (v, c) ∧ v.toInt = r
  := by
  rw [executeOp, hop]
  cases op with
  | add =>
      cases hexact
      exact ⟨_, rfl, Signed.toInt_add hr.1 hr.2⟩
  | sub =>
      cases hexact
      exact ⟨_, rfl, Signed.toInt_sub hr.1 hr.2⟩
  | mul =>
      cases hexact
      exact ⟨_, rfl, Signed.toInt_mul hr.1 hr.2⟩
  | div =>
      rw [Op.exact] at hexact
      by_cases hzero : c.displayValue = 0
      · rw [hzero, if_pos Int32.toInt_zero] at hexact
        cases hexact
      · rw [if_neg (toInt_ne_zero hzero)] at hexact
        cases hexact
        obtain ⟨q, hq⟩ := divS_isSome hzero hr
        exact ⟨q, by rw [if_neg hzero, hq]; rfl, toInt_divS hq⟩

/-- A result that is no word traps or is returned cut to one. -/
theorem executeOp_overflow (hop : c.pendingOp = some op)
    (hexact : op.exact c.accumulator.toInt c.displayValue.toInt = some r) (hr : ¬ InWord r)
    {v : Int32} {c' : Calc} (h : c.executeOp = some (v, c')) :
  c' = c
  := by
  rw [executeOp, hop] at h
  cases op with
  | add =>
      cases h
      rfl
  | sub =>
      cases h
      rfl
  | mul =>
      cases h
      rfl
  | div =>
      rw [Op.exact] at hexact
      by_cases hzero : c.displayValue = 0
      · rw [hzero, if_pos Int32.toInt_zero] at hexact
        cases hexact
      · rw [if_neg (toInt_ne_zero hzero)] at hexact
        cases hexact
        dsimp only at h
        rw [if_neg hzero] at h
        obtain ⟨q, hq, -⟩ := Option.map_eq_some_iff.mp h
        rw [← toInt_divS hq] at hr
        exact absurd (inWord_toInt q) hr

/-- A division by zero is the error. -/
theorem executeOp_zero (hop : c.pendingOp = some op)
    (hexact : op.exact c.accumulator.toInt c.displayValue.toInt = none) :
  c.executeOp = some (0, { c with hasError := true })
  := by
  rw [executeOp, hop]
  cases op with
  | add => cases hexact
  | sub => cases hexact
  | mul => cases hexact
  | div =>
      rw [Op.exact] at hexact
      split at hexact
      case isTrue hzero =>
        have hdisplay : c.displayValue = 0 := Int32.toInt_inj.mp hzero
        exact if_pos hdisplay
      case isFalse => cases hexact

theorem result_eq_some {x y : Int} (hexact : op.exact x y = some r) (hr : InWord r) :
  op.result x y = some r
  := by
  rw [Op.result, hexact, Option.filter_some, if_pos (decide_eq_true hr)]

theorem result_eq_none {x y : Int} (hexact : op.exact x y = some r) (hr : ¬ InWord r) :
  op.result x y = none
  := by
  rw [Op.result, hexact, Option.filter_some, if_neg (by simpa using hr)]

theorem result_zero {x y : Int} (hexact : op.exact x y = none) :
  op.result x y = none
  := by
  rw [Op.result, hexact]
  rfl

end

/-! ### The calculator follows the chain -/

/-- The calculator shows what the chain does. -/
def Agrees (c : Calc) (s : Chain) : Prop :=
  c.hasError = s.failed ∧ (s.failed = false → c.displayValue.toInt = s.shown)

/-- The state of the calculator is that of the chain. -/
structure Follows (c : Calc) (s : Chain) : Prop where
  error : c.hasError = s.failed
  display : s.failed = false → c.displayValue.toInt = s.shown
  mode : s.failed = false → c.inputMode = s.typing
  pending : c.pendingOp = s.left.map Prod.snd
  accumulator : ∀ a op, s.left = some (a, op) → c.accumulator.toInt = a
  entered : s.typing = true → s.entered = true
  short : s.typing = true → |s.shown| < 1000000000
  waiting : s.failed = false → s.entered = false → ∀ a op, s.left = some (a, op) → s.shown = a

variable {c : Calc} {s : Chain}

theorem Follows.agrees (h : Follows c s) :
  Agrees c s
  := ⟨h.error, h.display⟩

theorem Follows.error_false (h : Follows c s) (hfailed : ¬ s.failed = true) :
  ¬ c.hasError = true
  := fun herror => hfailed (h.error.symm.trans herror)

theorem follows_start :
  Follows start .start
  where
  error := rfl
  display _ := rfl
  mode _ := rfl
  pending := rfl
  accumulator _ _ h := by cases h
  entered h := by cases h
  short h := by cases h
  waiting _ _ _ _ h := by cases h

/-- The guard of the source on the length of a number. -/
theorem abs_display_lt (h : |c.displayValue.toInt| < 1000000000) :
  ((if c.displayValue < 0 then 0 - c.displayValue else c.displayValue) < 100000000)
    ↔ |c.displayValue.toInt| < 100000000
  := by
  have hzero : (0 : Int32).toInt = 0 := rfl
  have hlimit : (100000000 : Int32).toInt = 100000000 := rfl
  have hbounds := abs_lt.mp h
  rw [Int32.lt_iff_toInt_lt, hlimit]
  split
  case isTrue hneg =>
    rw [Int32.lt_iff_toInt_lt, hzero] at hneg
    have hsub : (0 - c.displayValue).toInt = -c.displayValue.toInt := by
      rw [Signed.toInt_sub, hzero, Int.zero_sub]
      · omega
      · omega
    rw [hsub, abs_of_neg hneg]
  case isFalse hneg =>
    rw [Int32.lt_iff_toInt_lt, hzero, not_lt] at hneg
    rw [abs_of_nonneg hneg]

/-- A digit behind a number that is not long. -/
theorem toInt_append {v d : Int32} (hv : |v.toInt| < 100000000) (hd : 0 ≤ d.toInt ∧ d.toInt ≤ 9) :
  (v * 10 + d).toInt = v.toInt * 10 + d.toInt ∧ (v * 10 - d).toInt = v.toInt * 10 - d.toInt
  := by
  have hten : (10 : Int32).toInt = 10 := rfl
  have hbounds := abs_lt.mp hv
  have hmul : (v * 10).toInt = v.toInt * 10 := by
    rw [Signed.toInt_mul, hten]
    · rw [hten]
      omega
    · rw [hten]
      omega
  constructor
  · rw [Signed.toInt_add, hmul]
    · omega
    · omega
  · rw [Signed.toInt_sub, hmul]
    · omega
    · omega

theorem nonneg_iff {v : Int32} :
  0 ≤ v ↔ 0 ≤ v.toInt
  := Int32.le_iff_toInt_le

/-- The first digit of a number. -/
theorem clickDigit_fresh (h : c.hasError = true ∨ c.inputMode = false) (d : Int32) :
  c.clickDigit d = { c with displayValue := d, hasError := false, inputMode := true }
  := by
  cases c with
  | mk v a op error mode =>
      cases error with
      | true => rfl
      | false =>
          cases mode with
          | true => simp at h
          | false => rfl

/-- A digit behind others. -/
theorem clickDigit_append (herror : c.hasError = false) (hmode : c.inputMode = true) (d : Int32) :
  c.clickDigit d =
    if (if c.displayValue < 0 then 0 - c.displayValue else c.displayValue) < 100000000 then
      if 0 ≤ c.displayValue then { c with displayValue := c.displayValue * 10 + d }
      else { c with displayValue := c.displayValue * 10 - d }
    else c
  := by
  simp only [clickDigit, herror, Bool.false_eq_true, if_false, hmode, if_true]

theorem Follows.digit_fresh (h : Follows c s) {d : Int32} (hd : 0 ≤ d.toInt ∧ d.toInt ≤ 9) :
  Follows { c with displayValue := d, hasError := false, inputMode := true }
    { s with shown := d.toInt, typing := true, entered := true, failed := false }
  where
  error := rfl
  display _ := rfl
  mode _ := rfl
  pending := h.pending
  accumulator := h.accumulator
  entered _ := rfl
  short _ := by
    rw [abs_lt]
    dsimp only
    omega
  waiting _ hentered := by cases hentered

/-- The number that is typed has changed. -/
theorem Follows.typed (h : Follows c s) (htyping : s.typing = true) {v : Int32} {n : Int}
    (hv : v.toInt = n) (hn : |n| < 1000000000) :
  Follows { c with displayValue := v } { s with shown := n }
  where
  error := h.error
  display _ := hv
  mode := h.mode
  pending := h.pending
  accumulator := h.accumulator
  entered := h.entered
  short _ := hn
  waiting _ hentered := by
    rw [h.entered htyping] at hentered
    cases hentered

theorem Follows.digit (h : Follows c s) {d : Int32} (hd : 0 ≤ d.toInt ∧ d.toInt ≤ 9) :
  Follows (c.clickDigit d) (s.digit d.toInt)
  := by
  rw [Chain.digit]
  split
  case isTrue happend =>
    obtain ⟨hfailed, htyping⟩ := happend
    have hshown := h.display hfailed
    have hshort := h.short htyping
    rw [← hshown] at hshort
    rw [clickDigit_append (h.error.trans hfailed) ((h.mode hfailed).trans htyping), ← hshown]
    by_cases hroom : |c.displayValue.toInt| < 100000000
    · obtain ⟨hadd, hsub⟩ := toInt_append hroom hd
      have hbounds := abs_lt.mp hroom
      rw [if_pos ((abs_display_lt hshort).mpr hroom), if_pos hroom]
      by_cases hsign : 0 ≤ c.displayValue.toInt
      · rw [if_pos (nonneg_iff.mpr hsign), if_pos hsign]
        apply h.typed htyping hadd
        rw [abs_lt]
        omega
      · rw [if_neg (fun hle => hsign (nonneg_iff.mp hle)), if_neg hsign]
        apply h.typed htyping hsub
        rw [abs_lt]
        omega
    · rw [if_neg (fun hlt => hroom ((abs_display_lt hshort).mp hlt)), if_neg hroom]
      exact h
  case isFalse hfresh =>
    have hclick : c.hasError = true ∨ c.inputMode = false := by
      rw [h.error]
      cases hfailed : s.failed with
      | true => exact Or.inl rfl
      | false =>
          rw [h.mode hfailed]
          exact Or.inr (Bool.eq_false_iff.mpr (fun htyping => hfresh ⟨hfailed, htyping⟩))
    rw [clickDigit_fresh hclick]
    exact h.digit_fresh hd

/-- The number that is typed without its last digit. -/
theorem abs_tdiv_lt {n : Int} (h : |n| < 1000000000) :
  |n.tdiv 10| < 1000000000
  := by
  have hle : n.natAbs / 10 ≤ n.natAbs := Nat.div_le_self _ _
  have hquotient : (n.tdiv 10).natAbs = n.natAbs / 10 := Int.natAbs_tdiv n 10
  rw [Int.abs_eq_natAbs] at h ⊢
  omega

theorem Follows.backspace_error (h : Follows c s) :
  Follows { c with hasError := false, displayValue := 0, inputMode := false }
    { s with shown := 0, typing := false, entered := true, failed := false }
  where
  error := rfl
  display _ := rfl
  mode _ := rfl
  pending := h.pending
  accumulator := h.accumulator
  entered _ := rfl
  short htyping := by cases htyping
  waiting _ hentered := by cases hentered

/-- No digits are appended any more. -/
theorem Follows.stop_typing (h : Follows c s) :
  Follows { c with inputMode := false } { s with typing := false }
  where
  error := h.error
  display := h.display
  mode _ := rfl
  pending := h.pending
  accumulator := h.accumulator
  entered htyping := by cases htyping
  short htyping := by cases htyping
  waiting := h.waiting

theorem Follows.backspace (h : Follows c s) :
  Follows c.clickBackspace s.backspace
  := by
  rw [clickBackspace, Chain.backspace]
  by_cases hfailed : s.failed = true
  · rw [if_pos (h.error.trans hfailed), if_pos hfailed]
    exact h.backspace_error
  · have herror := h.error_false hfailed
    rw [if_neg herror, if_neg hfailed]
    rw [Bool.not_eq_true] at hfailed
    have hmode := h.mode hfailed
    by_cases htyping : s.typing = true
    · have hquotient : (c.displayValue / 10).toInt = s.shown.tdiv 10 := by
        rw [← h.display hfailed]
        exact Int32.toInt_div_of_ne_right _ _ (by decide)
      have hzero : c.displayValue / 10 = 0 ↔ s.shown.tdiv 10 = 0 := by
        rw [← hquotient]
        exact Int32.toInt_inj.symm
      have htyped := h.typed htyping hquotient (abs_tdiv_lt (h.short htyping))
      rw [if_pos (hmode.trans htyping), if_pos htyping]
      dsimp only
      by_cases hq : s.shown.tdiv 10 = 0
      · rw [if_pos (hzero.mpr hq), decide_eq_false (not_not.mpr hq)]
        exact htyped.stop_typing
      · rw [if_neg (fun hdisplay => hq (hzero.mp hdisplay)), decide_eq_true hq]
        rw [htyping] at htyped
        exact htyped
    · rw [if_neg (fun hinput => htyping (hmode.symm.trans hinput)), if_neg htyping]
      exact h

theorem inWord_neg_iff (v : Int32) :
  InWord (-v.toInt) ↔ v.toInt ≠ -2 ^ 31
  := by
  have hbounds := inWord_toInt v
  rw [InWord] at hbounds ⊢
  omega

/-- Another number has been entered by the negation. -/
theorem Follows.negated (h : Follows c s) {v : Int32} (hv : v.toInt = -s.shown) :
  Follows { c with displayValue := v } { s with shown := -s.shown, entered := true }
  where
  error := h.error
  display _ := hv
  mode := h.mode
  pending := h.pending
  accumulator := h.accumulator
  entered _ := rfl
  short htyping := by
    rw [abs_neg]
    exact h.short htyping
  waiting _ hentered := by cases hentered

theorem Follows.negate (h : Follows c s) (hfits : s.failed = true ∨ s.shown ≠ -2 ^ 31) :
  Follows c.clickNegate s.negate
  := by
  rw [clickNegate, Chain.negate]
  by_cases hfailed : s.failed = true
  · rw [if_pos (h.error.trans hfailed), if_pos hfailed]
    exact h
  · have hne := hfits.resolve_left hfailed
    rw [if_neg (h.error_false hfailed), if_neg hfailed]
    rw [Bool.not_eq_true] at hfailed
    have hshown := h.display hfailed
    rw [← hshown] at hne
    have hword := (inWord_neg_iff c.displayValue).mpr hne
    have hneg : (0 - c.displayValue).toInt = -s.shown := by
      rw [Signed.toInt_sub, Int32.toInt_zero, Int.zero_sub, hshown]
      · rw [Int32.toInt_zero, Int.zero_sub]
        exact hword.1
      · rw [Int32.toInt_zero, Int.zero_sub]
        exact hword.2
    rw [hshown] at hword
    rw [if_pos hword]
    exact h.negated hneg

/-- The least word is its own negative. -/
theorem Follows.negate_breaks (h : Follows c s)
    (hfits : ¬ (s.failed = true ∨ s.shown ≠ -2 ^ 31)) :
  ¬ Agrees c.clickNegate s.negate
  := by
  obtain ⟨hfailed, hshown⟩ := not_or.mp hfits
  have hword : ¬ InWord (-s.shown) := by
    rw [not_not.mp hshown]
    decide
  have herror := h.error
  rw [Bool.not_eq_true] at hfailed
  intro hagrees
  have hflag := hagrees.1
  rw [clickNegate, Chain.negate, herror, hfailed, if_neg Bool.false_ne_true,
    if_neg Bool.false_ne_true, if_neg hword] at hflag
  exact absurd hflag Bool.false_ne_true

/-! ### Operators -/

/-- The number that is shown becomes the operand that waits. -/
theorem clickOperator_direct (herror : ¬ c.hasError = true)
    (h : ¬ (c.inputMode = true ∧ c.pendingOp.isSome = true)) (op : Op) :
  c.clickOperator op
    = some { c with accumulator := c.displayValue, pendingOp := some op, inputMode := false }
  := by
  rw [clickOperator, if_neg herror, if_neg h, Option.bind_eq_bind, Option.bind_some]
  exact if_neg herror

/-- The operation that waits is executed first. -/
theorem clickOperator_execute (herror : ¬ c.hasError = true)
    (h : c.inputMode = true ∧ c.pendingOp.isSome = true) {v : Int32} {c' : Calc}
    (hexecute : c.executeOp = some (v, c')) (op : Op) :
  c.clickOperator op =
    if c'.hasError then some { c' with displayValue := v }
    else some { c' with
      displayValue := v, accumulator := v, pendingOp := some op, inputMode := false }
  := by
  rw [clickOperator, if_neg herror, if_pos h, hexecute]
  rfl

theorem Follows.waits (h : Follows c s) {v : Int32} {n : Int} (hv : v.toInt = n) (op : Op) :
  Follows { c with displayValue := v, accumulator := v, pendingOp := some op, inputMode := false }
    { s with left := some (n, op), shown := n, typing := false, entered := false }
  where
  error := h.error
  display _ := hv
  mode _ := rfl
  pending := rfl
  accumulator a op h := by
    cases h
    exact hv
  entered h := by cases h
  short h := by cases h
  waiting _ _ a op h := by
    cases h
    rfl

/-- A division by zero. -/
theorem Follows.fails (h : Follows c s) (v : Int32) :
  Follows { c with hasError := true, displayValue := v } { s with failed := true }
  where
  error := rfl
  display hfailed := by cases hfailed
  mode hfailed := by cases hfailed
  pending := h.pending
  accumulator := h.accumulator
  entered := h.entered
  short := h.short
  waiting hfailed := by cases hfailed

theorem Follows.pendingOp_eq (h : Follows c s) {a : Int} {op : Op} (hleft : s.left = some (a, op)) :
  c.pendingOp = some op
  := by
  rw [h.pending, hleft]
  rfl

/-- The exact operation is that of the words. -/
theorem Follows.exact_eq (h : Follows c s) (hfailed : s.failed = false) {a : Int} {op : Op}
    (hleft : s.left = some (a, op)) :
  op.exact c.accumulator.toInt c.displayValue.toInt = op.exact a s.shown
  := by
  rw [h.accumulator a op hleft, h.display hfailed]

section

variable {a : Int} {waiting : Op}

theorem operator_fails (hfailed : s.failed = false) (hleft : s.left = some (a, waiting))
    (hentered : s.entered = true) (hresult : waiting.result a s.shown = none) (op : Op) :
  s.operator op = { s with failed := true }
  := by
  simp only [Chain.operator, hfailed, Bool.false_eq_true, if_false, hleft, hentered, if_true, hresult]

theorem operator_completes (hfailed : s.failed = false) (hleft : s.left = some (a, waiting))
    (hentered : s.entered = true) {r : Int} (hresult : waiting.result a s.shown = some r) (op : Op) :
  s.operator op = { s with left := some (r, op), shown := r, typing := false, entered := false }
  := by
  simp only [Chain.operator, hfailed, Bool.false_eq_true, if_false, hleft, hentered, if_true, hresult]

/-- An operator in the place of another. -/
theorem operator_replaces (h : Follows c s) (hfailed : s.failed = false)
    (hleft : s.left = some (a, waiting)) (hentered : s.entered = false) (op : Op) :
  s.operator op
    = { s with left := some (s.shown, op), shown := s.shown, typing := false, entered := false }
  := by
  have htyping : s.typing = false := by
    rw [Bool.eq_false_iff]
    intro htyping
    rw [h.entered htyping] at hentered
    cases hentered
  have hshown := h.waiting hfailed hentered a waiting hleft
  simp only [Chain.operator, hfailed, Bool.false_eq_true, if_false, hleft, hentered, htyping, hshown]

theorem operator_starts (hfailed : s.failed = false) (hleft : s.left = none) (op : Op) :
  s.operator op
    = { s with left := some (s.shown, op), shown := s.shown, typing := false, entered := false }
  := by
  simp only [Chain.operator, hfailed, Bool.false_eq_true, if_false, hleft]

/-- A result that does not fit. -/
theorem exists_overflow (hleft : s.left = some (a, waiting)) (hresult : ¬ s.ResultFits) :
  ∃ r, waiting.exact a s.shown = some r ∧ ¬ InWord r
  := by
  by_contra hnone
  apply hresult
  intro a' waiting' hleft' r hr
  rw [hleft] at hleft'
  cases hleft'
  by_contra hword
  exact hnone ⟨r, hr, hword⟩

end

theorem Follows.operator (h : Follows c s) (hfits : s.OperatorFits) (op : Op) :
  ∃ c', c.clickOperator op = some c' ∧ Follows c' (s.operator op)
  := by
  by_cases hfailed : s.failed = true
  · refine ⟨c, ?_, ?_⟩
    · rw [clickOperator, if_pos (h.error.trans hfailed)]
    · rw [Chain.operator, if_pos hfailed]
      exact h
  have herror := h.error_false hfailed
  replace hfits := hfits.resolve_left hfailed
  rw [Bool.not_eq_true] at hfailed
  have hwaits := h.waits (h.display hfailed) op
  rcases hleft : s.left with _ | ⟨a, waiting⟩
  · have hdirect : ¬ (c.inputMode = true ∧ c.pendingOp.isSome = true) := by
      rw [h.pending, hleft]
      simp
    rw [operator_starts hfailed hleft]
    exact ⟨_, clickOperator_direct herror hdirect op, hwaits⟩
  have hpending := h.pendingOp_eq hleft
  have hexact := h.exact_eq hfailed hleft
  replace hfits := hfits.resolve_left (by rw [hleft]; exact Option.some_ne_none _)
  by_cases hentered : s.entered = true
  case neg =>
    rw [Bool.not_eq_true] at hentered
    have hdirect : ¬ (c.inputMode = true ∧ c.pendingOp.isSome = true) := by
      rw [h.mode hfailed]
      intro hmode
      rw [h.entered hmode.1] at hentered
      cases hentered
    rw [operator_replaces h hfailed hleft hentered]
    exact ⟨_, clickOperator_direct herror hdirect op, hwaits⟩
  case pos =>
    rcases hfits.resolve_left (by rw [hentered]; decide) with ⟨htyping, hresult⟩ | ⟨htyping, hresult⟩
    · have hmode : c.inputMode = true ∧ c.pendingOp.isSome = true := by
        rw [h.mode hfailed, hpending]
        exact ⟨htyping, rfl⟩
      cases hr : waiting.exact a s.shown with
      | none =>
          have hexecute := executeOp_zero hpending (hexact.trans hr)
          rw [operator_fails hfailed hleft hentered (result_zero hr)]
          exact ⟨_, (clickOperator_execute herror hmode hexecute op).trans (if_pos rfl), h.fails 0⟩
      | some r =>
          have hword := hresult a waiting hleft r hr
          obtain ⟨v, hexecute, hv⟩ := executeOp_exact hpending (hexact.trans hr) hword
          rw [operator_completes hfailed hleft hentered (result_eq_some hr hword)]
          exact ⟨_, (clickOperator_execute herror hmode hexecute op).trans (if_neg herror),
            h.waits hv op⟩
    · have hdirect : ¬ (c.inputMode = true ∧ c.pendingOp.isSome = true) := by
        rw [h.mode hfailed, htyping]
        simp
      rw [operator_completes hfailed hleft hentered (hresult a waiting hleft)]
      exact ⟨_, clickOperator_direct herror hdirect op, hwaits⟩

/-- A press that does not fit shows a wrong number, or no error, or traps. -/
theorem Follows.operator_breaks (h : Follows c s) (hfits : ¬ s.OperatorFits) (op : Op) {c' : Calc}
    (hclick : c.clickOperator op = some c') :
  ¬ Agrees c' (s.operator op)
  := by
  rw [Chain.OperatorFits, not_or, not_or, not_or, not_or, Bool.not_eq_true, Bool.not_eq_false] at hfits
  obtain ⟨hfailed, hleft, hentered, htyped, hother⟩ := hfits
  obtain ⟨⟨a, waiting⟩, hleft⟩ := Option.ne_none_iff_exists'.mp hleft
  have herror := h.error_false (Bool.eq_false_iff.mp hfailed)
  have hpending := h.pendingOp_eq hleft
  have hexact := h.exact_eq hfailed hleft
  rintro ⟨hflag, hnumber⟩
  by_cases htyping : s.typing = true
  · have hresult : ¬ s.ResultFits := fun hresult => htyped ⟨htyping, hresult⟩
    have hmode : c.inputMode = true ∧ c.pendingOp.isSome = true := by
      rw [h.mode hfailed, hpending]
      exact ⟨htyping, rfl⟩
    obtain ⟨r, hr, hword⟩ := exists_overflow hleft hresult
    rw [operator_fails hfailed hleft hentered (result_eq_none hr hword)] at hflag
    cases hexecute : c.executeOp with
    | none =>
        rw [clickOperator, if_neg herror, if_pos hmode, hexecute] at hclick
        cases hclick
    | some p =>
        obtain ⟨v, c₁⟩ := p
        obtain rfl := executeOp_overflow hpending (hexact.trans hr) hword hexecute
        rw [clickOperator_execute herror hmode hexecute op, if_neg herror] at hclick
        cases hclick
        exact herror hflag
  · rw [Bool.not_eq_true] at htyping
    have hdirect : ¬ (c.inputMode = true ∧ c.pendingOp.isSome = true) := by
      rw [h.mode hfailed, htyping]
      simp
    rw [clickOperator_direct herror hdirect op] at hclick
    cases hclick
    cases hr : waiting.result a s.shown with
    | none =>
        rw [operator_fails hfailed hleft hentered hr] at hflag
        exact herror hflag
    | some r =>
        rw [operator_completes hfailed hleft hentered hr] at hnumber
        have hsame : s.shown = r := (h.display hfailed).symm.trans (hnumber hfailed)
        apply hother
        use htyping
        intro a' waiting' hleft'
        rw [hleft] at hleft'
        cases hleft'
        rw [hr, hsame]

/-! ### Equals -/

section

variable {a : Int} {waiting : Op}

theorem clickEquals_execute (herror : ¬ c.hasError = true) (hpending : c.pendingOp = some waiting)
    {v : Int32} {c' : Calc} (hexecute : c.executeOp = some (v, c')) :
  c.clickEquals = some { c' with
    displayValue := v, accumulator := v, pendingOp := none, inputMode := false }
  := by
  rw [clickEquals, if_neg herror, hpending, hexecute]
  rfl

theorem equals_fails (hfailed : s.failed = false) (hleft : s.left = some (a, waiting))
    (hresult : waiting.result a s.shown = none) :
  s.equals = { s with left := none, typing := false, failed := true }
  := by
  simp only [Chain.equals, hfailed, Bool.false_eq_true, if_false, hleft, hresult]

theorem equals_completes (hfailed : s.failed = false) (hleft : s.left = some (a, waiting)) {r : Int}
    (hresult : waiting.result a s.shown = some r) :
  s.equals = { s with left := none, shown := r, typing := false, entered := false }
  := by
  simp only [Chain.equals, hfailed, Bool.false_eq_true, if_false, hleft, hresult]

theorem Follows.equals_waits (h : Follows c s) {v : Int32} {n : Int} (hv : v.toInt = n) :
  Follows { c with displayValue := v, accumulator := v, pendingOp := none, inputMode := false }
    { s with left := none, shown := n, typing := false, entered := false }
  where
  error := h.error
  display _ := hv
  mode _ := rfl
  pending := rfl
  accumulator a op h := by cases h
  entered h := by cases h
  short h := by cases h
  waiting _ _ a op h := by cases h

theorem Follows.equals_error (v : Int32) :
  Follows { c with
      displayValue := v, accumulator := v, pendingOp := none, hasError := true, inputMode := false }
    { s with left := none, typing := false, failed := true }
  where
  error := rfl
  display hfailed := by cases hfailed
  mode hfailed := by cases hfailed
  pending := rfl
  accumulator a op h := by cases h
  entered h := by cases h
  short h := by cases h
  waiting hfailed := by cases hfailed

theorem Follows.equals (h : Follows c s) (hfits : s.failed = true ∨ s.ResultFits) :
  ∃ c', c.clickEquals = some c' ∧ Follows c' s.equals
  := by
  by_cases hfailed : s.failed = true
  · refine ⟨c, ?_, ?_⟩
    · rw [clickEquals, if_pos (h.error.trans hfailed)]
    · rw [Chain.equals, if_pos hfailed]
      exact h
  have herror := h.error_false hfailed
  have hresult := hfits.resolve_left hfailed
  rw [Bool.not_eq_true] at hfailed
  rcases hleft : s.left with _ | ⟨a, waiting⟩
  · have hpending : c.pendingOp = none := by
      rw [h.pending, hleft]
      rfl
    refine ⟨c, ?_, ?_⟩
    · rw [clickEquals, if_neg herror, hpending]
      rfl
    · simp only [Chain.equals, hfailed, Bool.false_eq_true, if_false, hleft]
      exact h
  have hpending := h.pendingOp_eq hleft
  have hexact := h.exact_eq hfailed hleft
  cases hr : waiting.exact a s.shown with
  | none =>
      have hexecute := executeOp_zero hpending (hexact.trans hr)
      rw [equals_fails hfailed hleft (result_zero hr)]
      exact ⟨_, clickEquals_execute herror hpending hexecute, Follows.equals_error 0⟩
  | some r =>
      have hword := hresult a waiting hleft r hr
      obtain ⟨v, hexecute, hv⟩ := executeOp_exact hpending (hexact.trans hr) hword
      rw [equals_completes hfailed hleft (result_eq_some hr hword)]
      exact ⟨_, clickEquals_execute herror hpending hexecute, h.equals_waits hv⟩

theorem Follows.equals_breaks (h : Follows c s) (hfits : ¬ (s.failed = true ∨ s.ResultFits))
    {c' : Calc} (hclick : c.clickEquals = some c') :
  ¬ Agrees c' s.equals
  := by
  obtain ⟨hfailed, hresult⟩ := not_or.mp hfits
  have herror := h.error_false hfailed
  rw [Bool.not_eq_true] at hfailed
  have hleft : ∃ p, s.left = some p := by
    by_contra hnone
    apply hresult
    intro a waiting hleft
    exact absurd ⟨_, hleft⟩ hnone
  obtain ⟨⟨a, waiting⟩, hleft⟩ := hleft
  have hpending := h.pendingOp_eq hleft
  obtain ⟨r, hr, hword⟩ := exists_overflow hleft hresult
  rintro ⟨hflag, -⟩
  rw [equals_fails hfailed hleft (result_eq_none hr hword)] at hflag
  cases hexecute : c.executeOp with
  | none =>
      rw [clickEquals, if_neg herror, hpending, hexecute] at hclick
      cases hclick
  | some p =>
      obtain ⟨v, c₁⟩ := p
      have hexact := h.exact_eq hfailed hleft
      obtain rfl := executeOp_overflow hpending (hexact.trans hr) hword hexecute
      rw [clickEquals_execute herror hpending hexecute] at hclick
      cases hclick
      exact herror hflag

end

/-! ### Runs -/

theorem Follows.click (h : Follows c s) {btn : Int32} (hfits : s.Fits btn) :
  ∃ c', c.handleButtonClick btn = some c' ∧ Follows c' (s.press btn)
  := by
  obtain ⟨hnegate, hoperator, hequals⟩ := hfits
  rw [handleButtonClick, Chain.press]
  by_cases hdigit : 0 ≤ btn ∧ btn ≤ 9
  · rw [if_pos hdigit, if_pos hdigit]
    exact ⟨_, rfl, h.digit ⟨Int32.le_iff_toInt_le.mp hdigit.1, Int32.le_iff_toInt_le.mp hdigit.2⟩⟩
  rw [if_neg hdigit, if_neg hdigit]
  by_cases h10 : btn = 10
  · rw [if_pos h10, if_pos h10]
    exact ⟨_, rfl, follows_start⟩
  rw [if_neg h10, if_neg h10]
  by_cases h11 : btn = 11
  · rw [if_pos h11, if_pos h11]
    exact ⟨_, rfl, h.backspace⟩
  rw [if_neg h11, if_neg h11]
  by_cases h12 : btn = 12
  · rw [if_pos h12, if_pos h12]
    exact ⟨_, rfl, h.negate (hnegate h12)⟩
  rw [if_neg h12, if_neg h12]
  by_cases h16 : btn = 16
  · rw [if_pos h16, if_pos h16]
    exact h.operator (hoperator (Or.inr (Or.inr (Or.inr h16)))) .add
  rw [if_neg h16, if_neg h16]
  by_cases h15 : btn = 15
  · rw [if_pos h15, if_pos h15]
    exact h.operator (hoperator (Or.inr (Or.inr (Or.inl h15)))) .sub
  rw [if_neg h15, if_neg h15]
  by_cases h14 : btn = 14
  · rw [if_pos h14, if_pos h14]
    exact h.operator (hoperator (Or.inr (Or.inl h14))) .mul
  rw [if_neg h14, if_neg h14]
  by_cases h13 : btn = 13
  · rw [if_pos h13, if_pos h13]
    exact h.operator (hoperator (Or.inl h13)) .div
  rw [if_neg h13, if_neg h13]
  by_cases h17 : btn = 17
  · rw [if_pos h17, if_pos h17]
    exact h.equals (hequals h17)
  rw [if_neg h17, if_neg h17]
  exact ⟨c, rfl, h⟩

/-- Only the buttons that negate or compute may not fit. -/
theorem fits_other {btn : Int32} (hnegate : btn ≠ 12)
    (hoperator : ¬ (btn = 13 ∨ btn = 14 ∨ btn = 15 ∨ btn = 16)) (hequals : btn ≠ 17) :
  s.Fits btn
  := ⟨fun h => absurd h hnegate, fun h => absurd h hoperator, fun h => absurd h hequals⟩

theorem fits_operator {btn : Int32} (hbtn : btn = 13 ∨ btn = 14 ∨ btn = 15 ∨ btn = 16)
    (hfits : s.OperatorFits) :
  s.Fits btn
  := by
  refine ⟨?_, fun _ => hfits, ?_⟩
  · rintro rfl
    exact absurd hbtn (by decide)
  · rintro rfl
    exact absurd hbtn (by decide)

theorem fits_equals (hfits : s.failed = true ∨ s.ResultFits) :
  s.Fits 17
  := ⟨fun h => absurd h (by decide), fun h => absurd h (by decide), fun _ => hfits⟩

theorem fits_negate (hfits : s.failed = true ∨ s.shown ≠ -2 ^ 31) :
  s.Fits 12
  := ⟨fun _ => hfits, fun h => absurd h (by decide), fun h => absurd h (by decide)⟩

theorem Follows.click_breaks (h : Follows c s) {btn : Int32} (hfits : ¬ s.Fits btn) {c' : Calc}
    (hclick : c.handleButtonClick btn = some c') :
  ¬ Agrees c' (s.press btn)
  := by
  have hbuttons : btn = 12 ∨ (btn = 13 ∨ btn = 14 ∨ btn = 15 ∨ btn = 16) ∨ btn = 17 := by
    by_contra hnone
    rw [not_or, not_or] at hnone
    exact hfits (fits_other hnone.1 hnone.2.1 hnone.2.2)
  rcases hbuttons with rfl | hbtn | rfl
  · cases hclick
    exact h.negate_breaks (fun hnegate => hfits (fits_negate hnegate))
  · have hoperator : ¬ s.OperatorFits := fun hop => hfits (fits_operator hbtn hop)
    rcases hbtn with rfl | rfl | rfl | rfl
    · exact h.operator_breaks hoperator .div hclick
    · exact h.operator_breaks hoperator .mul hclick
    · exact h.operator_breaks hoperator .sub hclick
    · exact h.operator_breaks hoperator .add hclick
  · exact h.equals_breaks (fun hequals => hfits (fits_equals hequals)) hclick

/-- The calculator agrees with the chain after every press of a run, without a trap, exactly when every
press fits. -/
theorem exact_iff (presses : List Int32) :
  (∀ p, p <+: presses → ∃ c, Run.exec handleButtonClick start p = some c
      ∧ Agrees c (p.foldl Chain.press .start))
    ↔ Run.Guarded (fun s btn => some (Chain.press s btn)) Chain.Fits .start presses
  := Run.exec_agrees_iff (fun _ _ h => h.agrees) (fun _ _ _ h => h.click)
    (fun _ _ _ h hfits _ => h.click_breaks hfits) follows_start presses

/-- 65536 times 32768 is shown as a number, without an error. -/
theorem not_exact :
  ¬ ∀ presses : List Int32, ∀ p, p <+: presses →
    ∃ c, Run.exec handleButtonClick start p = some c ∧ Agrees c (p.foldl Chain.press .start)
  := by
  intro hall
  let presses : List Int32 := [6, 5, 5, 3, 6, 14, 3, 2, 7, 6, 8, 17]
  have hshown : Run.exec handleButtonClick start presses
      = some ⟨-2147483648, -2147483648, none, false, false⟩ := by decide +kernel
  have hfailed : (presses.foldl Chain.press .start).failed = true := by decide +kernel
  obtain ⟨c, hc, herror, -⟩ := hall presses presses List.prefix_rfl
  rw [hshown] at hc
  cases hc
  rw [hfailed] at herror
  cases herror

end Calc
