import Woos.Lib.Checked
import Woos.Lib.CString
import Woos.Lib.Numerals

/-!
# Formatted printing

`vsnprintf` with its arguments in a list, each with its type.  It has no result when it reads behind the
terminating zero of the format, asks for an argument that is not there or has another type, writes outside
the buffer, or computes a width or the absolute value of an argument that does not fit into its type.
-/

namespace Printf

open Checked

/-! ### Arguments -/

/-- The types that `va_arg` asks for; `long` and `int64_t` are one type here. -/
inductive ArgType where
  | int
  | unsigned
  | long
  | unsignedLong
  | string
  | pointer
  deriving DecidableEq

inductive Arg where
  | int (v : Int32)
  | unsigned (v : UInt32)
  | long (v : Int64)
  | unsignedLong (v : UInt64)
  | string (s : Option CString)
  | pointer (v : UInt64)

def Arg.type : Arg → ArgType
  | .int _ => .int
  | .unsigned _ => .unsigned
  | .long _ => .long
  | .unsignedLong _ => .unsignedLong
  | .string _ => .string
  | .pointer _ => .pointer

/-! ### The buffer -/

/-- `str` and `written` -/
structure Output where
  str : Option (Nat → UInt8)
  written : Nat

/-- `PUT` -/
def put (size : Nat) (c : UInt8) (o : Output) : Option Output :=
  match o.str with
  | none => some { o with written := (o.written + 1) % 2 ^ 64 }
  | some cells =>
    if (o.written + 1) % 2 ^ 64 < size then
      (store cells size o.written c).map (fun cells => ⟨some cells, (o.written + 1) % 2 ^ 64⟩)
    else some { o with written := (o.written + 1) % 2 ^ 64 }

/-- `PUT` for several characters. -/
def putAll (size : Nat) : List UInt8 → Output → Option Output
  | [], o => some o
  | c :: cs, o => (put size c o).bind (putAll size cs)

/-! ### Conversions -/

def isDigit (c : UInt8) : Bool := 48 ≤ c && c ≤ 57

/-- What stands between `%` and the character of the conversion. -/
structure Spec where
  zeroPad : Bool
  width : List UInt8
  isLong : Nat

/-- The length modifiers. -/
def readLong : List UInt8 → Nat × List UInt8
  | 108 :: 108 :: fmt => (2, fmt)
  | 108 :: fmt => (1, fmt)
  | 122 :: fmt => (2, fmt)
  | fmt => (0, fmt)

/-- The flag for zeros. -/
def readZero : List UInt8 → Bool × List UInt8
  | 48 :: fmt => (true, fmt)
  | fmt => (false, fmt)

/-- A precision is skipped. -/
def skipPrecision : List UInt8 → List UInt8
  | 46 :: fmt => fmt.dropWhile isDigit
  | fmt => fmt

/-- Read what stands between `%` and the character of the conversion. -/
def readSpec (fmt : List UInt8) : Spec × List UInt8 :=
  let (zeroPad, fmt) := readZero fmt
  let (isLong, rest) := readLong (skipPrecision (fmt.dropWhile isDigit))
  (⟨zeroPad, fmt.takeWhile isDigit, isLong⟩, rest)

/-- The loop that computes the width, an `int`. -/
def readWidth : List UInt8 → (width : Nat) → Option Nat
  | [], width => some width
  | c :: cs, width => (Checked.int (width * 10 + (c.toNat - 48))).bind (readWidth cs)

/-- The digits in `buf`, which has 32 bytes, the last one first. -/
def digits (base : Nat) (chars : List UInt8) (val : Nat) : List UInt8 :=
  if val = 0 then [48] else (Numeral.remainders base 32 val).map (fun d => chars.getD d 0)

def lower : List UInt8 := "0123456789abcdef".toList.map (fun c => c.toNat.toUInt8)

def upper : List UInt8 := "0123456789ABCDEF".toList.map (fun c => c.toNat.toUInt8)

/-- The padding and the digits of a number. -/
def number (zeroPad : Bool) (width base : Nat) (chars : List UInt8) (val : Nat) : List UInt8 :=
  let buf := digits base chars val
  List.replicate (width - buf.length) (if zeroPad then 48 else 32) ++ buf.reverse

/-- `-val`, an `int64_t`. -/
def negate (val : Int) : Option Int := if val = -2 ^ 63 then none else some (-val)

/-- `%d` and `%i` -/
def signed (zeroPad : Bool) (width : Nat) (val : Int) : Option (List UInt8) :=
  if val < 0 then (negate val).map (fun val => 45 :: number zeroPad width 10 lower val.toNat)
  else some (number zeroPad width 10 lower val.toNat)

/-- `"(null)"` -/
def null : List UInt8 := "(null)".toList.map (fun c => c.toNat.toUInt8)

/-- The type that a conversion takes, if any. -/
def argType (isLong : Nat) (c : UInt8) : Option ArgType :=
  if c = 115 then some .string
  else if c = 99 then some .int
  else if c = 100 ∨ c = 105 then some (if 1 ≤ isLong then .long else .int)
  else if c = 117 ∨ c = 120 ∨ c = 88 then some (if 1 ≤ isLong then .unsignedLong else .unsigned)
  else if c = 112 then some .pointer
  else none

/-- What a conversion prints, for an argument of the type that it takes. -/
def printArg (zeroPad : Bool) (width : Nat) (c : UInt8) : Arg → Option (List UInt8)
  | .string s => some ((s.map CString.bytes).getD null)
  | .int v => if c = 99 then some [v.toUInt32.toUInt8] else signed zeroPad width v.toInt
  | .long v => signed zeroPad width v.toInt
  | .unsigned v => some (unsigned v.toNat)
  | .unsignedLong v => some (unsigned v.toNat)
  | .pointer v => some (48 :: 120 :: (digits 16 lower v.toNat).reverse)
where
  unsigned (val : Nat) : List UInt8 :=
    if c = 117 then number zeroPad width 10 lower val
    else number zeroPad width 16 (if c = 88 then upper else lower) val

/-- The `switch` over the character of the conversion, for the argument that it takes. -/
def emit (spec : Spec) (c : UInt8) (a : Option Arg) : Option (List UInt8) :=
  (readWidth spec.width 0).bind (fun width =>
    match a with
    | none => some (if c = 37 then [37] else [37, c])
    | some a => printArg spec.zeroPad width c a)

/-- A conversion: what is printed, and the arguments that are left. -/
def convert (spec : Spec) (c : UInt8) (args : List Arg) : Option (List UInt8 × List Arg) :=
  match argType spec.isLong c, args with
  | none, args => (emit spec c none).map (·, args)
  | some _, [] => none
  | some t, a :: args => if a.type = t then (emit spec c (some a)).map (·, args) else none

theorem readSpec_suffix (fmt : List UInt8) :
  (readSpec fmt).2 <:+ fmt
  := by
  have hzero : (readZero fmt).2 <:+ fmt := by
    rw [readZero.eq_def]
    split
    case h_1 fmt => exact List.suffix_cons _ _
    case h_2 => exact List.suffix_refl _
  have hprecision (fmt : List UInt8) : skipPrecision fmt <:+ fmt := by
    rw [skipPrecision.eq_def]
    split
    case h_1 fmt => exact (List.dropWhile_suffix isDigit).trans (List.suffix_cons _ _)
    case h_2 => exact List.suffix_refl _
  have hlong (fmt : List UInt8) : (readLong fmt).2 <:+ fmt := by
    rw [readLong.eq_def]
    split
    case h_1 fmt => exact (List.suffix_cons _ _).trans (List.suffix_cons _ _)
    case h_2 fmt _ => exact List.suffix_cons _ _
    case h_3 fmt => exact List.suffix_cons _ _
    case h_4 => exact List.suffix_refl _
  exact (hlong _).trans ((hprecision _).trans ((List.dropWhile_suffix isDigit).trans hzero))

theorem length_lt_of_readSpec {fmt : List UInt8} {spec : Spec} {c : UInt8} {rest : List UInt8}
    (h : readSpec fmt = (spec, c :: rest)) :
  rest.length < fmt.length
  := by
  have hle := (readSpec_suffix fmt).length_le
  rw [h, List.length_cons] at hle
  exact hle

/-- The loop over the format, which ends with its terminating zero. -/
def loop (size : Nat) : (fmt : List UInt8) → List Arg → Output → Option Output
  | [], _, _ => none
  | c :: fmt, args, o =>
    if c = 0 then some o
    else if c ≠ 37 then (put size c o).bind (loop size fmt args)
    else if fmt.head? = some 0 then some o
    else
      match _h : readSpec fmt with
      | (_, []) => none
      | (spec, c :: rest) =>
        (convert spec c args).bind (fun (out, args) => (putAll size out o).bind (loop size rest args))
  termination_by fmt => fmt.length
  decreasing_by
    · simp
    · exact Nat.lt_succ_of_lt (length_lt_of_readSpec _h)

/-- The terminating zero, and the value returned. -/
def finish (size : Nat) (o : Output) : Option (Option (Nat → UInt8) × Int32) :=
  match o.str with
  | none => some (none, .ofNat o.written)
  | some cells =>
    if 0 < size then
      (store cells size (if o.written < size then o.written else size - 1) 0).map
        (fun cells => (some cells, .ofNat o.written))
    else some (some cells, .ofNat o.written)

end Printf
