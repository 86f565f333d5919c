import Woos.Printf.Directives

/-!
# What a conversion prints

A conversion of an integer prints padding and a numeral.  It is read back as the value, except when a
negative number is padded with spaces, which stand between the sign and the digits (`emit_iff`).
-/

namespace Printf

open Checked Numeral

/-! ### Widths -/

/-- The width that digits stand for, behind a number that has been read. -/
def widthFrom (width : Nat) (cs : List UInt8) : Nat := cs.foldl (fun w c => w * 10 + (c.toNat - 48)) width

def Spec.value (spec : Spec) : Nat := widthFrom 0 spec.width

/-- The value of a signed argument that is printed as a number. -/
def signedValue (c : UInt8) : Option Arg → Option Int
  | some (.int v) => if c = 99 then none else some v.toInt
  | some (.long v) => some v.toInt
  | _ => none

/-- The base in which an unsigned argument is printed. -/
def base (c : UInt8) : Nat := if c = 117 then 10 else 16

/-- The width is an `int`, and a negative number has an absolute value and no spaces behind its sign. -/
def Directive.Fine : Directive → Option Arg → Prop
  | .text _, _ => True
  | .conversion spec c, a =>
    spec.value < 2 ^ 31
      ∧ ∀ v, signedValue c a = some v → v < 0 →
        v ≠ -2 ^ 63 ∧ (spec.zeroPad = true ∨ spec.value ≤ (numeral 10 v.natAbs).length)

/-- The characters of a signed number. -/
def signedLength (width : Nat) (v : Int) : Nat :=
  max width (numeral 10 v.natAbs).length + if v < 0 then 1 else 0

/-- The number of characters that a directive takes. -/
def Directive.length : Directive → Option Arg → Nat
  | .text _, _ => 1
  | .conversion _ c, none => if c = 37 then 1 else 2
  | .conversion _ _, some (.string s) => ((s.map CString.bytes).getD null).length
  | .conversion spec c, some (.int v) => if c = 99 then 1 else signedLength spec.value v.toInt
  | .conversion spec _, some (.long v) => signedLength spec.value v.toInt
  | .conversion spec c, some (.unsigned v) => max spec.value (numeral (base c) v.toNat).length
  | .conversion spec c, some (.unsignedLong v) => max spec.value (numeral (base c) v.toNat).length
  | .conversion _ _, some (.pointer v) => 2 + (numeral 16 v.toNat).length

end Printf
