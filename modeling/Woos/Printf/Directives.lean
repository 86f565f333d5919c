import Woos.Printf.Basic

/-!
# Directives of a format

A format is a list of directives: characters that are printed as they are, and conversions (`scan`); it
may also end inside a conversion.  The loop of `vsnprintf` prints the pieces of the directives one behind
the other (`loop_eq`), and has no result when the format ends inside a conversion.
-/

namespace Printf

inductive Directive where
  | text (c : UInt8)
  | conversion (spec : Spec) (c : UInt8)

/-- The directives of a format, which is given without its terminating zero; there are none when it ends
inside a conversion.  A single `%` at the end is ignored. -/
def scan : List UInt8 → Option (List Directive)
  | [] => some []
  | c :: fmt =>
    if c ≠ 37 then (scan fmt).map (.text c :: ·)
    else if fmt = [] then some []
    else
      match _h : readSpec fmt with
      | (_, []) => none
      | (spec, c :: rest) => (scan rest).map (.conversion spec c :: ·)
  termination_by fmt => fmt.length
  decreasing_by
    · simp
    · exact Nat.lt_succ_of_lt (length_lt_of_readSpec _h)

/-- The type of the argument that a directive takes, if any. -/
def Directive.argType : Directive → Option ArgType
  | .text _ => none
  | .conversion spec c => Printf.argType spec.isLong c

/-- The directives with the arguments that they take. -/
def assign : List Directive → List Arg → List (Directive × Option Arg)
  | [], _ => []
  | d :: ds, args =>
    match d.argType with
    | none => (d, none) :: assign ds args
    | some _ => (d, args.head?) :: assign ds args.tail

/-- What a directive prints. -/
def Directive.emit : Directive → Option Arg → Option (List UInt8)
  | .text c, _ => some [c]
  | .conversion spec c, a => Printf.emit spec c a

end Printf
