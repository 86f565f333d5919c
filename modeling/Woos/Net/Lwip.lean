import Mathlib.Data.Option.Basic
import Mathlib.Logic.Function.Basic
import Mathlib.Algebra.GroupWithZero.Nat

/-!
# The interface of lwIP to the sockets

`Pcbs` is what the socket layer has registered with the TCP of lwIP: for every protocol control
block its state and argument, and which of the callbacks of `net_socket.c` are set.  The functions
here are the calls of lwIP that `net_socket.c` makes, as lwIP documents them.  Whether lwIP has
memory or a route for a request is not determined here; the answer is a parameter.

A block that lwIP has not handed to the socket layer, or that it has taken back, is `unused`; none
of its callbacks is set.
-/

/-- The state of a block, as far as the calls depend on it: `closed` before a connection is opened,
`listen` for a listening one, `active` from the opening of a connection on. -/
inductive PcbState where
  | unused
  | closed
  | listen
  | active
  deriving DecidableEq, Repr

/-- `struct tcp_pcb`: the state, the argument of the callbacks (`0` is the null pointer), and which
of `tcp_recv_callback`, `tcp_err_callback`, `tcp_connect_callback` and `tcp_accept_callback`
are set. -/
structure Pcb where
  state : PcbState
  arg : Int
  recv : Bool
  errf : Bool
  connected : Bool
  accept : Bool
  deriving DecidableEq, Repr

/-- The block as lwIP allocates it. -/
def Pcb.fresh (state : PcbState) (arg : Int) : Pcb := ⟨state, arg, false, false, false, false⟩

/-- The blocks. -/
abbrev Pcbs := Nat → Pcb

namespace Pcbs

/-- No block is handed out. -/
def init : Pcbs := fun _ => Pcb.fresh .unused 0

/-- Change a block; the null pointer is ignored. -/
def modify (pcbs : Pcbs) (pcb : Option Nat) (f : Pcb → Pcb) : Pcbs :=
  match pcb with
  | none => pcbs
  | some p => Function.update pcbs p (f (pcbs p))

@[simp]
theorem modify_some (pcbs : Pcbs) (p : Nat) (f : Pcb → Pcb) :
  pcbs.modify (some p) f p = f (pcbs p)
  := Function.update_self p _ pcbs

theorem modify_of_ne (pcbs : Pcbs) {pcb : Option Nat} {q : Nat} (h : pcb ≠ some q) (f : Pcb → Pcb) :
  pcbs.modify pcb f q = pcbs q
  := by
  cases pcb with
  | none => rfl
  | some p =>
      apply Function.update_of_ne
      rintro rfl
      exact h rfl

/-- Two changes of a block are one. -/
theorem modify_modify (pcbs : Pcbs) (pcb : Option Nat) (f g : Pcb → Pcb) :
  (pcbs.modify pcb f).modify pcb g = pcbs.modify pcb (fun b => g (f b))
  := by
  cases pcb with
  | none => rfl
  | some p =>
      funext q
      rcases eq_or_ne q p with rfl | hne
      · rw [modify_some, modify_some, modify_some]
      · rw [modify_of_ne _ (by simpa using hne.symm), modify_of_ne _ (by simpa using hne.symm),
          modify_of_ne _ (by simpa using hne.symm)]

/-- The state of the block that a pointer points to. -/
def state (pcbs : Pcbs) (pcb : Option Nat) : PcbState :=
  pcb.elim .unused (fun p => (pcbs p).state)

/-- The block that lwIP takes from its pool, `none` when there is none. -/
def take (pcbs : Pcbs) (answer : Option Nat) : Option Nat :=
  answer.filter (fun p => (pcbs p).state = .unused)

/-- lwIP takes a block back. -/
def release (pcbs : Pcbs) (pcb : Option Nat) : Pcbs :=
  pcbs.modify pcb (fun _ => Pcb.fresh .unused 0)

/-- `tcp_new` -/
def tcpNew (pcbs : Pcbs) (answer : Option Nat) : Pcbs × Option Nat :=
  (pcbs.modify (pcbs.take answer) (fun _ => Pcb.fresh .closed 0), pcbs.take answer)

/-- `tcp_bind`, which needs a closed block. -/
def tcpBind (pcbs : Pcbs) (pcb : Option Nat) (answer : Bool) : Bool :=
  answer && pcbs.state pcb == .closed

/-- `tcp_listen`, which replaces a closed block by a listening one with the same argument. -/
def tcpListen (pcbs : Pcbs) (pcb : Option Nat) (answer : Option Nat) : Pcbs × Option Nat :=
  if pcbs.state pcb = .closed then
    match pcbs.take answer with
    | none => (pcbs, none)
    | some q =>
        ((pcbs.release pcb).modify (some q)
          (fun _ => Pcb.fresh .listen (pcb.elim 0 (fun p => (pcbs p).arg))), some q)
  else
    (pcbs, none)

/-- `tcp_connect`, which needs a closed block. -/
def tcpConnect (pcbs : Pcbs) (pcb : Option Nat) (answer : Bool) : Pcbs × Bool :=
  if answer && pcbs.state pcb == .closed then
    (pcbs.modify pcb (fun b => { b with state := .active, connected := true }), true)
  else
    (pcbs, false)

/-- `tcp_arg` -/
def tcpArg (pcbs : Pcbs) (pcb : Option Nat) (arg : Int) : Pcbs :=
  pcbs.modify pcb (fun b => { b with arg := arg })

/-- `tcp_recv` -/
def tcpRecv (pcbs : Pcbs) (pcb : Option Nat) (callback : Bool) : Pcbs :=
  pcbs.modify pcb (fun b => { b with recv := callback })

/-- `tcp_err` -/
def tcpErr (pcbs : Pcbs) (pcb : Option Nat) (callback : Bool) : Pcbs :=
  pcbs.modify pcb (fun b => { b with errf := callback })

/-- `tcp_accept` -/
def tcpAccept (pcbs : Pcbs) (pcb : Option Nat) : Pcbs :=
  pcbs.modify pcb (fun b => { b with accept := true })

/-- `tcp_close`: the socket layer does not use the block any more. -/
def tcpClose (pcbs : Pcbs) (pcb : Option Nat) : Pcbs :=
  pcbs.release pcb

end Pcbs
