import Woos.Input
import Woos.Window.Stack

/-!
# The mouse packet decoder

`Mouse.accept` is what `mouse_poll` and `mouse_handler` do with a byte that comes from the mouse:
it collects packets, and `handleMousePacket` makes input events of a complete one.
-/

/-- The counters of `g_perf_stats` that the mouse uses. -/
structure MousePerf where
  recv : UInt32
  dropAlign : UInt32
  dropOverflow : UInt32
  push : UInt32
  deriving DecidableEq, Repr

/-- `g_mouse`, `g_mouse_packet_size` and the counters. -/
structure Mouse where
  x : UInt16
  y : UInt16
  buttons : UInt8
  ready : Bool
  packetIndex : UInt8
  packet : Nat → UInt8
  packetSize : UInt8
  perf : MousePerf

namespace Mouse

/-! ### Packets -/

/-- A coordinate moved by `d`, kept on a screen of `limit` pixels. -/
def moved (p : UInt16) (d : Int32) (limit : UInt16) : UInt16 :=
  let next := p.toUInt32.toInt32 + d
  let limit := limit.toUInt32.toInt32
  let next := if next < 0 then 0 else if limit ≤ next then limit - 1 else next
  next.toUInt32.toUInt16

/-- An event at the pointer. -/
def event (m : Mouse) (type : InputEventType) (buttons : UInt8) : InputEvent :=
  ⟨type, m.x, m.y, buttons⟩

/-- Count events that are pushed. -/
def pushed (m : Mouse) (events : List InputEvent) : Mouse :=
  { m with perf := { m.perf with push := m.perf.push + UInt32.ofNat events.length } }

/-- The move of a packet: the pointer and the event. -/
def move (video : Option ScreenInfo) (m : Mouse) : Mouse × List InputEvent :=
  let dx := (m.packet 1).toInt8.toInt32 * 3
  let dy := (m.packet 2).toInt8.toInt32 * 3
  if dx ≠ 0 ∨ dy ≠ 0 then
    let screen := video.getD ⟨1280, 1024⟩
    let m := { m with x := moved m.x dx screen.width, y := moved m.y (-dy) screen.height }
    (m, [m.event .mouseMove m.buttons])
  else
    (m, [])

/-- The buttons of a packet: those that are pressed, and the events. -/
def press (m : Mouse) : Mouse × List InputEvent :=
  let nextButtons := m.packet 0 &&& 0x07
  if nextButtons ≠ m.buttons then
    let oldButtons := m.buttons
    let m := { m with buttons := nextButtons }
    (m,
      (if nextButtons &&& ~~~oldButtons ≠ 0 then [m.event .mouseButton m.buttons] else [])
      ++ (if oldButtons &&& ~~~nextButtons ≠ 0 then [m.event .mouseRelease m.buttons] else []))
  else
    (m, [])

/-- The event of the wheel in a packet of four bytes. -/
def wheel (m : Mouse) : List InputEvent :=
  if 4 ≤ m.packetSize then
    let lowZ := m.packet 3 &&& 0x0F
    let dz := if lowZ &&& 0x08 ≠ 0 then lowZ ||| 0xF0 else lowZ
    if dz ≠ 0 then [m.event .mouseWheel dz] else []
  else
    []

/-- `handle_mouse_packet`: the state and the events that it pushes. -/
def handleMousePacket (video : Option ScreenInfo) (m : Mouse) : Mouse × List InputEvent :=
  let m := { m with perf := { m.perf with recv := m.perf.recv + 1 } }
  if m.packet 0 &&& 0x08 = 0 then
    ({ m with perf := { m.perf with dropAlign := m.perf.dropAlign + 1 } }, [])
  else if m.packet 0 &&& 0xC0 ≠ 0 then
    ({ m with perf := { m.perf with dropOverflow := m.perf.dropOverflow + 1 } }, [])
  else
    let (m, moveEvents) := m.move video
    let (m, buttonEvents) := m.press
    let events := moveEvents ++ buttonEvents ++ m.wheel
    (m.pushed events, events)

/-! ### Bytes -/

/-- The part of `mouse_poll` and `mouse_handler` for a byte from the mouse: the state, the events
that it pushes, and whether it completes a packet. -/
def accept (video : Option ScreenInfo) (m : Mouse) (data : UInt8) :
    Mouse × List InputEvent × Bool :=
  if m.packetIndex = 0 ∧ data &&& 0x08 = 0 then
    (m, [], false)
  else
    let m := { m with
      packet := Function.update m.packet m.packetIndex.toNat data
      packetIndex := m.packetIndex + 1 }
    if m.packetSize ≤ m.packetIndex then
      let (m, events) := m.handleMousePacket video
      ({ m with packetIndex := 0 }, events, true)
    else
      (m, [], false)

end Mouse
