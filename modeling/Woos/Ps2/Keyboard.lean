import Woos.Input

/-!
# The scancode decoder

`handleScancode` is what `idt_handle_irq` does with a byte that it has read from the keyboard:
it follows the modifier keys and produces at most one input event.
-/

/-- The flags `g_kbd_shift` to `g_kbd_layout`; the layout is `true` for Russian. -/
structure Keyboard where
  shift : Bool
  alt : Bool
  ctrl : Bool
  capsLock : Bool
  extended : Bool
  layout : Bool
  deriving DecidableEq, Repr

namespace Keyboard

/-- The flags at boot. -/
def init : Keyboard := ⟨false, false, false, false, false, false⟩

/-! ### Layouts

The entries after the last one of a table are zero. -/

/-- `kbd_us_lower` -/
def usLower : List UInt16 :=
  [0, 27, 49, 50, 51, 52, 53, 54, 55, 56, 57, 48, 45, 61, 8, 9, 113, 119, 101, 114, 116, 121,
    117, 105, 111, 112, 91, 93, 10, 0, 97, 115, 100, 102, 103, 104, 106, 107, 108, 59, 39, 96,
    0, 92, 122, 120, 99, 118, 98, 110, 109, 44, 46, 47, 0, 42, 0, 32, 0, 0, 0, 0, 0, 0, 0, 0,
    0, 0]

/-- `kbd_us_upper` -/
def usUpper : List UInt16 :=
  [0, 27, 33, 64, 35, 36, 37, 94, 38, 42, 40, 41, 95, 43, 8, 9, 81, 87, 69, 82, 84, 89, 85, 73,
    79, 80, 123, 125, 10, 0, 65, 83, 68, 70, 71, 72, 74, 75, 76, 58, 34, 126, 0, 124, 90, 88,
    67, 86, 66, 78, 77, 60, 62, 63, 0, 42, 0, 32, 0, 0, 0, 0, 0, 0, 0, 0, 0, 0]

/-- `kbd_ru_lower` -/
def ruLower : List UInt16 :=
  [0, 27, 49, 50, 51, 52, 53, 54, 55, 56, 57, 48, 45, 61, 8, 9, 0x0439, 0x0446, 0x0443, 0x043A,
    0x0435, 0x043D, 0x0433, 0x0448, 0x0449, 0x0437, 0x0445, 0x044A, 10, 0, 0x0444, 0x044B,
    0x0432, 0x0430, 0x043F, 0x0440, 0x043E, 0x043B, 0x0434, 0x0436, 0x044D, 0x0451, 0, 92,
    0x044F, 0x0447, 0x0441, 0x043C, 0x0438, 0x0442, 0x044C, 0x0431, 0x044E, 46, 0, 42, 0, 32,
    0, 0, 0, 0, 0, 0]

/-- `kbd_ru_upper` -/
def ruUpper : List UInt16 :=
  [0, 27, 33, 34, 0x2116, 59, 37, 58, 63, 42, 40, 41, 95, 43, 8, 9, 0x0419, 0x0426, 0x0423,
    0x041A, 0x0415, 0x041D, 0x0413, 0x0428, 0x0429, 0x0417, 0x0425, 0x042A, 10, 0, 0x0424,
    0x042B, 0x0412, 0x0410, 0x041F, 0x0420, 0x041E, 0x041B, 0x0414, 0x0416, 0x042D, 0x0401, 0,
    47, 0x042F, 0x0427, 0x0421, 0x041C, 0x0418, 0x0422, 0x042C, 0x0411, 0x042E, 44, 0, 42, 0,
    32, 0, 0, 0, 0, 0, 0]

/-- An entry of a table. -/
def entry (table : List UInt16) (sc : UInt8) : UInt16 := table.getD sc.toNat 0

/-- The code point of a key whose lower and upper case are given. -/
def cased (k : Keyboard) (isLetter : Bool) (lower upper : UInt16) : UInt16 :=
  let useUpper := if isLetter then k.shift ^^ k.capsLock else k.shift
  if useUpper then upper else lower

/-- The code point of a key that is pressed without prefix. -/
def codepoint (k : Keyboard) (sc : UInt8) : UInt16 :=
  if k.ctrl then
    let usLow := entry usLower sc
    if 97 ≤ usLow ∧ usLow ≤ 122 then usLow - 97 + 1
    else if 65 ≤ usLow ∧ usLow ≤ 90 then usLow - 65 + 1
    else 0
  else if k.layout then
    let lower := entry ruLower sc
    let isLetter := (0x0430 ≤ lower && lower ≤ 0x044F) || lower == 0x0451
    k.cased isLetter lower (entry ruUpper sc)
  else
    let lower := entry usLower sc
    let isLetter := 97 ≤ lower && lower ≤ 122
    k.cased isLetter lower (entry usUpper sc)

/-- The keys that are reported without a code point: arrows, Home, End, Page Up, Page Down, Delete
and Insert. -/
def navigationKeys : List UInt8 := [0x48, 0x50, 0x4B, 0x4D, 0x47, 0x4F, 0x49, 0x51, 0x53, 0x52]

/-! ### Events -/

/-- The modifiers of an event. -/
def modifiers (k : Keyboard) : UInt8 :=
  k.shift.toUInt8 ||| (k.ctrl.toUInt8 <<< 1) ||| (k.capsLock.toUInt8 <<< 2)
    ||| (k.alt.toUInt8 <<< 3) ||| (k.layout.toUInt8 <<< 4)

/-- The event of a key that is pressed. -/
def keyDown (k : Keyboard) (codepoint : UInt16) (sc : UInt8) : InputEvent where
  type := .keyDown
  x := codepoint
  y := sc.toUInt16
  buttons := k.modifiers

/-- The part of `idt_handle_irq` that decodes a byte from the keyboard: the flags, and the event
that it pushes, if any. -/
def handleScancode (k : Keyboard) (sc : UInt8) : Keyboard × Option InputEvent :=
  if sc = 0xE0 then
    ({ k with extended := true }, none)
  else if sc = 0x2A ∨ sc = 0x36 then
    let k := if k.alt then { k with layout := !k.layout } else k
    let k := { k with shift := true, extended := false }
    (k, some (k.keyDown 0 sc))
  else if sc = 0xAA ∨ sc = 0xB6 then
    ({ k with shift := false, extended := false }, none)
  else if sc = 0x38 then
    let k := if k.shift then { k with layout := !k.layout } else k
    let k := { k with alt := true, extended := false }
    (k, some (k.keyDown 0 sc))
  else if sc = 0xB8 then
    ({ k with alt := false, extended := false }, none)
  else if sc = 0x1D then
    ({ k with ctrl := true, extended := false }, none)
  else if sc = 0x9D then
    ({ k with ctrl := false, extended := false }, none)
  else if sc = 0x3A then
    ({ k with capsLock := !k.capsLock, extended := false }, none)
  else if sc &&& 0x80 = 0 then
    let codepoint := if k.extended then 0 else k.codepoint sc
    let event :=
      if codepoint ≠ 0 ∨ sc ∈ navigationKeys then some (k.keyDown codepoint sc) else none
    ({ k with extended := false }, event)
  else
    ({ k with extended := false }, none)

end Keyboard
