import Mathlib.Data.List.Basic
import Woos.Lib.Run
import Woos.Ps2.Keyboard

/-!
# The modifier keys

A `Key` is a key of the keyboard by its scancode, and a `Stroke` what the keyboard reports with one
sequence of bytes: a key pressed or released (a key that is held is pressed again and again), a
fake shift around an extended key, or the Pause key.  `Typing` is the decoder together with the keys
that are held.

`Typing.Steady` is the condition on a stroke under which the decoder still follows the keys:
`steady_iff` shows it for one stroke, and that nothing less is enough; `modifiers_follow` is the
result for runs.
-/

namespace Ps2

/-! ### Keys -/

/-- A key: whether its codes come after the prefix, and the code when it is pressed.  With the
prefix, the codes of the shift keys are not those of a key. -/
structure Key where
  extended : Bool
  code : UInt8
  code_lt : code < 0x80
  not_prefix : code ≠ 0x60 ∧ code ≠ 0x61
  not_fake : extended = true → code ≠ 0x2A ∧ code ≠ 0x36
  deriving DecidableEq

/-- The kinds of modifier keys, each with a key on the left and one on the right. -/
inductive Modifier where
  | shift
  | ctrl
  | alt
  deriving DecidableEq, Repr

/-- The kind that a code stands for. -/
def modifierOf (code : UInt8) : Option Modifier :=
  if code = 0x2A ∨ code = 0x36 then some .shift
  else if code = 0x1D then some .ctrl
  else if code = 0x38 then some .alt
  else none

/-- The kind of a key. -/
def Key.modifier (k : Key) : Option Modifier := modifierOf k.code

/-- What the keyboard reports. -/
inductive Stroke where
  | press (k : Key)
  | release (k : Key)
  /-- the shift code on the left or on the right, with the prefix -/
  | fakeShift (right down : Bool)
  | pause
  deriving DecidableEq

/-- The prefix of a key, if it has one. -/
def Key.before (k : Key) : List UInt8 := if k.extended then [0xE0] else []

/-- The bytes of a stroke. -/
def Stroke.bytes : Stroke → List UInt8
  | .press k => k.before ++ [k.code]
  | .release k => k.before ++ [k.code ||| 0x80]
  | .fakeShift right down =>
      let code : UInt8 := if right then 0x36 else 0x2A
      [0xE0, if down then code else code ||| 0x80]
  | .pause => [0xE1, 0x1D, 0x45, 0xE1, 0x9D, 0xC5]

/-- The keys that are held after a stroke. -/
def Stroke.holds (held : List Key) : Stroke → List Key
  | .press k => k :: held
  | .release k => held.filter (fun j => j ≠ k)
  | .fakeShift _ _ => held
  | .pause => held

/-- Some key of the kind is held. -/
def Held (held : List Key) (m : Modifier) : Prop := ∃ k ∈ held, k.modifier = some m

instance (held : List Key) (m : Modifier) : Decidable (Held held m) :=
  inferInstanceAs (Decidable (∃ k ∈ held, _))

/-- Alt and Shift are held together. -/
def Chord (held : List Key) : Prop := Held held .alt ∧ Held held .shift

instance (held : List Key) : Decidable (Chord held) := inferInstanceAs (Decidable (_ ∧ _))

/-! ### Typing -/

/-- The decoder, and the keys that are held. -/
structure Typing where
  keyboard : Keyboard
  held : List Key

/-- The bytes are decoded one after the other: the decoder, and the events that it emits. -/
def decode : Keyboard → List UInt8 → Keyboard × List InputEvent
  | k, [] => (k, [])
  | k, sc :: scs =>
      let (k', event) := k.handleScancode sc
      let (k'', events) := decode k' scs
      (k'', event.toList ++ events)

namespace Typing

/-- At boot no key is held. -/
def init : Typing := ⟨Keyboard.init, []⟩

/-- A stroke: the state, and the events that are emitted. -/
def step (s : Typing) (a : Stroke) : Typing × List InputEvent :=
  let (keyboard, events) := decode s.keyboard a.bytes
  (⟨keyboard, a.holds s.held⟩, events)

/-- The bit of a kind in the modifiers of an event. -/
def bit : Modifier → UInt8
  | .shift => 1
  | .ctrl => 2
  | .alt => 8

/-- The bits of the events tell which kinds of keys are held, and the layout changes when a chord
of Alt and Shift begins, and only then. -/
structure Correct (s : Typing) (a : Stroke) : Prop where
  bits : ∀ e ∈ (s.step a).2, ∀ m, e.buttons &&& bit m ≠ 0 ↔ Held (s.step a).1.held m
  layout : (s.step a).1.keyboard.layout ≠ s.keyboard.layout
    ↔ ¬ Chord s.held ∧ Chord (s.step a).1.held

/-- Every stroke of a run is followed correctly. -/
def AllCorrect : Typing → List Stroke → Prop
  | _, [] => True
  | s, a :: as => s.Correct a ∧ AllCorrect (s.step a).1 as

/-- The condition on a stroke: a key that is released was the only one of its kind; Shift or Alt is
not pressed again while both are held; a fake shift is not pressed while no Shift, or Alt, is held,
nor released while Shift is held; and Pause is not pressed while Ctrl is held. -/
def Steady (s : Typing) : Stroke → Prop
  | .press k => (k.modifier = some .shift ∨ k.modifier = some .alt) → ¬ Chord s.held
  | .release k => ∀ m, k.modifier = some m → ¬ Held (s.held.filter (fun j => j ≠ k)) m
  | .fakeShift _ true => Held s.held .shift ∧ ¬ Held s.held .alt
  | .fakeShift _ false => ¬ Held s.held .shift
  | .pause => ¬ Held s.held .ctrl

/-- The flag of a kind. -/
def flag (k : Keyboard) : Modifier → Bool
  | .shift => k.shift
  | .ctrl => k.ctrl
  | .alt => k.alt

/-- The flags of the decoder tell which keys are held. -/
def Synced (s : Typing) : Prop := ∀ m, flag s.keyboard m = true ↔ Held s.held m

/-! ### The decoder -/

/-- The flags after a code with its high bit clear. -/
def pressed (k : Keyboard) (code : UInt8) : Keyboard :=
  match modifierOf code with
  | some .shift => { k with layout := k.layout ^^ k.alt, shift := true, extended := false }
  | some .ctrl => { k with ctrl := true, extended := false }
  | some .alt => { k with layout := k.layout ^^ k.shift, alt := true, extended := false }
  | none => { k with capsLock := k.capsLock ^^ decide (code = 0x3A), extended := false }

/-- The flags after a code with its high bit set. -/
def released (k : Keyboard) (code : UInt8) : Keyboard :=
  match modifierOf code with
  | some .shift => { k with shift := false, extended := false }
  | some .ctrl => { k with ctrl := false, extended := false }
  | some .alt => { k with alt := false, extended := false }
  | none => { k with extended := false }

theorem high_bit {code : UInt8} (h : code < 0x80) :
  code ≠ 0xE0 ∧ code ≠ 0xAA ∧ code ≠ 0xB6 ∧ code ≠ 0xB8 ∧ code ≠ 0x9D ∧ code &&& 0x80 = 0
  := by
  have hall : ∀ n < 128, UInt8.ofNat n ≠ 0xE0 ∧ UInt8.ofNat n ≠ 0xAA ∧ UInt8.ofNat n ≠ 0xB6
      ∧ UInt8.ofNat n ≠ 0xB8 ∧ UInt8.ofNat n ≠ 0x9D ∧ UInt8.ofNat n &&& 0x80 = 0 := by
    decide +kernel
  have hcode := hall code.toNat (UInt8.lt_iff_toNat_lt.mp h)
  rw [UInt8.ofNat_toNat] at hcode
  exact hcode

theorem handleScancode_pressed (k : Keyboard) {code : UInt8} (h : code < 0x80) :
  (k.handleScancode code).1 = pressed k code
    ∧ ∀ e ∈ (k.handleScancode code).2, e.buttons = (pressed k code).modifiers
  := by
  obtain ⟨hE0, hAA, hB6, hB8, h9D, hbit⟩ := high_bit h
  rw [Keyboard.handleScancode, if_neg hE0, pressed, modifierOf]
  by_cases hshift : code = 0x2A ∨ code = 0x36
  · rw [if_pos hshift, if_pos hshift]
    have hkeyboard : (if k.alt then { k with layout := !k.layout } else k)
        = { k with layout := k.layout ^^ k.alt } := by
      cases halt : k.alt with
      | false => rw [Bool.xor_false, if_neg Bool.false_ne_true, ← halt]
      | true => rw [Bool.xor_true, if_pos rfl, ← halt]
    rw [hkeyboard]
    use rfl
    intro e he
    cases he
    rfl
  rw [if_neg hshift, if_neg hshift, if_neg (not_or.mpr ⟨hAA, hB6⟩)]
  by_cases halt : code = 0x38
  · have hctrl : ¬ code = 0x1D := by
      rw [halt]
      decide
    rw [if_pos halt, if_neg hctrl, if_pos halt]
    have hkeyboard : (if k.shift then { k with layout := !k.layout } else k)
        = { k with layout := k.layout ^^ k.shift } := by
      cases hshift : k.shift with
      | false => rw [Bool.xor_false, if_neg Bool.false_ne_true, ← hshift]
      | true => rw [Bool.xor_true, if_pos rfl, ← hshift]
    rw [hkeyboard]
    use rfl
    intro e he
    cases he
    rfl
  rw [if_neg halt, if_neg halt, if_neg hB8]
  by_cases hctrl : code = 0x1D
  · rw [if_pos hctrl, if_pos hctrl]
    use rfl
    intro e he
    cases he
  rw [if_neg hctrl, if_neg hctrl, if_neg h9D]
  by_cases hcaps : code = 0x3A
  · rw [if_pos hcaps, decide_eq_true hcaps, Bool.xor_true]
    use rfl
    intro e he
    cases he
  · rw [if_neg hcaps, decide_eq_false hcaps, Bool.xor_false, if_pos hbit]
    use rfl
    intro e he
    rw [Option.mem_def, Option.ite_none_right_eq_some] at he
    cases he.2
    rfl

theorem high_bit_set {code : UInt8} (h : code < 0x80) (hcode60 : code ≠ 0x60) :
  code ||| 0x80 ≠ 0xE0 ∧ code ||| 0x80 ≠ 0x2A ∧ code ||| 0x80 ≠ 0x36 ∧ code ||| 0x80 ≠ 0x38
    ∧ code ||| 0x80 ≠ 0x1D ∧ code ||| 0x80 ≠ 0x3A ∧ (code ||| 0x80) &&& 0x80 ≠ 0
  := by
  have hall : ∀ n < 128, n = 96 ∨ (UInt8.ofNat n ||| 0x80 ≠ 0xE0
      ∧ UInt8.ofNat n ||| 0x80 ≠ 0x2A ∧ UInt8.ofNat n ||| 0x80 ≠ 0x36
      ∧ UInt8.ofNat n ||| 0x80 ≠ 0x38 ∧ UInt8.ofNat n ||| 0x80 ≠ 0x1D
      ∧ UInt8.ofNat n ||| 0x80 ≠ 0x3A ∧ (UInt8.ofNat n ||| 0x80) &&& 0x80 ≠ 0) := by
    decide +kernel
  rcases hall code.toNat (UInt8.lt_iff_toNat_lt.mp h) with hcode | hcode
  · exact absurd (UInt8.toNat_inj.mp hcode) hcode60
  · rw [UInt8.ofNat_toNat] at hcode
    exact hcode

theorem or_high_bit_inj {code code' : UInt8} (h : code < 0x80) (h' : code' < 0x80) :
  code ||| 0x80 = code' ||| 0x80 ↔ code = code'
  := by
  have hall : ∀ n < 128, (UInt8.ofNat n ||| 0x80) - 0x80 = UInt8.ofNat n := by
    decide +kernel
  have hcode := hall code.toNat (UInt8.lt_iff_toNat_lt.mp h)
  have hcode' := hall code'.toNat (UInt8.lt_iff_toNat_lt.mp h')
  rw [UInt8.ofNat_toNat] at hcode hcode'
  use fun heq => by rw [← hcode, ← hcode', heq], fun heq => by rw [heq]

theorem handleScancode_released (k : Keyboard) {code : UInt8} (h : code < 0x80)
    (hcode60 : code ≠ 0x60) :
  k.handleScancode (code ||| 0x80) = (released k code, none)
  := by
  obtain ⟨hE0, h2A, h36, h38, h1D, h3A, hbit⟩ := high_bit_set h hcode60
  have hAA : code ||| 0x80 = 0xAA ↔ code = 0x2A :=
    or_high_bit_inj h (show (0x2A : UInt8) < 0x80 by decide)
  have hB6 : code ||| 0x80 = 0xB6 ↔ code = 0x36 :=
    or_high_bit_inj h (show (0x36 : UInt8) < 0x80 by decide)
  have hB8 : code ||| 0x80 = 0xB8 ↔ code = 0x38 :=
    or_high_bit_inj h (show (0x38 : UInt8) < 0x80 by decide)
  have h9D : code ||| 0x80 = 0x9D ↔ code = 0x1D :=
    or_high_bit_inj h (show (0x1D : UInt8) < 0x80 by decide)
  rw [Keyboard.handleScancode, if_neg hE0, if_neg (not_or.mpr ⟨h2A, h36⟩), released, modifierOf]
  by_cases hshift : code = 0x2A ∨ code = 0x36
  · rw [if_pos hshift, if_pos (hshift.imp hAA.mpr hB6.mpr)]
  rw [if_neg hshift, if_neg (fun hcon => hshift (hcon.imp hAA.mp hB6.mp)), if_neg h38]
  by_cases hctrl : code = 0x1D
  · have halt : ¬ code = 0x38 := by
      rw [hctrl]
      decide
    rw [if_pos hctrl, if_neg (mt hB8.mp halt), if_neg h1D, if_pos (h9D.mpr hctrl)]
  rw [if_neg hctrl]
  by_cases halt : code = 0x38
  · rw [if_pos halt, if_pos (hB8.mpr halt)]
  · rw [if_neg halt, if_neg (mt hB8.mp halt), if_neg h1D, if_neg (mt h9D.mp hctrl), if_neg h3A,
      if_neg hbit]

/-- A prefix is forgotten with the code that comes after it. -/
theorem decode_before (k : Keyboard) (key : Key) (code : UInt8) :
  ∃ extended, decode k (key.before ++ [code]) = decode { k with extended := extended } [code]
  := by
  rw [Key.before]
  cases key.extended with
  | false => exact ⟨k.extended, rfl⟩
  | true => exact ⟨true, rfl⟩

theorem pressed_extended (k : Keyboard) (extended : Bool) (code : UInt8) :
  pressed { k with extended := extended } code = pressed k code
  := by
  rw [pressed, pressed]

theorem released_extended (k : Keyboard) (extended : Bool) (code : UInt8) :
  released { k with extended := extended } code = released k code
  := by
  rw [released, released]

theorem decode_singleton (k : Keyboard) (code : UInt8) :
  decode k [code] = ((k.handleScancode code).1, (k.handleScancode code).2.toList)
  := by
  dsimp only [decode]
  rw [List.append_nil]

theorem decode_press (k : Keyboard) (key : Key) :
  (decode k (Stroke.press key).bytes).1 = pressed k key.code
    ∧ ∀ e ∈ (decode k (Stroke.press key).bytes).2, e.buttons = (pressed k key.code).modifiers
  := by
  obtain ⟨extended, hdecode⟩ := decode_before k key key.code
  have hcode := handleScancode_pressed { k with extended := extended } key.code_lt
  rw [pressed_extended] at hcode
  rw [Stroke.bytes, hdecode, decode_singleton]
  use hcode.1
  intro e he
  exact hcode.2 e (Option.mem_toList.mp he)

theorem decode_release (k : Keyboard) (key : Key) :
  decode k (Stroke.release key).bytes = (released k key.code, [])
  := by
  obtain ⟨extended, hdecode⟩ := decode_before k key (key.code ||| 0x80)
  have hcode :=
    handleScancode_released { k with extended := extended } key.code_lt key.not_prefix.1
  rw [released_extended] at hcode
  rw [Stroke.bytes, hdecode, decode_singleton, hcode]
  rfl

theorem decode_fakeShift_down (k : Keyboard) (right : Bool) :
  (decode k (Stroke.fakeShift right true).bytes).1 = pressed k 0x2A
    ∧ ∃ e, (decode k (Stroke.fakeShift right true).bytes).2 = [e]
      ∧ e.buttons = (pressed k 0x2A).modifiers
  := by
  obtain ⟨shift, alt, ctrl, capsLock, extended, layout⟩ := k
  cases right <;> cases alt <;> cases layout <;> exact ⟨rfl, _, rfl, rfl⟩

theorem decode_fakeShift_up (k : Keyboard) (right : Bool) :
  decode k (Stroke.fakeShift right false).bytes = (released k 0x2A, [])
  := by
  cases right <;> rfl

theorem decode_pause (k : Keyboard) :
  decode k Stroke.pause.bytes = ({ k with ctrl := false, extended := false }, [])
  := rfl

/-! ### Flags -/

/-- The bits of an event are the flags. -/
theorem modifiers_bit (k : Keyboard) (m : Modifier) :
  k.modifiers &&& bit m ≠ 0 ↔ flag k m = true
  := by
  have hall : ∀ shift ctrl capsLock alt layout : Bool, ∀ m : Modifier,
      Keyboard.modifiers ⟨shift, alt, ctrl, capsLock, false, layout⟩ &&& bit m ≠ 0
        ↔ flag ⟨shift, alt, ctrl, capsLock, false, layout⟩ m = true := by
    intro shift ctrl capsLock alt layout m
    cases m <;> revert shift ctrl capsLock alt layout <;> decide
  exact hall k.shift k.ctrl k.capsLock k.alt k.layout m

theorem flag_pressed (k : Keyboard) (code : UInt8) (m : Modifier) :
  flag (pressed k code) m = true ↔ modifierOf code = some m ∨ flag k m = true
  := by
  rw [pressed]
  cases h : modifierOf code with
  | none => simp [flag]
  | some m' => cases m' <;> cases m <;> simp [flag]

theorem flag_released (k : Keyboard) (code : UInt8) (m : Modifier) :
  flag (released k code) m = true ↔ modifierOf code ≠ some m ∧ flag k m = true
  := by
  rw [released]
  cases h : modifierOf code with
  | none => simp [flag]
  | some m' => cases m' <;> cases m <;> simp [flag]

theorem xor_ne_left (a b : Bool) :
  (a ^^ b) ≠ a ↔ b = true
  := by
  cases a <;> cases b <;> decide

theorem layout_pressed (k : Keyboard) (code : UInt8) :
  (pressed k code).layout ≠ k.layout
    ↔ (modifierOf code = some .shift ∧ flag k .alt = true)
      ∨ (modifierOf code = some .alt ∧ flag k .shift = true)
  := by
  rw [pressed]
  cases h : modifierOf code with
  | none => simp
  | some m' => cases m' <;> simp [flag, xor_ne_left]

theorem layout_released (k : Keyboard) (code : UInt8) :
  (released k code).layout = k.layout
  := by
  rw [released]
  cases h : modifierOf code with
  | none => rfl
  | some m' => cases m' <;> rfl

/-! ### Keys that are held -/

theorem held_cons (held : List Key) (k : Key) (m : Modifier) :
  Held (k :: held) m ↔ k.modifier = some m ∨ Held held m
  := by
  rw [Held, List.exists_mem_cons_iff]
  rfl

theorem held_of_filter {held : List Key} {k : Key} {m : Modifier}
    (h : Held (held.filter (fun j => j ≠ k)) m) :
  Held held m
  := by
  obtain ⟨j, hj, hm⟩ := h
  exact ⟨j, (List.mem_filter.mp hj).1, hm⟩

/-- A key that is released matters for its own kind only. -/
theorem held_filter (held : List Key) (k : Key) {m : Modifier} (h : k.modifier ≠ some m) :
  Held (held.filter (fun j => j ≠ k)) m ↔ Held held m
  := by
  constructor
  · exact held_of_filter
  · rintro ⟨j, hj, hm⟩
    use j
    refine ⟨List.mem_filter.mpr ⟨hj, decide_eq_true ?_⟩, hm⟩
    rintro rfl
    exact h hm

/-! ### Strokes -/

variable {s : Typing}

theorem step_keyboard (s : Typing) (a : Stroke) :
  (s.step a).1.keyboard = (decode s.keyboard a.bytes).1
  := rfl

theorem step_events (s : Typing) (a : Stroke) :
  (s.step a).2 = (decode s.keyboard a.bytes).2
  := rfl

/-- A stroke without an event that leaves the layout as it is. -/
theorem correct_of_silent
    {a : Stroke} (hevents : (s.step a).2 = [])
    (hlayout : (s.step a).1.keyboard.layout = s.keyboard.layout)
    (hchord : Chord (s.step a).1.held → Chord s.held) :
  s.Correct a
  := by
  constructor
  · intro e he
    rw [hevents] at he
    cases he
  · apply iff_of_false (fun hcon => hcon hlayout)
    rintro ⟨hbefore, hafter⟩
    exact hbefore (hchord hafter)

/-- A key that is pressed. -/
theorem press_iff (hsynced : s.Synced) (k : Key) :
  s.Steady (.press k) ↔ s.Correct (.press k) ∧ (s.step (.press k)).1.Synced
  := by
  obtain ⟨hkeyboard, hevents⟩ := decode_press s.keyboard k
  have hnext : (s.step (.press k)).1.Synced := by
    intro m
    change _ ↔ Held (k :: s.held) m
    rw [step_keyboard, hkeyboard, flag_pressed, held_cons, hsynced m, Key.modifier]
  have hlayout : (s.step (.press k)).1.keyboard.layout ≠ s.keyboard.layout
      ↔ (k.modifier = some .shift ∧ Held s.held .alt)
        ∨ (k.modifier = some .alt ∧ Held s.held .shift) := by
    rw [step_keyboard, hkeyboard, layout_pressed, hsynced, hsynced, Key.modifier]
  have hchord : Chord (k :: s.held)
      ↔ (k.modifier = some .alt ∨ Held s.held .alt)
        ∧ (k.modifier = some .shift ∨ Held s.held .shift) := by
    rw [Chord, held_cons, held_cons]
  constructor
  · intro hsteady
    refine ⟨⟨?_, ?_⟩, hnext⟩
    · intro e he m
      rw [hevents e he, modifiers_bit, ← hkeyboard]
      exact hnext m
    · rw [hlayout]
      change _ ↔ ¬ Chord s.held ∧ Chord (k :: s.held)
      rw [hchord]
      constructor
      · rintro (⟨hmodifier, halt⟩ | ⟨hmodifier, hshift⟩)
        · exact ⟨hsteady (.inl hmodifier), .inr halt, .inl hmodifier⟩
        · exact ⟨hsteady (.inr hmodifier), .inl hmodifier, .inr hshift⟩
      · rintro ⟨hbefore, hmodifier | halt, hmodifier' | hshift⟩
        · cases hmodifier.symm.trans hmodifier'
        · exact .inr ⟨hmodifier, hshift⟩
        · exact .inl ⟨hmodifier', halt⟩
        · exact absurd ⟨halt, hshift⟩ hbefore
  · rintro ⟨hcorrect, -⟩ hmodifier hbefore
    have htoggles : (s.step (.press k)).1.keyboard.layout ≠ s.keyboard.layout := by
      rw [hlayout]
      exact hmodifier.imp (fun h => ⟨h, hbefore.1⟩) (fun h => ⟨h, hbefore.2⟩)
    exact (hcorrect.layout.mp htoggles).1 hbefore

/-- A key that is released. -/
theorem release_iff (hsynced : s.Synced) (k : Key) :
  s.Steady (.release k) ↔ s.Correct (.release k) ∧ (s.step (.release k)).1.Synced
  := by
  have hdecode := decode_release s.keyboard k
  have hkeyboard : (s.step (.release k)).1.keyboard = released s.keyboard k.code := by
    rw [step_keyboard, hdecode]
  have hcorrect : s.Correct (.release k) := by
    apply correct_of_silent
    · rw [step_events, hdecode]
    · rw [hkeyboard, layout_released]
    · intro hafter
      exact ⟨held_of_filter hafter.1, held_of_filter hafter.2⟩
  have hnext : (s.step (.release k)).1.Synced
      ↔ ∀ m, (k.modifier ≠ some m ∧ Held s.held m) ↔ Held (s.held.filter (fun j => j ≠ k)) m := by
    apply forall_congr'
    intro m
    rw [hkeyboard, flag_released, hsynced]
    rfl
  rw [hnext]
  constructor
  · intro hsteady
    use hcorrect
    intro m
    by_cases hm : k.modifier = some m
    · exact iff_of_false (fun hcon => hcon.1 hm) (hsteady m hm)
    · rw [held_filter s.held k hm, and_iff_right hm]
  · rintro ⟨-, hnext⟩ m hm hheld
    exact ((hnext m).mpr hheld).1 hm

/-- A fake shift that is pressed. -/
theorem fakeShift_down_iff (hsynced : s.Synced) (right : Bool) :
  s.Steady (.fakeShift right true)
    ↔ s.Correct (.fakeShift right true) ∧ (s.step (.fakeShift right true)).1.Synced
  := by
  obtain ⟨hkeyboard, e, hevents, hbuttons⟩ := decode_fakeShift_down s.keyboard right
  have hlayout : (s.step (.fakeShift right true)).1.keyboard.layout ≠ s.keyboard.layout
      ↔ Held s.held .alt := by
    rw [step_keyboard, hkeyboard, layout_pressed, hsynced, hsynced]
    apply or_iff_left_of_imp _ |>.trans (and_iff_right rfl)
    rintro ⟨hcon, -⟩
    cases hcon
  constructor
  · rintro ⟨hshift, halt⟩
    have hnext : (s.step (.fakeShift right true)).1.Synced := by
      intro m
      change _ ↔ Held s.held m
      rw [step_keyboard, hkeyboard, flag_pressed, ← hsynced m]
      apply or_iff_right_of_imp
      rintro hm
      cases hm
      exact (hsynced .shift).mpr hshift
    refine ⟨⟨?_, ?_⟩, hnext⟩
    · intro e' he' m
      rw [step_events, hevents, List.mem_singleton] at he'
      rw [he', hbuttons, modifiers_bit, ← hkeyboard]
      exact hnext m
    · rw [hlayout]
      apply iff_of_false halt
      rintro ⟨-, hchord⟩
      exact halt hchord.1
  · rintro ⟨hcorrect, -⟩
    have hshift : Held s.held .shift := by
      have hmem : e ∈ (s.step (.fakeShift right true)).2 := by
        rw [step_events, hevents]
        exact List.mem_singleton_self e
      have hbit := hcorrect.bits e hmem .shift
      rw [hbuttons, modifiers_bit, flag_pressed] at hbit
      exact hbit.mp (.inl rfl)
    use hshift
    intro halt
    exact (hcorrect.layout.mp (hlayout.mpr halt)).1 ⟨halt, hshift⟩

/-- A fake shift that is released. -/
theorem fakeShift_up_iff (hsynced : s.Synced) (right : Bool) :
  s.Steady (.fakeShift right false)
    ↔ s.Correct (.fakeShift right false) ∧ (s.step (.fakeShift right false)).1.Synced
  := by
  have hdecode := decode_fakeShift_up s.keyboard right
  have hkeyboard : (s.step (.fakeShift right false)).1.keyboard = released s.keyboard 0x2A := by
    rw [step_keyboard, hdecode]
  have hcorrect : s.Correct (.fakeShift right false) := by
    apply correct_of_silent
    · rw [step_events, hdecode]
    · rw [hkeyboard, layout_released]
    · exact id
  constructor
  · intro hsteady
    use hcorrect
    intro m
    change _ ↔ Held s.held m
    rw [hkeyboard, flag_released, hsynced]
    apply and_iff_right_of_imp
    rintro hheld hm
    cases hm
    exact hsteady hheld
  · rintro ⟨-, hnext⟩ hshift
    have hflag := (hnext .shift).mpr hshift
    rw [hkeyboard, flag_released] at hflag
    exact hflag.1 rfl

/-- The Pause key. -/
theorem pause_iff (hsynced : s.Synced) :
  s.Steady .pause ↔ s.Correct .pause ∧ (s.step .pause).1.Synced
  := by
  have hcorrect : s.Correct .pause := correct_of_silent rfl rfl id
  constructor
  · intro hsteady
    use hcorrect
    intro m
    cases m with
    | shift => exact hsynced .shift
    | alt => exact hsynced .alt
    | ctrl => exact iff_of_false Bool.false_ne_true hsteady
  · rintro ⟨-, hnext⟩ hctrl
    exact Bool.false_ne_true ((hnext .ctrl).mpr hctrl)

/-- A stroke is followed exactly when it is steady. -/
theorem steady_iff (hsynced : s.Synced) (a : Stroke) :
  s.Steady a ↔ s.Correct a ∧ (s.step a).1.Synced
  := by
  cases a with
  | press k => exact press_iff hsynced k
  | release k => exact release_iff hsynced k
  | fakeShift right down =>
      cases down with
      | false => exact fakeShift_up_iff hsynced right
      | true => exact fakeShift_down_iff hsynced right
  | pause => exact pause_iff hsynced

/-- What the decoder does with a stroke. -/
def action (s : Typing) (a : Stroke) : Option Typing := some (s.step a).1

theorem allCorrect_of_steady
    {s : Typing} {as : List Stroke} (hsynced : s.Synced) (hsteady : Run.Guarded action Steady s as) :
  AllCorrect s as
  := by
  induction as generalizing s with
  | nil => trivial
  | cons a as ih =>
      obtain ⟨hcorrect, hnext⟩ := (steady_iff hsynced a).mp hsteady.1
      use hcorrect
      apply ih hnext
      exact hsteady.2 _ rfl

/-- In every run of steady strokes the modifiers follow the keys. -/
theorem modifiers_follow
    {as : List Stroke} (hsteady : Run.Guarded action Steady init as) :
  AllCorrect init as
  := by
  have hinit : init.Synced := by
    intro m
    cases m <;> decide
  exact allCorrect_of_steady hinit hsteady

def leftShift : Key := ⟨false, 0x2A, by decide, by decide, by decide⟩

def rightShift : Key := ⟨false, 0x36, by decide, by decide, by decide⟩

def rightAlt : Key := ⟨true, 0x38, by decide, by decide, by decide⟩

def letterA : Key := ⟨false, 0x1E, by decide, by decide, by decide⟩

/-- A chord of Shift and Alt, and a letter. -/
def chorded : List Stroke := [.press leftShift, .press rightAlt, .release leftShift, .press letterA]

theorem modifiers_follow_chorded :
  Run.Guarded action Steady init chorded ∧ AllCorrect init chorded
  := by
  have hsteady : Run.Guarded action Steady init chorded := by
    refine Run.guarded_cons (fun _ => by decide) rfl (Run.guarded_cons (fun _ => by decide) rfl
      (Run.guarded_cons ?_ rfl (Run.guarded_cons (fun _ => by decide) rfl trivial)))
    intro m hm
    cases Option.some.inj hm
    decide
  exact ⟨hsteady, modifiers_follow hsteady⟩

/-- When one of two Shift keys is released, the other is forgotten; and a chord that is held changes
the layout again and again. -/
theorem not_modifiers_follow :
  ¬ AllCorrect init
      [.press leftShift, .press rightShift, .release leftShift, .press letterA]
    ∧ ¬ AllCorrect init [.press rightAlt, .press leftShift, .press leftShift]
  := by
  constructor
  · rintro ⟨-, -, -, hcorrect, -⟩
    have hbit := hcorrect.bits _ List.mem_cons_self .shift
    exact absurd (hbit.mpr (by decide)) (by decide)
  · rintro ⟨-, -, hcorrect, -⟩
    exact absurd (hcorrect.layout.mp (by decide)) (by decide)

end Typing

end Ps2
