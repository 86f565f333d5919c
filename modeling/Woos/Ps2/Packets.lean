import Woos.Lib.Signed
import Woos.Ps2.Demux

/-!
# Two readers of the mouse

`mouse_poll` and `mouse_handler` read the bytes that wait in the controller, one call after the other.
`decodeBytes` decodes bytes from the mouse in one pass.  `split_decodes` says that the calls decode the
bytes from the mouse that they have read as one pass does, wherever each call stops; and that whatever
is decoded leaves the pointer on the screen, and the buttons as the events report them.
-/

namespace Ps2

/-! ### The calls -/

/-- The bytes that wait, each with whether it comes from the mouse; the decoder; and the events that it
has emitted. -/
structure Reader where
  output : List (Bool × UInt8)
  mouse : Mouse
  emitted : List InputEvent

/-- The loop of `mouse_handler`, up to the end of the bytes. -/
def handlerLoop (video : Option ScreenInfo) : List (Bool × UInt8) → Mouse → Mouse × List InputEvent
  | [], m => (m, [])
  | (aux, data) :: rest, m =>
      if aux = false then handlerLoop video rest m
      else
        let (m, events, _) := m.accept video data
        let (m, more) := handlerLoop video rest m
        (m, events ++ more)

/-- The loop of `mouse_poll` for so many more bytes: it ends with the first packet that is complete. -/
def pollLoop (video : Option ScreenInfo) :
    Nat → List (Bool × UInt8) → Mouse → List (Bool × UInt8) × Mouse × List InputEvent
  | 0, bytes, m => (bytes, m, [])
  | _ + 1, [], m => ([], m, [])
  | n + 1, (aux, data) :: rest, m =>
      if aux = false then pollLoop video n rest m
      else
        let (m, events, complete) := m.accept video data
        if complete then (rest, m, events)
        else
          let (rest, m, more) := pollLoop video n rest m
          (rest, m, events ++ more)

namespace Reader

/-- `mouse_handler` -/
def mouseHandler (video : Option ScreenInfo) (r : Reader) : Reader :=
  if r.mouse.ready then
    let (m, events) := handlerLoop video r.output r.mouse
    ⟨[], m, r.emitted ++ events⟩
  else r

/-- `mouse_poll` -/
def mousePoll (video : Option ScreenInfo) (r : Reader) : Reader :=
  if r.mouse.ready then
    let (rest, m, events) := pollLoop video mousePollMaxBytes.toNat r.output r.mouse
    ⟨rest, m, r.emitted ++ events⟩
  else r

/-- What happens: a byte arrives, or one of the readers is called. -/
inductive Action where
  | arrive (aux : Bool) (byte : UInt8)
  | poll
  | handler

/-- An action.  A byte that arrives while a reader runs is one that has arrived before, when the reader
still reads it, and arrives afterwards otherwise. -/
def step (video : Option ScreenInfo) (r : Reader) : Action → Reader
  | .arrive aux byte => { r with output := r.output ++ [(aux, byte)] }
  | .poll => r.mousePoll video
  | .handler => r.mouseHandler video

/-- The bytes that have arrived. -/
def arrived : List Action → List (Bool × UInt8)
  | [] => []
  | .arrive aux byte :: as => (aux, byte) :: arrived as
  | .poll :: as => arrived as
  | .handler :: as => arrived as

end Reader

/-! ### One pass -/

/-- The bytes from the mouse, decoded one after the other. -/
def decodeBytes (video : Option ScreenInfo) (m : Mouse) : List UInt8 → Mouse × List InputEvent
  | [] => (m, [])
  | data :: bytes =>
      let (m, events, _) := m.accept video data
      let (m, more) := decodeBytes video m bytes
      (m, events ++ more)

/-- The pointer is on the screen. -/
def Inside (screen : ScreenInfo) (m : Mouse) : Prop := m.x < screen.width ∧ m.y < screen.height

/-- The buttons that the events report: those of the last event of a press, a release or a move. -/
def reported (buttons : UInt8) (events : List InputEvent) : UInt8 :=
  events.foldl (fun b e =>
    if e.type = .mouseMove ∨ e.type = .mouseButton ∨ e.type = .mouseRelease then e.buttons
    else b) buttons

/-- The mouse after `mouse_init`, which `kmain` calls with the middle of the screen. -/
def mouseInit (screen : ScreenInfo) (ready : Bool) (packet : Nat → UInt8) (packetSize : UInt8)
    (perf : MousePerf) : Mouse :=
  ⟨screen.width / 2, screen.height / 2, 0, ready, 0, packet, packetSize, perf⟩

section

variable {video : Option ScreenInfo} {m : Mouse}

theorem decodeBytes_append (as bs : List UInt8) :
  decodeBytes video m (as ++ bs) = ((decodeBytes video (decodeBytes video m as).1 bs).1,
    (decodeBytes video m as).2 ++ (decodeBytes video (decodeBytes video m as).1 bs).2)
  := by
  induction as generalizing m with
  | nil => rfl
  | cons data as ih => simp only [List.cons_append, decodeBytes, ih, List.append_assoc]

/-! ### The calls decodeBytes -/

theorem bytesOf_mouse (data : UInt8) (rest : List (Bool × UInt8)) :
  Session.bytesOf true ((true, data) :: rest) = data :: Session.bytesOf true rest
  := rfl

theorem bytesOf_keyboard (data : UInt8) (rest : List (Bool × UInt8)) :
  Session.bytesOf true ((false, data) :: rest) = Session.bytesOf true rest
  := rfl

theorem handlerLoop_eq (bytes : List (Bool × UInt8)) :
  handlerLoop video bytes m = decodeBytes video m (Session.bytesOf true bytes)
  := by
  induction bytes generalizing m with
  | nil => rfl
  | cons p rest ih =>
      obtain ⟨aux, data⟩ := p
      cases aux with
      | false => rw [handlerLoop, if_pos rfl, ih, bytesOf_keyboard]
      | true => simp only [handlerLoop, reduceCtorEq, if_false, ih, bytesOf_mouse, decodeBytes]

/-- The loop of `mouse_poll` decodes the bytes that it takes. -/
theorem pollLoop_eq (n : Nat) (bytes : List (Bool × UInt8)) :
  ∃ taken, bytes = taken ++ (pollLoop video n bytes m).1
    ∧ (pollLoop video n bytes m).2 = decodeBytes video m (Session.bytesOf true taken)
  := by
  induction n generalizing bytes m with
  | zero => exact ⟨[], rfl, rfl⟩
  | succ n ih =>
      cases bytes with
      | nil => exact ⟨[], rfl, rfl⟩
      | cons p rest =>
          obtain ⟨aux, data⟩ := p
          cases aux with
          | false =>
              obtain ⟨taken, hrest, htaken⟩ := @ih m rest
              use (false, data) :: taken
              rw [pollLoop, if_pos rfl, bytesOf_keyboard, ← htaken, List.cons_append, ← hrest]
              exact ⟨rfl, rfl⟩
          | true =>
              by_cases hcomplete : (m.accept video data).2.2 = true
              · use [(true, data)]
                simp only [pollLoop, reduceCtorEq, if_false, hcomplete, if_true, bytesOf_mouse,
                  decodeBytes]
                exact ⟨rfl, by simp [Session.bytesOf, decodeBytes]⟩
              · obtain ⟨taken, hrest, htaken⟩ := @ih (m.accept video data).1 rest
                use (true, data) :: taken
                simp only [pollLoop, reduceCtorEq, if_false, hcomplete, bytesOf_mouse, decodeBytes,
                  ← htaken, List.cons_append]
                exact ⟨by rw [← hrest], trivial⟩

/-- The readers have decoded a part of what has arrived, as one pass does, and the rest waits. -/
structure Reader.Decoded (video : Option ScreenInfo) (m : Mouse) (arrived : List (Bool × UInt8))
    (r : Reader) : Prop where
  exists_taken : ∃ taken, arrived = taken ++ r.output
    ∧ (r.mouse, r.emitted) = decodeBytes video m (Session.bytesOf true taken)

/-- More bytes have been taken and decoded. -/
theorem Reader.Decoded.take {r : Reader} {arrived taken rest : List (Bool × UInt8)}
    (h : r.Decoded video m arrived) (houtput : r.output = taken ++ rest) :
  Reader.Decoded video m arrived ⟨rest, (decodeBytes video r.mouse (Session.bytesOf true taken)).1,
    r.emitted ++ (decodeBytes video r.mouse (Session.bytesOf true taken)).2⟩
  := by
  obtain ⟨before, harrived, hbefore⟩ := h.exists_taken
  refine ⟨before ++ taken, ?_, ?_⟩
  · rw [harrived, houtput, List.append_assoc]
  · rw [Session.bytesOf_append, decodeBytes_append, ← hbefore]

theorem Reader.Decoded.step {r : Reader} {arrived : List (Bool × UInt8)}
    (h : r.Decoded video m arrived) (a : Reader.Action) :
  (r.step video a).Decoded video m (arrived ++ Reader.arrived [a])
  := by
  cases a with
  | arrive aux byte =>
      obtain ⟨taken, harrived, htaken⟩ := h.exists_taken
      refine ⟨taken, ?_, htaken⟩
      rw [harrived, List.append_assoc]
      rfl
  | poll =>
      rw [Reader.arrived, Reader.arrived, List.append_nil, Reader.step, Reader.mousePoll]
      split
      · obtain ⟨taken, houtput, htaken⟩ :=
          @pollLoop_eq video r.mouse mousePollMaxBytes.toNat r.output
        have htake := h.take houtput
        rw [← htaken] at htake
        exact htake
      · exact h
  | handler =>
      rw [Reader.arrived, Reader.arrived, List.append_nil, Reader.step, Reader.mouseHandler]
      split
      · have htake := h.take (List.append_nil r.output).symm
        rw [← handlerLoop_eq] at htake
        exact htake
      · exact h

theorem arrived_append (as bs : List Reader.Action) :
  Reader.arrived (as ++ bs) = Reader.arrived as ++ Reader.arrived bs
  := by
  induction as with
  | nil => rfl
  | cons a as ih =>
      cases a with
      | arrive aux byte => exact congrArg ((aux, byte) :: ·) ih
      | poll => exact ih
      | handler => exact ih

/-- In every run the readers have decoded a part of what has arrived. -/
theorem run_decoded (actions : List Reader.Action) :
  (actions.foldl (Reader.step video) ⟨[], m, []⟩).Decoded video m (Reader.arrived actions)
  := by
  induction actions using List.reverseRecOn with
  | nil => exact ⟨[], rfl, rfl⟩
  | append_singleton as a ih =>
      rw [List.foldl_append, arrived_append]
      exact ih.step a

/-! ### What is decoded -/

/-- What each byte keeps holds after all of them. -/
theorem decodeBytes_invariant {P : Mouse → Prop}
    (hstep : ∀ m data, P m → P (m.accept video data).1) (h : P m) (bytes : List UInt8) :
  P (decodeBytes video m bytes).1
  := by
  induction bytes generalizing m with
  | nil => exact h
  | cons data bytes ih => exact ih (hstep m data h)

end

/-- A number that is cut to a screen of `limit` pixels is on it. -/
theorem cut_bounds {n limit : Int32} (hlimit : 0 < limit.toInt) :
  0 ≤ (if n < 0 then 0 else if limit ≤ n then limit - 1 else n).toInt
    ∧ (if n < 0 then 0 else if limit ≤ n then limit - 1 else n).toInt < limit.toInt
  := by
  have hone : (1 : Int32).toInt = 1 := rfl
  have hzero : (0 : Int32).toInt = 0 := rfl
  have hlt := limit.toInt_lt
  by_cases hneg : n < 0
  · rw [if_pos hneg, hzero]
    omega
  · rw [if_neg hneg]
    by_cases hge : limit ≤ n
    · rw [if_pos hge, Signed.toInt_sub, hone]
      · omega
      · omega
      · omega
    · rw [if_neg hge]
      rw [Int32.lt_iff_toInt_lt, hzero] at hneg
      rw [Int32.le_iff_toInt_le] at hge
      omega

theorem toInt_widen (p : UInt16) :
  p.toUInt32.toInt32.toInt = p.toNat
  := by
  have hp := p.toNat_lt
  have hnat := p.toNat_toUInt32
  rw [Signed.toInt_toInt32_of_lt, hnat]
  omega

/-- A coordinate that is moved stays on the screen. -/
theorem moved_lt {p limit : UInt16} {d : Int32} (hlimit : 0 < limit) :
  Mouse.moved p d limit < limit
  := by
  have hl16 := limit.toNat_lt
  have hpos : 0 < limit.toUInt32.toInt32.toInt := by
    rw [toInt_widen]
    exact Int.natCast_pos.mpr hlimit
  obtain ⟨hnonneg, hlt⟩ := @cut_bounds (p.toUInt32.toInt32 + d) _ hpos
  have hnat := Signed.toNat_toUInt32 hnonneg
  rw [toInt_widen] at hlt
  rw [UInt16.lt_iff_toNat_lt, Mouse.moved, UInt32.toNat_toUInt16]
  omega

section

variable {video : Option ScreenInfo} {screen : ScreenInfo} {m : Mouse}

theorem move_inside (hwidth : 0 < screen.width) (hheight : 0 < screen.height) (h : Inside screen m) :
  Inside screen (m.move (some screen)).1
  := by
  have hx := @moved_lt m.x screen.width ((m.packet 1).toInt8.toInt32 * 3) hwidth
  have hy := @moved_lt m.y screen.height (-((m.packet 2).toInt8.toInt32 * 3)) hheight
  rw [Mouse.move]
  simp only [Option.getD_some]
  split
  · exact ⟨hx, hy⟩
  · exact h

theorem press_inside (h : Inside screen m) :
  Inside screen m.press.1
  := by
  rw [Mouse.press]
  dsimp only
  split
  · exact h
  · exact h

theorem pushed_inside {events : List InputEvent} :
  Inside screen (m.pushed events) ↔ Inside screen m
  := Iff.rfl

theorem handleMousePacket_inside (hwidth : 0 < screen.width) (hheight : 0 < screen.height)
    (h : Inside screen m) :
  Inside screen (m.handleMousePacket (some screen)).1
  := by
  let counted : Mouse := { m with perf := { m.perf with recv := m.perf.recv + 1 } }
  have hcounted : Inside screen counted := h
  have hpress := press_inside (move_inside hwidth hheight hcounted)
  rw [Mouse.handleMousePacket]
  dsimp only
  split
  · exact h
  · split
    · exact h
    · exact pushed_inside.mpr hpress

theorem accept_inside (hwidth : 0 < screen.width) (hheight : 0 < screen.height) (data : UInt8)
    (h : Inside screen m) :
  Inside screen (m.accept (some screen) data).1
  := by
  rw [Mouse.accept]
  split
  · exact h
  · extract_lets collected
    have hcollected : Inside screen collected := h
    split
    · have hpacket := handleMousePacket_inside hwidth hheight hcollected
      exact hpacket
    · exact h

/-! ### The buttons that are reported -/

theorem reported_append (buttons : UInt8) (as bs : List InputEvent) :
  reported buttons (as ++ bs) = reported (reported buttons as) bs
  := List.foldl_append

/-- Bits that differ have been pressed or released. -/
theorem eq_of_and_not {a b : UInt8} (hpress : a &&& ~~~b = 0) (hrelease : b &&& ~~~a = 0) :
  a = b
  := by
  rw [← UInt8.toBitVec_inj] at hpress hrelease ⊢
  apply BitVec.eq_of_getLsbD_eq
  intro i hi
  have hab := congrArg (BitVec.getLsbD · i) hpress
  have hba := congrArg (BitVec.getLsbD · i) hrelease
  simp [hi] at hab hba
  cases ha : a.toBitVec.getLsbD i with
  | false =>
      cases hb : b.toBitVec.getLsbD i with
      | false => rfl
      | true => simp_all
  | true => simp_all

theorem move_buttons :
  (m.move video).1.buttons = m.buttons
  := by
  rw [Mouse.move]
  dsimp only
  split
  · rfl
  · rfl

/-- A move reports the buttons of the packet before. -/
theorem move_reported :
  reported m.buttons (m.move video).2 = m.buttons
  := by
  rw [Mouse.move]
  dsimp only
  split
  · rfl
  · rfl

/-- When the buttons change, a press or a release reports them. -/
theorem press_reported :
  reported m.buttons m.press.2 = m.press.1.buttons
  := by
  rw [Mouse.press]
  dsimp only
  split
  case isTrue hne =>
    by_cases hpress : m.packet 0 &&& 0x07 &&& ~~~m.buttons = 0
    · by_cases hrelease : m.buttons &&& ~~~(m.packet 0 &&& 0x07) = 0
      · exact absurd (eq_of_and_not hpress hrelease) hne
      · simp [hpress, hrelease, reported, Mouse.event]
    · by_cases hrelease : m.buttons &&& ~~~(m.packet 0 &&& 0x07) = 0
      · simp [hpress, hrelease, reported, Mouse.event]
      · simp [hpress, hrelease, reported, Mouse.event]
  case isFalse => rfl

theorem wheel_reported (buttons : UInt8) :
  reported buttons m.wheel = buttons
  := by
  have hevent (dz : UInt8) :
      reported buttons (if dz ≠ 0 then [m.event .mouseWheel dz] else []) = buttons := by
    split
    · rfl
    · rfl
  rw [Mouse.wheel]
  split
  · exact hevent _
  · rfl

theorem pushed_buttons {events : List InputEvent} :
  (m.pushed events).buttons = m.buttons
  := rfl

theorem handleMousePacket_reported :
  reported m.buttons (m.handleMousePacket video).2 = (m.handleMousePacket video).1.buttons
  := by
  let counted : Mouse := { m with perf := { m.perf with recv := m.perf.recv + 1 } }
  have hmove : reported m.buttons (counted.move video).2 = m.buttons :=
    @move_reported video counted
  have hpress := @press_reported (counted.move video).1
  rw [move_buttons] at hpress
  rw [Mouse.handleMousePacket]
  dsimp only
  split
  · rfl
  · split
    · rfl
    · rw [reported_append, reported_append, hmove, wheel_reported, pushed_buttons]
      exact hpress

theorem accept_reported (data : UInt8) :
  reported m.buttons (m.accept video data).2.1 = (m.accept video data).1.buttons
  := by
  rw [Mouse.accept]
  split
  · rfl
  · extract_lets collected
    have hcollected : collected.buttons = m.buttons := rfl
    split
    · rw [← hcollected]
      exact handleMousePacket_reported
    · rfl

/-! ### All calls and all packets -/

theorem decodeBytes_inside (hwidth : 0 < screen.width) (hheight : 0 < screen.height)
    (h : Inside screen m) (bytes : List UInt8) :
  Inside screen (decodeBytes (some screen) m bytes).1
  := decodeBytes_invariant (fun _ data h => accept_inside hwidth hheight data h) h bytes

theorem decodeBytes_reported (bytes : List UInt8) :
  reported m.buttons (decodeBytes video m bytes).2 = (decodeBytes video m bytes).1.buttons
  := by
  induction bytes generalizing m with
  | nil => rfl
  | cons data bytes ih => rw [decodeBytes, reported_append, accept_reported, ih]

theorem move_ready :
  (m.move video).1.ready = m.ready
  := by
  rw [Mouse.move]
  dsimp only
  split
  · rfl
  · rfl

theorem press_ready :
  m.press.1.ready = m.ready
  := by
  rw [Mouse.press]
  dsimp only
  split
  · rfl
  · rfl

theorem pushed_ready {events : List InputEvent} :
  (m.pushed events).ready = m.ready
  := rfl

theorem handleMousePacket_ready :
  (m.handleMousePacket video).1.ready = m.ready
  := by
  let counted : Mouse := { m with perf := { m.perf with recv := m.perf.recv + 1 } }
  have hpress := @press_ready (counted.move video).1
  rw [move_ready] at hpress
  rw [Mouse.handleMousePacket]
  dsimp only
  split
  · rfl
  · split
    · rfl
    · rw [pushed_ready]
      exact hpress

/-- No byte makes the mouse ready or unready. -/
theorem accept_ready (data : UInt8) :
  (m.accept video data).1.ready = m.ready
  := by
  rw [Mouse.accept]
  split
  · rfl
  · extract_lets collected
    have hcollected : collected.ready = m.ready := rfl
    split
    · rw [← hcollected]
      exact handleMousePacket_ready
    · rfl

theorem decodeBytes_ready (bytes : List UInt8) :
  (decodeBytes video m bytes).1.ready = m.ready
  := by
  induction bytes generalizing m with
  | nil => rfl
  | cons data bytes ih => exact ih.trans (accept_ready data)

/-- A call of `mouse_handler` leaves nothing undecoded. -/
theorem run_handler (hready : m.ready) (actions : List Reader.Action) :
  (actions ++ [Reader.Action.handler]).foldl (Reader.step video) ⟨[], m, []⟩
    = ⟨[], (decodeBytes video m (Session.bytesOf true (Reader.arrived actions))).1,
        (decodeBytes video m (Session.bytesOf true (Reader.arrived actions))).2⟩
  := by
  obtain ⟨taken, harrived, htaken⟩ := (@run_decoded video m actions).exists_taken
  rw [List.foldl_append]
  generalize actions.foldl (Reader.step video) ⟨[], m, []⟩ = r at harrived htaken
  obtain ⟨hmouse, hemitted⟩ := Prod.mk.inj htaken
  have hrest : r.mouse.ready := by
    rw [hmouse, decodeBytes_ready]
    exact hready
  rw [harrived, Session.bytesOf_append, decodeBytes_append, ← hmouse, ← hemitted, ← handlerLoop_eq]
  exact if_pos hrest

/-- The readers called one after the other do as one pass does. -/
structure Faithful (screen : ScreenInfo) (m : Mouse) (actions : List Reader.Action) : Prop where
  /-- What they have read is decoded as in one pass. -/
  decoded : (actions.foldl (Reader.step (some screen)) ⟨[], m, []⟩).Decoded (some screen) m
    (Reader.arrived actions)
  /-- A last call of `mouse_handler` decodes all that has arrived. -/
  complete : m.ready →
    (actions ++ [Reader.Action.handler]).foldl (Reader.step (some screen)) ⟨[], m, []⟩
      = ⟨[], (decodeBytes (some screen) m (Session.bytesOf true (Reader.arrived actions))).1,
          (decodeBytes (some screen) m (Session.bytesOf true (Reader.arrived actions))).2⟩
  /-- The pointer is on the screen after each byte. -/
  inside : ∀ bytes, Inside screen (decodeBytes (some screen) m bytes).1
  /-- The events report the buttons after each byte. -/
  buttons : ∀ bytes,
    reported 0 (decodeBytes (some screen) m bytes).2 = (decodeBytes (some screen) m bytes).1.buttons

end

/-- From `mouse_init` on, and however the bytes are split among the calls, the readers do as one pass
does, the pointer stays on the screen, and the events report the buttons. -/
theorem split_decodes {screen : ScreenInfo} (hwidth : 0 < screen.width) (hheight : 0 < screen.height)
    (ready : Bool) (packet : Nat → UInt8) (packetSize : UInt8) (perf : MousePerf)
    (actions : List Reader.Action) :
  Faithful screen (mouseInit screen ready packet packetSize perf) actions
  := by
  have hinside : Inside screen (mouseInit screen ready packet packetSize perf) := by
    have hx : 0 < screen.width.toNat := hwidth
    have hy : 0 < screen.height.toNat := hheight
    constructor
    · rw [UInt16.lt_iff_toNat_lt, mouseInit, UInt16.toNat_div]
      exact Nat.div_lt_self hx Nat.one_lt_two
    · rw [UInt16.lt_iff_toNat_lt, mouseInit, UInt16.toNat_div]
      exact Nat.div_lt_self hy Nat.one_lt_two
  constructor
  case decoded => exact run_decoded actions
  case complete => exact fun hready => run_handler hready actions
  case inside => exact decodeBytes_inside hwidth hheight hinside
  case buttons => exact @decodeBytes_reported _ (mouseInit screen ready packet packetSize perf)

/-- A packet that `mouse_poll` begins and `mouse_handler` ends. -/
theorem split_decodes_packet :
  Faithful ⟨1280, 1024⟩ (mouseInit ⟨1280, 1024⟩ true (fun _ => 0) 3 ⟨0, 0, 0, 0⟩)
    [.arrive true 0x09, .arrive false 0x1E, .poll, .arrive true 5, .arrive true 0xFB, .handler]
  := split_decodes (by decide) (by decide) true (fun _ => 0) 3 ⟨0, 0, 0, 0⟩ _

end Ps2
