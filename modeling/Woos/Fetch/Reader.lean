import Woos.Fetch.Window

/-!
# What the fetch program is for

A `Reader` has a URL with a cursor in it, the last page that came, and the rows of its text.  The keys
type, delete and move in the URL; a request asks for the page with this URL, and the page is saved as
it came.

The rows are those of the text, as `laid_rowsOf` says: the text is cut at its line breaks, and a row
that is too long for the table is cut where it is full.
-/

open FetchWindow

/-- The URL, before and behind the cursor, what is shown of it, and the page. -/
structure Reader where
  winW : Int
  winH : Int
  before : List UInt8
  after : List UInt8
  offset : Nat
  focus : Bool
  received : List UInt8
  rows : List (List UInt8)
  scrollY : Int
  status : CString

namespace Reader

/-- A byte that does not end a row. -/
def InRow (c : UInt8) : Prop := c ≠ 10 ∧ c ≠ 13

instance : DecidablePred InRow := fun c => inferInstanceAs (Decidable (c ≠ 10 ∧ c ≠ 13))

/-- The first row of a text. -/
def firstRow (t : List UInt8) : List UInt8 := (t.takeWhile (fun c => InRow c)).take (maxCols - 1)

/-- A text without the line break at its start: a carriage return, a line feed, or one behind the
other. -/
def dropBreak (t : List UInt8) : List UInt8 :=
  if [13, 10] <+: t then t.drop 2 else if [13] <+: t ∨ [10] <+: t then t.drop 1 else t

/-- The rows of a text, so many at most. -/
def rowsOf : Nat → List UInt8 → List (List UInt8)
  | 0, _ => []
  | n + 1, t =>
    if t = [] then [] else firstRow t :: rowsOf n (dropBreak (t.drop (firstRow t).length))

/-- The rows that are shown of a text. -/
def pageRows (t : CString) : List (List UInt8) :=
  if t.bytes = [] then [[]] else rowsOf maxRows t.bytes

variable (r : Reader)

/-- The URL. -/
def url : List UInt8 := r.before ++ r.after

/-- The cursor moves behind the first `n` characters. -/
def moveTo (n : Nat) : Reader := { r with before := r.url.take n, after := r.url.drop n }

/-- A character comes in front of the cursor. -/
def type (c : UInt8) : Reader :=
  if r.url.length < urlSize - 2 then { r with before := r.before ++ [c] } else r

/-- A message in the status line. -/
def say (msg : CString) : Reader := { r with status := msg.truncate 127 }

/-- Ask for the page. -/
def request (a : Answer) : Reader × List Effect :=
  if r.url = [] then
    (r.say (.ofBytes (bytes "Error: URL cannot be empty")), [])
  else if a.res < 0 then
    ({ r with received := [], rows := [[]], scrollY := 0 }.say (failedStatus (.ofBytes a.body)),
      [.fetch r.url])
  else
    ({ r with received := a.body, rows := pageRows (.ofBytes a.body), scrollY := 0 }.say
      (doneStatus a.body.length), [.fetch r.url])

/-- Write the page into a file. -/
def save (handle : Int) : Reader × List Effect :=
  if r.received = [] then
    (r.say (.ofBytes (bytes "Nothing to save: response buffer is empty.")), [])
  else if 0 ≤ handle then
    (r.say (.ofBytes (bytes "Successfully saved response to /DESKTOP/FETCHED.TXT")),
      [.openFile fetchedPath, .writeFile handle r.received, .closeFile handle])
  else
    (r.say (.ofBytes (bytes "Error: failed to open /DESKTOP/FETCHED.TXT for writing")),
      [.openFile fetchedPath])

/-- Forget the page. -/
def clear : Reader :=
  { r with received := [], rows := [], scrollY := 0 }.say (.ofBytes (bytes "Response cleared."))

/-- The largest offset of the rows. -/
def maxScroll : Int := FetchWindow.maxScroll r.rows.length (visibleRows r.winH)

/-- A click. -/
def click (x y : Int) (a : Answer) (handle : Int) : Reader × List Effect :=
  match targetOf r.winW r.winH x y with
  | .input col => ({ r.moveTo (clickedPos r.offset r.url.length col) with focus := true }, [])
  | .fetch => { r with focus := false }.request a
  | .save => r.save handle
  | .clear => (r.clear, [])
  | .up => ({ r with scrollY := scrolledUp r.scrollY }, [])
  | .down => ({ r with scrollY := scrolledDown r.scrollY r.maxScroll }, [])
  | .content => ({ r with focus := false }, [])
  | .nothing => (r, [])

/-- A key that scrolls the rows. -/
def scrollKey (scancode : Int) : Reader :=
  { r with scrollY := scrolledByKey scancode r.scrollY (visibleRows r.winH) r.maxScroll }

/-- A key. -/
def key (ascii scancode : Int) (a : Answer) : Reader × List Effect :=
  if r.focus then
    match keyOf ascii scancode with
    | .enter => { r with focus := false }.request a
    | .backspace => ({ r with before := r.before.dropLast }, [])
    | .delete => ({ r with after := r.after.tail }, [])
    | .left => (r.moveTo (r.before.length - 1), [])
    | .right => (r.moveTo (r.before.length + 1), [])
    | .home => (r.moveTo 0, [])
    | .endKey => (r.moveTo r.url.length, [])
    | .printable c => (r.type c, [])
    | .other => (r.scrollKey scancode, [])
  else
    (r.scrollKey scancode, [])

/-- How many characters of the URL are shown. -/
def width : Nat := (maxChars r.winW).toNat

/-- The window moves over the URL until the cursor is in it. -/
def reveal : Nat :=
  if r.before.length < r.offset then r.before.length
  else if r.offset + r.width ≤ r.before.length then r.before.length + 1 - r.width
  else r.offset

/-- The picture of a reader. -/
def draw : Reader × List Effect :=
  let scrollY := clampedScroll r.scrollY r.maxScroll
  ({ r with offset := r.reveal, scrollY := scrollY }, [.blit {
    url := (r.url.drop r.reveal).take r.width
    cursor := if r.focus then some (inputX + 6 + (r.before.length - r.reveal : Nat) * charW) else none
    rows :=
      if r.rows = [] then hints
      else ((r.rows.drop scrollY.toNat).take (visibleRows r.winH).toNat).mapIdx (fun i row => (rowY i, row))
    status := r.status.bytes }])

/-- A message. -/
def handle (input : Input) : Option (Reader × List Effect × Bool) :=
  match input.message with
  | .close => none
  | .resize newW newH =>
    if newW > 0 ∧ newH > 0 then
      some ({ r with winW := min newW maxWinW, winH := min newH maxWinH }, [], true)
    else some (r, [], false)
  | .click x y =>
    let (r, effects) := r.click x y input.answer input.handle
    some (r, effects, true)
  | .keyDown ascii scancode =>
    let (r, effects) := r.key ascii scancode input.answer
    some (r, effects, true)
  | .scroll dz =>
    let maxS := FetchWindow.maxScroll r.rows.length ((r.winH - 110).tdiv 16)
    some ({ r with scrollY := scrolledByWheel r.scrollY dz maxS }, [], true)
  | .other => some (r, [], false)

/-- A reader that waits for messages. -/
def loop : EventLoop Reader Input Effect := ⟨handle, draw⟩

/-- A reader that has been started. -/
def init : Reader where
  winW := 580
  winH := 380
  before := defaultUrl
  after := []
  offset := 0
  focus := true
  received := []
  rows := []
  scrollY := 0
  status := .ofBytes (bytes "Ready. Click [Fetch] or press Enter to download.")

/-! ### Rows of a text -/

/-- A line break in front of a text: as many of its bytes as can be. -/
inductive Break : List UInt8 → List UInt8 → Prop where
  | crlf (t : List UInt8) : Break [13, 10] t
  | cr {t : List UInt8} (h : ¬ [10] <+: t) : Break [13] t
  | lf (t : List UInt8) : Break [10] t
  | none {t : List UInt8} (hcr : ¬ [13] <+: t) (hlf : ¬ [10] <+: t) : Break [] t

/-- A text is made of rows with line breaks behind them, and of a rest.  A row has no line break in
it, and fits into the table with its NUL; there is no break behind it only where the table has no room
for more of it, or at the end of the text. -/
inductive Laid : List UInt8 → List (List UInt8) → List UInt8 → Prop where
  | rest (t : List UInt8) : Laid t [] t
  | row {row brk t rest : List UInt8} {rows : List (List UInt8)} (hrow : ∀ c ∈ row, InRow c)
      (hfit : row.length ≤ maxCols - 1) (hbrk : Break brk t)
      (hfull : brk = [] → row.length = maxCols - 1 ∨ t = []) (hne : row ++ brk ++ t ≠ [])
      (hrest : Laid t rows rest) :
      Laid (row ++ brk ++ t) (row :: rows) rest

variable {t : List UInt8}

theorem length_firstRow_le (t : List UInt8) :
  (firstRow t).length ≤ maxCols - 1
  := List.length_take_le _ _

theorem firstRow_subset (t : List UInt8) :
  firstRow t ⊆ t
  := ((List.take_sublist _ _).trans (List.takeWhile_sublist _)).subset

theorem dropBreak_suffix (t : List UInt8) :
  dropBreak t <:+ t
  := by
  rw [dropBreak]
  split_ifs with hboth hone
  · apply List.drop_suffix
  · apply List.drop_suffix
  · apply List.suffix_refl

theorem break_dropBreak (t : List UInt8) :
  ∃ brk, t = brk ++ dropBreak t ∧ Break brk (dropBreak t)
  := by
  rw [dropBreak]
  split_ifs with hboth hone
  · obtain ⟨rest, rfl⟩ := hboth
    exact ⟨[13, 10], rfl, .crlf rest⟩
  · rcases hone with ⟨rest, rfl⟩ | ⟨rest, rfl⟩
    · refine ⟨[13], rfl, .cr ?_⟩
      rintro ⟨rest', rfl⟩
      exact hboth ⟨rest', rfl⟩
    · exact ⟨[10], rfl, .lf rest⟩
  · exact ⟨[], rfl, .none (fun h => hone (.inl h)) (fun h => hone (.inr h))⟩

/-- Behind a row that does not fill the table there is a line break, or nothing. -/
theorem firstRow_full (t : List UInt8) :
  (firstRow t).length = maxCols - 1 ∨ t.drop (firstRow t).length = []
    ∨ ∃ c rest, t.drop (firstRow t).length = c :: rest ∧ ¬ InRow c
  := by
  by_cases hlong : maxCols - 1 ≤ (t.takeWhile (fun c => InRow c)).length
  · left
    rw [firstRow, List.length_take, Nat.min_eq_left hlong]
  · right
    have hrow : firstRow t = t.takeWhile (fun c => InRow c) := List.take_of_length_le (by omega)
    have hdrop : t.drop (firstRow t).length = t.dropWhile (fun c => InRow c) := by
      have hsplit := List.takeWhile_append_dropWhile (p := fun c => decide (InRow c)) (l := t)
      rw [hrow]
      nth_rewrite 2 [← hsplit]
      exact List.drop_left
    rw [hdrop]
    cases hrest : t.dropWhile (fun c => InRow c) with
    | nil => exact .inl rfl
    | cons c rest =>
        have hhead := List.head?_dropWhile_not (fun c => decide (InRow c)) t
        rw [hrest] at hhead
        exact .inr ⟨c, rest, rfl, by simpa using hhead⟩

theorem firstRow_append (t : List UInt8) :
  firstRow t ++ t.drop (firstRow t).length = t
  := by
  have hprefix : firstRow t <+: t := (List.take_prefix _ _).trans (List.takeWhile_prefix _)
  calc
    firstRow t ++ t.drop (firstRow t).length
    _ = t.take (firstRow t).length ++ t.drop (firstRow t).length := by
      rw [← List.prefix_iff_eq_take.mp hprefix]
    _ = t := List.take_append_drop _ _

/-- The rows of a text are all its rows, or as many as are asked for. -/
theorem laid_rowsOf (n : Nat) (t : List UInt8) :
  ∃ rest, Laid t (rowsOf n t) rest ∧ (rest = [] ∨ (rowsOf n t).length = n)
  := by
  induction n generalizing t with
  | zero => exact ⟨t, .rest t, .inr rfl⟩
  | succ n ih =>
      rw [rowsOf]
      split_ifs with hempty
      · exact ⟨t, .rest t, .inl hempty⟩
      · obtain ⟨brk, hbrk, hbreak⟩ := break_dropBreak (t.drop (firstRow t).length)
        obtain ⟨rest, hlaid, hcount⟩ := ih (dropBreak (t.drop (firstRow t).length))
        have hfull : brk = [] → (firstRow t).length = maxCols - 1
            ∨ dropBreak (t.drop (firstRow t).length) = [] := by
          rintro rfl
          rcases firstRow_full t with hlen | hnil | ⟨c, rest, hrest, hc⟩
          · exact .inl hlen
          · rw [hnil]
            exact .inr rfl
          · cases hbreak with
            | none hcr hlf =>
                rw [List.nil_append] at hbrk
                rw [← hbrk, hrest] at hcr hlf
                refine absurd ⟨?_, ?_⟩ hc
                · rintro rfl
                  exact hlf (List.prefix_append [10] rest)
                · rintro rfl
                  exact hcr (List.prefix_append [13] rest)
        have hrow : ∀ c ∈ firstRow t, InRow c := by
          intro c hc
          simpa using List.mem_takeWhile_imp ((List.take_sublist _ _).subset hc)
        have hwhole : firstRow t ++ brk ++ dropBreak (t.drop (firstRow t).length) = t := by
          rw [List.append_assoc, ← hbrk, firstRow_append]
        have hne : firstRow t ++ brk ++ dropBreak (t.drop (firstRow t).length) ≠ [] := by rwa [hwhole]
        have hnext := Laid.row hrow (length_firstRow_le t) hbreak hfull hne hlaid
        rw [hwhole] at hnext
        refine ⟨rest, hnext, hcount.imp_right ?_⟩
        intro hlen
        rw [List.length_cons, hlen]

end Reader
