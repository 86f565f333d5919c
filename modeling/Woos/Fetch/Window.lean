import Woos.Browser.Navigate
import Woos.Lib.EventLoop
import Woos.Lib.Shift

/-!
# The window of the fetch program

The global variables of the program that downloads a page and shows its text, and what each message of
its window does to them.  Meanwhile the program fetches pages, writes a file and shows pictures: these
are its `Effect`s.

The network gives an `Answer`: it leaves a text with a NUL behind it in the buffer that it is given,
and the length of the text is the result when the page has been fetched.
-/

namespace FetchWindow

/-- `MAX_WIN_W` -/
def maxWinW : Int := 1280

/-- `MAX_WIN_H` -/
def maxWinH : Int := 1024

/-- `TOPBAR_H` -/
def topbarH : Int := 44

/-- `STATUSBAR_H` -/
def statusbarH : Int := 22

/-- `CHAR_W` -/
def charW : Int := 8

/-- `LINE_H` -/
def lineH : Int := 14

/-- `MAX_ROWS` -/
def maxRows : Nat := 1000

/-- `MAX_COLS` -/
def maxCols : Nat := 160

/-- `MAX_RESP_SIZE` -/
def maxRespSize : Nat := 32768

/-- The size of `g_url`. -/
def urlSize : Nat := 128

/-- The bytes of a text of the source. -/
def bytes (s : String) : List UInt8 := s.toList.map (fun c => c.toNat.toUInt8)

/-- The C string in a buffer of `n` bytes. -/
def text (buffer : Nat → UInt8) (n : Nat) : CString := .ofBytes (Shift.entries buffer n)

/-- What `woos_net_fetch` leaves in a buffer of `MAX_RESP_SIZE - 1` bytes: a text with a NUL behind
it, and some bytes behind this.  The result is the length of the text, or negative. -/
structure Answer where
  res : Int
  body : List UInt8
  residue : Nat → UInt8
  body_lt : body.length + 1 ≤ maxRespSize - 1
  res_eq : 0 ≤ res → res = body.length

/-- The buffer after the call. -/
def Answer.buffer (a : Answer) (response : Nat → UInt8) : Nat → UInt8 :=
  Shift.copy (fun i => if i < maxRespSize - 1 then a.residue i else response i) 0 (a.body ++ [0])

/-- The texts of a picture: the part of the URL that is shown and the place of its cursor, the rows
with their heights, and the status. -/
structure Picture where
  url : List UInt8
  cursor : Option Int
  rows : List (Int × List UInt8)
  status : List UInt8
  deriving DecidableEq

/-- What the program asks of the system. -/
inductive Effect where
  | fetch (url : List UInt8)
  | openFile (path : List UInt8)
  | writeFile (handle : Int) (content : List UInt8)
  | closeFile (handle : Int)
  | blit (picture : Picture)
  deriving DecidableEq

/-- The messages of the window. -/
inductive Message where
  | close
  | resize (newW newH : Int)
  | click (x y : Int)
  | keyDown (ascii scancode : Int)
  | scroll (dz : Int8)
  | other

/-- A message, and what the network and the files would answer. -/
structure Input where
  message : Message
  answer : Answer
  handle : Int

end FetchWindow

open FetchWindow in
/-- The global variables of the program. -/
structure FetchWindow where
  winW : Int
  winH : Int
  url : Nat → UInt8
  urlLen : Nat
  cursorPos : Nat
  scrollX : Nat
  urlFocus : Bool
  response : Nat → UInt8
  respLen : Nat
  rows : Nat → Nat → UInt8
  numRows : Nat
  scrollY : Int
  statusMsg : CString

namespace FetchWindow

/-- `http://10.0.2.2:8080/` -/
def defaultUrl : List UInt8 := bytes "http://10.0.2.2:8080/"

/-- The variables as they are declared. -/
def init : FetchWindow where
  winW := 580
  winH := 380
  url := Shift.copy (fun _ => 0) 0 defaultUrl
  urlLen := 21
  cursorPos := 21
  scrollX := 0
  urlFocus := true
  response := fun _ => 0
  respLen := 0
  rows := fun _ _ => 0
  numRows := 0
  scrollY := 0
  statusMsg := .ofBytes (bytes "Ready. Click [Fetch] or press Enter to download.")

/-- `set_status` -/
def setStatus (w : FetchWindow) (msg : CString) : FetchWindow :=
  { w with statusMsg := msg.truncate 127 }

/-! ### Rows -/

/-- The inner loop of `parse_response_lines`: the row, its length, and what `p` points to. -/
def rowLoop : (p : List UInt8) → (col : Nat) → (row : Nat → UInt8) → (Nat → UInt8) × Nat × List UInt8
  | [], col, row => (row, col, [])
  | c :: p, col, row =>
    if c ≠ 10 ∧ c ≠ 13 ∧ col < maxCols - 1 then rowLoop p (col + 1) (Function.update row col c)
    else (row, col, c :: p)

/-- `if (*p == c) p++;` -/
def skip (c : UInt8) (p : List UInt8) : List UInt8 := if p.head? = some c then p.tail else p

/-- The outer loop of `parse_response_lines`, for so many rounds at most: the rows and their
number. -/
def rowsLoop : (rounds : Nat) → (p : List UInt8) → (rows : Nat → Nat → UInt8) → (numRows : Nat) →
    (Nat → Nat → UInt8) × Nat
  | 0, _, rows, numRows => (rows, numRows)
  | n + 1, p, rows, numRows =>
    if p = [] then (rows, numRows)
    else
      let (row, col, rest) := rowLoop p 0 (rows numRows)
      rowsLoop n (skip 10 (skip 13 rest)) (Function.update rows numRows (Function.update row col 0))
        (numRows + 1)

/-- `parse_response_lines` -/
def parseResponseLines (w : FetchWindow) : FetchWindow :=
  let (rows, numRows) := rowsLoop maxRows (text w.response maxRespSize).bytes w.rows 0
  if numRows = 0 then
    { w with rows := Function.update rows 0 (Function.update (rows 0) 0 0), numRows := 1, scrollY := 0 }
  else
    { w with rows := rows, numRows := numRows, scrollY := 0 }

/-! ### Buttons -/

/-- The status after a page: `stat_buf`, of 64 bytes. -/
def doneStatus (res : Nat) : CString :=
  let num := (Browser.Address.intToStr res).bytes.take (50 - 15)
  .ofBytes (bytes "Done: received " ++ num ++ (bytes " bytes").take (63 - (15 + num.length)))

/-- The status after a failure: `err_msg`. -/
def failedStatus (response : CString) : CString :=
  if response.bytes = [] then .ofBytes (bytes "Fetch error: unable to connect") else response.truncate 120

/-- `do_fetch` -/
def doFetch (w : FetchWindow) (a : Answer) : FetchWindow × List Effect :=
  if w.urlLen = 0 then
    (w.setStatus (.ofBytes (bytes "Error: URL cannot be empty")), [])
  else
    let request := Effect.fetch (text w.url urlSize).bytes
    let w := w.setStatus (.ofBytes (bytes "Connecting and fetching data..."))
    let w := { w with response := a.buffer w.response }
    if a.res < 0 then
      let errMsg := failedStatus (text w.response maxRespSize)
      let w := { w with response := Function.update w.response 0 0, respLen := 0 }
      (w.parseResponseLines.setStatus errMsg, [request])
    else
      let w := { w with respLen := a.res.toNat }
      (w.parseResponseLines.setStatus (doneStatus a.res.toNat), [request])

/-- `/DESKTOP/FETCHED.TXT` -/
def fetchedPath : List UInt8 := bytes "/DESKTOP/FETCHED.TXT"

/-- `do_save`, when the file system opens the file with the given handle. -/
def doSave (w : FetchWindow) (handle : Int) : FetchWindow × List Effect :=
  if w.respLen = 0 then
    (w.setStatus (.ofBytes (bytes "Nothing to save: response buffer is empty.")), [])
  else if 0 ≤ handle then
    (w.setStatus (.ofBytes (bytes "Successfully saved response to /DESKTOP/FETCHED.TXT")),
      [.openFile fetchedPath, .writeFile handle (Shift.entries w.response w.respLen), .closeFile handle])
  else
    (w.setStatus (.ofBytes (bytes "Error: failed to open /DESKTOP/FETCHED.TXT for writing")),
      [.openFile fetchedPath])

/-- `do_clear` -/
def doClear (w : FetchWindow) : FetchWindow :=
  { w with response := Function.update w.response 0 0, respLen := 0, numRows := 0, scrollY := 0 }.setStatus
    (.ofBytes (bytes "Response cleared."))

/-! ### Layout -/

/-- `visible_rows`, for a window of the given height. -/
def visibleRows (winH : Int) : Int := (winH - topbarH - statusbarH).tdiv lineH

/-- The largest offset of so many rows in a part of the window that shows `vis` of them. -/
def maxScroll (numRows : Nat) (vis : Int) : Int := if (numRows : Int) > vis then numRows - vis else 0

/-- `input_w` of `get_layout` -/
def inputW (winW : Int) : Int :=
  let iw := winW - 48 - 250
  if iw < 140 then 140 else iw

/-- `input_x` of `get_layout` -/
def inputX : Int := 48

/-- `input_y` of `get_layout` -/
def inputY : Int := 10

/-- `input_h` of `get_layout` -/
def inputH : Int := 24

/-- `btn_fetch_x` of `get_layout` -/
def btnFetchX (winW : Int) : Int := inputX + inputW winW + 8

/-- `btn_save_x` of `get_layout` -/
def btnSaveX (winW : Int) : Int := btnFetchX winW + 58

/-- `btn_clear_x` of `get_layout` -/
def btnClearX (winW : Int) : Int := btnSaveX winW + 52

/-- `btn_up_x` of `get_layout` -/
def btnUpX (winW : Int) : Int := btnClearX winW + 52

/-- `btn_dn_x` of `get_layout` -/
def btnDnX (winW : Int) : Int := btnUpX winW + 26

/-- What a click meets. -/
inductive Target where
  | input (col : Int)
  | fetch
  | save
  | clear
  | up
  | down
  | content
  | nothing
  deriving DecidableEq

/-- The tests of `handle_click`, in their order. -/
def targetOf (winW winH x y : Int) : Target :=
  if x ≥ inputX ∧ x ≤ inputX + inputW winW ∧ y ≥ inputY ∧ y ≤ inputY + inputH then
    .input ((x - (inputX + 6) + charW.tdiv 2).tdiv charW)
  else if x ≥ btnFetchX winW ∧ x ≤ btnFetchX winW + 54 ∧ y ≥ 10 ∧ y ≤ 34 then .fetch
  else if x ≥ btnSaveX winW ∧ x ≤ btnSaveX winW + 48 ∧ y ≥ 10 ∧ y ≤ 34 then .save
  else if x ≥ btnClearX winW ∧ x ≤ btnClearX winW + 48 ∧ y ≥ 10 ∧ y ≤ 34 then .clear
  else if x ≥ btnUpX winW ∧ x ≤ btnUpX winW + 22 ∧ y ≥ 10 ∧ y ≤ 34 then .up
  else if x ≥ btnDnX winW ∧ x ≤ btnDnX winW + 22 ∧ y ≥ 10 ∧ y ≤ 34 then .down
  else if y > topbarH ∧ y < winH - statusbarH then .content
  else .nothing

/-- The place of the cursor after a click on a column of the input box. -/
def clickedPos (scrollX urlLen : Nat) (col : Int) : Nat :=
  let pos := (scrollX : Int) + col
  let pos := if pos < 0 then 0 else pos
  (if pos > urlLen then (urlLen : Int) else pos).toNat

/-- The offset of the rows after a click on the button `^`. -/
def scrolledUp (scrollY : Int) : Int :=
  let y := if scrollY > 0 then scrollY - 5 else scrollY
  if y < 0 then 0 else y

/-- The offset of the rows after a click on the button `v`. -/
def scrolledDown (scrollY maxS : Int) : Int :=
  let y := if scrollY < maxS then scrollY + 5 else scrollY
  if y > maxS then maxS else y

/-- `handle_click` -/
def handleClick (w : FetchWindow) (x y : Int) (a : Answer) (handle : Int) :
    FetchWindow × List Effect :=
  match targetOf w.winW w.winH x y with
  | .input col => ({ w with urlFocus := true, cursorPos := clickedPos w.scrollX w.urlLen col }, [])
  | .fetch => { w with urlFocus := false }.doFetch a
  | .save => w.doSave handle
  | .clear => (w.doClear, [])
  | .up => ({ w with scrollY := scrolledUp w.scrollY }, [])
  | .down =>
    ({ w with scrollY := scrolledDown w.scrollY (maxScroll w.numRows (visibleRows w.winH)) }, [])
  | .content => ({ w with urlFocus := false }, [])
  | .nothing => (w, [])

/-! ### Keys -/

/-- The keys that the URL field takes. -/
inductive Key where
  | enter
  | backspace
  | delete
  | left
  | right
  | home
  | endKey
  | printable (c : UInt8)
  | other
  deriving DecidableEq

/-- The tests of `handle_key` on a key in the URL field, in their order. -/
def keyOf (ascii scancode : Int) : Key :=
  if ascii = 10 ∨ ascii = 13 ∨ scancode = 0x1C then .enter
  else if ascii = 8 ∨ scancode = 0x0E then .backspace
  else if scancode = 0x53 then .delete
  else if scancode = 0x4B then .left
  else if scancode = 0x4D then .right
  else if scancode = 0x47 then .home
  else if scancode = 0x4F then .endKey
  else if ascii ≥ 32 ∧ ascii ≤ 126 then .printable (.ofNat ascii.toNat)
  else .other

/-- The offset of the rows after a key that scrolls them. -/
def scrolledByKey (scancode scrollY vis maxS : Int) : Int :=
  if scancode = 0x48 then (if scrollY > 0 then scrollY - 1 else scrollY)
  else if scancode = 0x50 then (if scrollY < maxS then scrollY + 1 else scrollY)
  else if scancode = 0x49 then (if scrollY - vis < 0 then 0 else scrollY - vis)
  else if scancode = 0x51 then (if scrollY + vis > maxS then maxS else scrollY + vis)
  else scrollY

/-- Backspace. -/
def backspace (w : FetchWindow) : FetchWindow :=
  if w.cursorPos > 0 then
    { w with
      url := Shift.closeGap w.url (w.cursorPos - 1) 1 w.urlLen
      urlLen := w.urlLen - 1
      cursorPos := w.cursorPos - 1 }
  else w

/-- Delete. -/
def delete (w : FetchWindow) : FetchWindow :=
  if w.cursorPos < w.urlLen then
    { w with
      url := Shift.closeGap w.url w.cursorPos 1 w.urlLen
      urlLen := w.urlLen - 1 }
  else w

/-- A printable character. -/
def insert (w : FetchWindow) (c : UInt8) : FetchWindow :=
  if w.urlLen < urlSize - 2 then
    { w with
      url := Function.update (Shift.openGap w.url w.cursorPos 1 w.urlLen) w.cursorPos c
      urlLen := w.urlLen + 1
      cursorPos := w.cursorPos + 1 }
  else w

/-- The part of `handle_key` behind the URL field. -/
def scrollByKey (w : FetchWindow) (scancode : Int) : FetchWindow :=
  let vis := visibleRows w.winH
  { w with scrollY := scrolledByKey scancode w.scrollY vis (maxScroll w.numRows vis) }

/-- `handle_key` -/
def handleKey (w : FetchWindow) (ascii scancode : Int) (a : Answer) : FetchWindow × List Effect :=
  if w.urlFocus then
    match keyOf ascii scancode with
    | .enter => { w with urlFocus := false }.doFetch a
    | .backspace => (w.backspace, [])
    | .delete => (w.delete, [])
    | .left => (if w.cursorPos > 0 then { w with cursorPos := w.cursorPos - 1 } else w, [])
    | .right => (if w.cursorPos < w.urlLen then { w with cursorPos := w.cursorPos + 1 } else w, [])
    | .home => ({ w with cursorPos := 0 }, [])
    | .endKey => ({ w with cursorPos := w.urlLen }, [])
    | .printable c => (w.insert c, [])
    | .other => (w.scrollByKey scancode, [])
  else
    (w.scrollByKey scancode, [])

/-! ### Drawing -/

/-- What is shown before a page has come. -/
def hints : List (Int × List UInt8) :=
  [(topbarH + 4 + 20, bytes "Enter an HTTP URL above and click [Fetch] to download content."),
    (topbarH + 4 + 40, bytes "Example: http://10.0.2.2:8080/ or 10.0.2.2")]

/-- The number of characters that the input box shows: `max_chars` of `draw_ui`. -/
def maxChars (winW : Int) : Int :=
  let maxChars := (inputW winW - 12).tdiv charW
  if maxChars < 1 then 1 else maxChars

/-- The first character that is shown. -/
def shownFrom (scrollX cursorPos : Nat) (maxChars : Int) : Nat :=
  let x := if cursorPos < scrollX then cursorPos else scrollX
  if (cursorPos : Int) ≥ x + maxChars then ((cursorPos : Int) - maxChars + 1).toNat else x

/-- The offset of the rows that `draw_ui` leaves. -/
def clampedScroll (scrollY maxScroll : Int) : Int :=
  let y := if scrollY > maxScroll then maxScroll else scrollY
  if y < 0 then 0 else y

/-- The place of the cursor, when it is within the input box. -/
def cursorX (winW : Int) (urlFocus : Bool) (column : Int) : Option Int :=
  let cx := inputX + 6 + column * charW
  if urlFocus ∧ cx ≥ inputX + 4 ∧ cx ≤ inputX + inputW winW - 4 then some cx else none

/-- The height of a row. -/
def rowY (i : Nat) : Int := topbarH + 4 + i * lineH

/-- The loop of `draw_ui` over the rows, from row `i` of the part that shows them. -/
def shownRows (rows : Nat → Nat → UInt8) (numRows : Nat) (scrollY : Int) : (rounds i : Nat) →
    List (Int × List UInt8)
  | 0, _ => []
  | n + 1, i =>
    let rowIdx := scrollY + i
    if rowIdx ≥ numRows then []
    else (rowY i, (text (rows rowIdx.toNat) maxCols).bytes) :: shownRows rows numRows scrollY n (i + 1)

/-- `draw_ui`: the offsets that it leaves, and the texts that it draws. -/
def drawUi (w : FetchWindow) : FetchWindow × Picture :=
  let scrollX := shownFrom w.scrollX w.cursorPos (maxChars w.winW)
  let copyLen : Int := w.urlLen - scrollX
  let copyLen := if copyLen > maxChars w.winW then maxChars w.winW else copyLen
  let copyLen := if copyLen < 0 then 0 else copyLen
  let vis := visibleRows w.winH
  let scrollY := clampedScroll w.scrollY (maxScroll w.numRows vis)
  ({ w with scrollX := scrollX, scrollY := scrollY }, {
    url := (CString.ofBytes (Shift.entries (fun i => w.url (scrollX + i)) copyLen.toNat)).bytes
    cursor := cursorX w.winW w.urlFocus (w.cursorPos - scrollX)
    rows := if w.numRows = 0 then hints else shownRows w.rows w.numRows scrollY vis.toNat 0
    status := w.statusMsg.bytes })

/-! ### The main loop -/

/-- The offset of the rows after the wheel. -/
def scrolledByWheel (scrollY : Int) (dz : Int8) (maxS : Int) : Int :=
  let y := scrollY - dz.toInt * 3
  let y := if y < 0 then 0 else y
  if y > maxS then maxS else y

/-- The branches of `_start` for one message. -/
def handle (w : FetchWindow) (input : Input) : Option (FetchWindow × List Effect × Bool) :=
  match input.message with
  | .close => none
  | .resize newW newH =>
    if newW > 0 ∧ newH > 0 then
      some ({ w with winW := min newW maxWinW, winH := min newH maxWinH }, [], true)
    else some (w, [], false)
  | .click x y =>
    let (w, effects) := w.handleClick x y input.answer input.handle
    some (w, effects, true)
  | .keyDown ascii scancode =>
    let (w, effects) := w.handleKey ascii scancode input.answer
    some (w, effects, true)
  | .scroll dz =>
    let maxS := maxScroll w.numRows ((w.winH - 110).tdiv 16)
    some ({ w with scrollY := scrolledByWheel w.scrollY dz maxS }, [], true)
  | .other => some (w, [], false)

/-- `_start`, when the window has been created. -/
def loop : EventLoop FetchWindow Input Effect where
  handle := handle
  draw w := (w.drawUi.1, [.blit w.drawUi.2])

end FetchWindow
