import Woos.Fetch.Reader

/-!
# The fetch program is a reader

`FetchWindow.Shows` relates the buffers of the program to what a reader has.  Every message and every
drawing keeps it, with the same effects, and so does every run: `FetchWindow.run_shows`.  The requests
have the URL that the reader has typed, the file has the page that came last, and the pictures show
the part of the URL around the cursor and the rows of the page.
-/

open FetchWindow

namespace FetchWindow

variable {w : FetchWindow} {r : Reader} {buffer : Nat → UInt8} {t : List UInt8} {n size : Nat}

/-- The texts of the rows of the table. -/
def rowTexts (rows : Nat → Nat → UInt8) (numRows : Nat) : List (List UInt8) :=
  Shift.entries (fun i => (text (rows i) maxCols).bytes) numRows

/-- A NUL ends every row of the table. -/
def RowsEnd (rows : Nat → Nat → UInt8) (numRows : Nat) : Prop :=
  ∀ i < numRows, ∃ j < maxCols, rows i j = 0

/-- The buffers of the program hold what a reader has. -/
structure Shows (w : FetchWindow) (r : Reader) : Prop where
  winW : w.winW = r.winW
  winH : w.winH = r.winH
  url : Shift.entries w.url (w.urlLen + 1) = r.url ++ [0]
  urlLen_le : w.urlLen ≤ urlSize - 2
  printable : ∀ c ∈ r.url, 32 ≤ c ∧ c ≤ 126
  cursor : w.cursorPos = r.before.length
  offset : w.scrollX = r.offset
  focus : w.urlFocus = r.focus
  response : Shift.entries w.response w.respLen = r.received
  respLen_lt : w.respLen < maxRespSize
  terminated : w.response (maxRespSize - 1) = 0
  rows : rowTexts w.rows w.numRows = r.rows
  numRows_le : w.numRows ≤ maxRows
  rowsEnd : RowsEnd w.rows w.numRows
  scrollY : w.scrollY = r.scrollY
  status : w.statusMsg = r.status

/-! ### Texts in buffers -/

theorem ofBytes_append_nul (t rest : List UInt8) :
  CString.ofBytes (t ++ 0 :: rest) = .ofBytes t
  := by
  ext1
  change (t ++ 0 :: rest).takeWhile (fun b => b != 0) = t.takeWhile (fun b => b != 0)
  induction t with
  | nil => rfl
  | cons c t ih => rw [List.cons_append, List.takeWhile_cons, List.takeWhile_cons, ih]

theorem ofBytes_of_ne_zero (h : ∀ c ∈ t, c ≠ 0) :
  (CString.ofBytes t).bytes = t
  := by
  rw [CString.ofBytes, List.takeWhile_eq_self_iff]
  intro c hc
  exact bne_iff_ne.mpr (h c hc)

/-- The text in a buffer ends with the NUL behind it. -/
theorem text_eq (h : Shift.entries buffer (n + 1) = t ++ [0]) (hn : n < size) :
  text buffer size = .ofBytes t
  := by
  have hsize : size = n + 1 + (size - (n + 1)) := by omega
  rw [text, hsize, Shift.entries_add, h, List.append_assoc]
  apply ofBytes_append_nul

/-- So many bytes and a NUL. -/
theorem entries_nul (h : Shift.entries buffer n = t) :
  Shift.entries (Function.update buffer n 0) (n + 1) = t ++ [0]
  := by
  rw [Shift.entries_succ, Shift.entries_update_ge _ (Nat.le_refl n), h, Function.update_self]

theorem exists_nul (h : Shift.entries buffer (n + 1) = t ++ [0]) :
  buffer n = 0
  := by
  rw [Shift.entries_succ] at h
  exact (List.append_inj' h rfl).2 |> List.singleton_inj.mp

/-! ### Rows -/

/-- The loop takes the part of the row that fits. -/
theorem rowLoop_eq (p : List UInt8) (col : Nat) (row : Nat → UInt8) :
  (rowLoop p col row).2.1 = col + ((p.takeWhile (fun c => Reader.InRow c)).take (maxCols - 1 - col)).length
    ∧ (rowLoop p col row).2.2
      = p.drop ((p.takeWhile (fun c => Reader.InRow c)).take (maxCols - 1 - col)).length
    ∧ Shift.entries (rowLoop p col row).1 (rowLoop p col row).2.1
      = Shift.entries row col ++ (p.takeWhile (fun c => Reader.InRow c)).take (maxCols - 1 - col)
  := by
  induction p generalizing col row with
  | nil => simp [rowLoop]
  | cons c p ih =>
      rw [rowLoop]
      split_ifs with hc
      · have hin : Reader.InRow c := ⟨hc.1, hc.2.1⟩
        have hroom : maxCols - 1 - col = maxCols - 1 - (col + 1) + 1 := by omega
        obtain ⟨hlen, hrest, hrow⟩ := ih (col + 1) (Function.update row col c)
        rw [hlen, hrest, List.takeWhile_cons_of_pos (by simpa using hin), hroom, List.take_succ_cons,
          List.length_cons, List.drop_succ_cons, ← hlen, hrow, Shift.entries_succ,
          Shift.entries_update_ge _ (Nat.le_refl col), Function.update_self, List.append_assoc]
        refine ⟨?_, rfl, rfl⟩
        rw [hlen]
        omega
      · have hnone : ((c :: p).takeWhile (fun c => Reader.InRow c)).take (maxCols - 1 - col) = [] := by
          by_cases hcol : col < maxCols - 1
          · have hout : ¬ Reader.InRow c := by
              rintro ⟨hlf, hcr⟩
              exact hc ⟨hlf, hcr, hcol⟩
            rw [List.takeWhile_cons_of_neg (by simpa using hout), List.take_nil]
          · have hfull : maxCols - 1 - col = 0 := by omega
            rw [hfull, List.take_zero]
        rw [hnone]
        simp

theorem skip_eq (p : List UInt8) :
  skip 10 (skip 13 p) = Reader.dropBreak p
  := by
  rw [Reader.dropBreak, skip, skip]
  rcases p with _ | ⟨c, p⟩
  · rfl
  by_cases hcr : c = 13
  · subst hcr
    rcases p with _ | ⟨d, p⟩
    · rfl
    by_cases hlf : d = 10
    · subst hlf
      rfl
    · simp [hlf, Ne.symm hlf]
  · by_cases hlf : c = 10
    · subst hlf
      rfl
    · simp [hcr, hlf, Ne.symm hcr, Ne.symm hlf]

theorem rowTexts_zero (rows : Nat → Nat → UInt8) :
  rowTexts rows 0 = []
  := rfl

theorem rowTexts_update (rows : Nat → Nat → UInt8) (k : Nat) {row : Nat → UInt8}
    (hrow : Shift.entries row (n + 1) = t ++ [0]) (hn : n < maxCols) (ht : ∀ c ∈ t, c ≠ 0) :
  rowTexts (Function.update rows k row) (k + 1) = rowTexts rows k ++ [t]
  := by
  rw [rowTexts, Shift.entries_succ, Function.update_self, text_eq hrow hn, ofBytes_of_ne_zero ht]
  congr 1
  apply Shift.entries_congr
  intro i hi
  rw [Function.update_of_ne (by omega)]

theorem RowsEnd.none (rows : Nat → Nat → UInt8) :
  RowsEnd rows 0
  := by
  intro i hi
  omega

theorem RowsEnd.update {rows : Nat → Nat → UInt8} {k : Nat} (h : RowsEnd rows k) {row : Nat → UInt8}
    (hrow : row n = 0) (hn : n < maxCols) :
  RowsEnd (Function.update rows k row) (k + 1)
  := by
  intro i hi
  by_cases hik : i = k
  · subst hik
    rw [Function.update_self]
    exact ⟨n, hn, hrow⟩
  · rw [Function.update_of_ne hik]
    apply h
    omega

theorem rowsOf_length_ne_zero (n : Nat) (h : t ≠ []) :
  (Reader.rowsOf (n + 1) t).length ≠ 0
  := by
  rw [Reader.rowsOf, if_neg h]
  exact Nat.succ_ne_zero _

/-- The loop adds the rows of the text to the table. -/
theorem rowsLoop_eq (n : Nat) {p : List UInt8} (hp : ∀ c ∈ p, c ≠ 0) {rows : Nat → Nat → UInt8} {k : Nat}
    (hend : RowsEnd rows k) :
  rowTexts (rowsLoop n p rows k).1 (rowsLoop n p rows k).2 = rowTexts rows k ++ Reader.rowsOf n p
    ∧ RowsEnd (rowsLoop n p rows k).1 (rowsLoop n p rows k).2
    ∧ (rowsLoop n p rows k).2 ≤ k + n
  := by
  induction n generalizing p rows k with
  | zero =>
      rw [rowsLoop, Reader.rowsOf, List.append_nil]
      exact ⟨rfl, hend, Nat.le_refl _⟩
  | succ n ih =>
      rw [rowsLoop, Reader.rowsOf]
      split_ifs with hempty
      · rw [List.append_nil]
        exact ⟨rfl, hend, Nat.le_add_right _ _⟩
      · obtain ⟨hlen, hrest, hrow⟩ := rowLoop_eq p 0 (rows k)
        generalize rowLoop p 0 (rows k) = result at hlen hrest hrow
        obtain ⟨row, col, rest⟩ := result
        change col = 0 + (Reader.firstRow p).length at hlen
        change rest = p.drop (Reader.firstRow p).length at hrest
        change Shift.entries row col = [] ++ Reader.firstRow p at hrow
        subst hrest
        have hcol : col < maxCols := by
          have hle := Reader.length_firstRow_le p
          have hpos : 0 < maxCols := by decide
          omega
        have hnul := entries_nul hrow
        have htext : ∀ c ∈ Reader.firstRow p, c ≠ 0 := fun c hc => hp c (Reader.firstRow_subset p hc)
        have hrestne : ∀ c ∈ Reader.dropBreak (p.drop (Reader.firstRow p).length), c ≠ 0 := by
          intro c hc
          exact hp c (((Reader.dropBreak_suffix _).trans (List.drop_suffix _ _)).subset hc)
        obtain ⟨hrows, hrowsEnd, hle⟩ := ih hrestne (hend.update (exists_nul hnul) hcol)
        simp only [skip_eq]
        rw [hrows, rowTexts_update rows k hnul hcol htext, List.append_assoc]
        refine ⟨rfl, hrowsEnd, ?_⟩
        omega

/-- The table has the rows of the text that the buffer has, and nothing else changes. -/
theorem parseResponseLines_eq (w : FetchWindow) :
  ∃ rows numRows, w.parseResponseLines = { w with rows := rows, numRows := numRows, scrollY := 0 }
    ∧ rowTexts rows numRows = Reader.pageRows (text w.response maxRespSize)
    ∧ RowsEnd rows numRows ∧ numRows ≤ maxRows
  := by
  obtain ⟨hrows, hend, hle⟩ := rowsLoop_eq maxRows (text w.response maxRespSize).ne_zero (.none w.rows)
  rw [parseResponseLines, Reader.pageRows]
  generalize rowsLoop maxRows (text w.response maxRespSize).bytes w.rows 0 = result at hrows hend hle
  obtain ⟨rows, numRows⟩ := result
  rw [rowTexts_zero, List.nil_append] at hrows
  have hlen : numRows = (Reader.rowsOf maxRows (text w.response maxRespSize).bytes).length := by
    rw [← hrows, rowTexts, Shift.length_entries]
  by_cases hempty : (text w.response maxRespSize).bytes = []
  · rw [hempty] at hlen
    have hzero : numRows = 0 := hlen
    have hnul : Shift.entries (Function.update (rows 0) 0 0) (0 + 1) = [] ++ [0] :=
      entries_nul rfl
    have hpos : 0 < maxCols := by decide
    simp only [if_pos hempty, if_pos hzero]
    refine ⟨_, 1, rfl, ?_, (RowsEnd.none rows).update (exists_nul hnul) hpos, by decide⟩
    apply rowTexts_update rows 0 hnul hpos
    simp
  · have hne : numRows ≠ 0 := by
      rw [hlen]
      exact rowsOf_length_ne_zero 999 hempty
    simp only [if_neg hempty, if_neg hne]
    exact ⟨rows, numRows, rfl, hrows, hend, by omega⟩

/-- The rows of the table are those of the text, all of them unless the table is full, and each of
them ends with a NUL.  An empty text has one row. -/
theorem parseResponseLines_laid (w : FetchWindow) :
  RowsEnd w.parseResponseLines.rows w.parseResponseLines.numRows
    ∧ ((text w.response maxRespSize).bytes = [] →
      rowTexts w.parseResponseLines.rows w.parseResponseLines.numRows = [[]])
    ∧ ((text w.response maxRespSize).bytes ≠ [] → ∃ rest,
      Reader.Laid (text w.response maxRespSize).bytes
        (rowTexts w.parseResponseLines.rows w.parseResponseLines.numRows) rest
      ∧ (rest = [] ∨ w.parseResponseLines.numRows = maxRows))
  := by
  obtain ⟨rows, numRows, heq, hrows, hend, hle⟩ := parseResponseLines_eq w
  rw [heq]
  use hend
  rw [Reader.pageRows] at hrows
  constructor
  · intro hempty
    rw [if_pos hempty] at hrows
    exact hrows
  · intro hne
    rw [if_neg hne] at hrows
    obtain ⟨rest, hlaid, hcount⟩ := Reader.laid_rowsOf maxRows (text w.response maxRespSize).bytes
    rw [← hrows] at hlaid hcount
    refine ⟨rest, hlaid, hcount.imp_right ?_⟩
    intro hlen
    rwa [rowTexts, Shift.length_entries] at hlen

/-! ### The page -/

theorem entries_buffer (a : Answer) (response : Nat → UInt8) :
  Shift.entries (a.buffer response) (a.body.length + 1) = a.body ++ [0]
  := by
  have hlen : a.body.length + 1 = 0 + (a.body ++ [0]).length := by
    rw [List.length_append, Nat.zero_add]
    rfl
  rw [hlen, Answer.buffer, Shift.entries_copy]
  rfl

theorem text_buffer (a : Answer) (response : Nat → UInt8) :
  text (a.buffer response) maxRespSize = .ofBytes a.body
  := by
  have hlt := a.body_lt
  apply text_eq (entries_buffer a response)
  omega

/-- The last byte of the buffer is not written. -/
theorem buffer_last (a : Answer) (response : Nat → UInt8) :
  a.buffer response (maxRespSize - 1) = response (maxRespSize - 1)
  := by
  rw [Answer.buffer, Shift.copy_outside, if_neg (Nat.lt_irrefl _)]
  right
  rw [List.length_append, Nat.zero_add]
  exact a.body_lt

variable {a : Answer}

theorem Shows.length_url (h : Shows w r) :
  w.urlLen = r.url.length
  := by
  have hlen := congrArg List.length h.url
  rw [Shift.length_entries, List.length_append] at hlen
  exact Nat.add_right_cancel hlen

theorem Shows.respLen_eq (h : Shows w r) :
  w.respLen = r.received.length
  := by
  rw [← h.response, Shift.length_entries]

theorem Shows.numRows_eq (h : Shows w r) :
  w.numRows = r.rows.length
  := by
  rw [← h.rows, rowTexts, Shift.length_entries]

theorem Shows.maxScroll_eq (h : Shows w r) :
  maxScroll w.numRows (visibleRows w.winH) = r.maxScroll
  := by
  rw [Reader.maxScroll, h.numRows_eq, h.winH]

/-- The request has the whole URL. -/
theorem Shows.request (h : Shows w r) :
  (text w.url urlSize).bytes = r.url
  := by
  have hle := h.urlLen_le
  have hlt : w.urlLen < urlSize := Nat.lt_of_le_of_lt hle (by decide)
  rw [text_eq h.url hlt, ofBytes_of_ne_zero]
  rintro c hc rfl
  exact absurd (h.printable 0 hc).1 (by decide)

theorem Shows.setStatus (h : Shows w r) (msg : CString) :
  Shows (w.setStatus msg) (r.say msg)
  := { h with status := rfl }

/-- A page that has come. -/
theorem Shows.parse (h : Shows w r) (response : Nat → UInt8) (respLen : Nat)
    (hlt : respLen < maxRespSize) (hlast : response (maxRespSize - 1) = 0) :
  Shows { w with response := response, respLen := respLen }.parseResponseLines
    { r with
      received := Shift.entries response respLen
      rows := Reader.pageRows (text response maxRespSize)
      scrollY := 0 }
  := by
  obtain ⟨rows, numRows, heq, hrows, hend, hle⟩ :=
    parseResponseLines_eq { w with response := response, respLen := respLen }
  change _ = Reader.pageRows (text response maxRespSize) at hrows
  rw [heq]
  generalize Reader.pageRows (text response maxRespSize) = shown at hrows
  exact { h with
    response := rfl
    respLen_lt := hlt
    terminated := hlast
    rows := hrows
    numRows_le := hle
    rowsEnd := hend
    scrollY := rfl }

/-- A request. -/
theorem Shows.doFetch (h : Shows w r) (a : Answer) :
  Shows (w.doFetch a).1 (r.request a).1 ∧ (w.doFetch a).2 = (r.request a).2
  := by
  rw [FetchWindow.doFetch, Reader.request, h.length_url]
  by_cases hempty : r.url = []
  · rw [if_pos hempty, if_pos (by rw [hempty]; rfl)]
    exact ⟨h.setStatus _, rfl⟩
  · have hpos : r.url.length ≠ 0 := by simpa using hempty
    have hlast := (buffer_last a w.response).trans h.terminated
    have hconnecting := h.setStatus (.ofBytes (bytes "Connecting and fetching data..."))
    have hrequest : [Effect.fetch (text w.url urlSize).bytes] = [.fetch r.url] := by
      rw [h.request]
    rw [if_neg hempty, if_neg hpos]
    by_cases hfailed : a.res < 0
    · have hzero : Function.update (a.buffer w.response) 0 0 (maxRespSize - 1) = 0 := by
        rw [Function.update_of_ne (by decide), hlast]
      have hnone : text (Function.update (a.buffer w.response) 0 0) maxRespSize = .ofBytes [] :=
        text_eq (entries_nul rfl) (by decide)
      have hparse := hconnecting.parse _ 0 (by decide) hzero
      rw [hnone] at hparse
      simp only [if_pos hfailed, text_buffer]
      exact ⟨hparse.setStatus _, hrequest⟩
    · have hres := a.res_eq (by omega)
      have hlen : a.res.toNat = a.body.length := by omega
      have hlt : a.body.length < maxRespSize := by
        have hbody := a.body_lt
        omega
      have hbody : Shift.entries (a.buffer w.response) a.body.length = a.body := by
        have hall := entries_buffer a w.response
        rw [Shift.entries_succ] at hall
        exact List.append_inj_left' hall rfl
      have hparse := hconnecting.parse _ a.body.length hlt hlast
      rw [text_buffer, hbody] at hparse
      simp only [if_neg hfailed, hlen]
      exact ⟨hparse.setStatus _, hrequest⟩

/-- A page is written to a file. -/
theorem Shows.doSave (h : Shows w r) (handle : Int) :
  Shows (w.doSave handle).1 (r.save handle).1 ∧ (w.doSave handle).2 = (r.save handle).2
  := by
  rw [FetchWindow.doSave, Reader.save, h.respLen_eq]
  by_cases hempty : r.received = []
  · rw [if_pos hempty, if_pos (by rw [hempty]; rfl)]
    exact ⟨h.setStatus _, rfl⟩
  · have hpos : r.received.length ≠ 0 := by simpa using hempty
    rw [if_neg hempty, if_neg hpos]
    split_ifs
    · rw [← h.respLen_eq, h.response]
      exact ⟨h.setStatus _, rfl⟩
    · exact ⟨h.setStatus _, rfl⟩

/-- The page is forgotten. -/
theorem Shows.doClear (h : Shows w r) :
  Shows w.doClear r.clear
  := by
  have hlast : Function.update w.response 0 0 (maxRespSize - 1) = 0 := by
    rw [Function.update_of_ne (by decide), h.terminated]
  have hpos : 0 < maxRespSize := by decide
  exact { h with
    response := rfl
    respLen_lt := hpos
    terminated := hlast
    rows := rfl
    numRows_le := Nat.zero_le _
    rowsEnd := .none w.rows
    scrollY := rfl
    status := rfl }

/-! ### The URL -/

/-- Another text in the buffer, with a cursor in it. -/
theorem Shows.edit (h : Shows w r) {url : Nat → UInt8} {urlLen : Nat} {before after : List UInt8}
    (hurl : Shift.entries url (urlLen + 1) = before ++ after ++ [0]) (hle : urlLen ≤ urlSize - 2)
    (hprintable : ∀ c ∈ before ++ after, 32 ≤ c ∧ c ≤ 126) :
  Shows { w with url := url, urlLen := urlLen, cursorPos := before.length }
    { r with before := before, after := after }
  := { h with url := hurl, urlLen_le := hle, printable := hprintable, cursor := rfl }

/-- The cursor moves. -/
theorem Shows.moveTo (h : Shows w r) {pos n : Nat} (hpos : pos = min n r.url.length) :
  Shows { w with cursorPos := pos } (r.moveTo n)
  := by
  have htext : r.url.take n ++ r.url.drop n = r.url := List.take_append_drop n r.url
  rw [hpos, ← List.length_take]
  apply h.edit
  · rw [htext, h.url]
  · exact h.urlLen_le
  · rw [htext]
    exact h.printable

theorem Shows.cursor_le (h : Shows w r) :
  w.cursorPos ≤ w.urlLen
  := by
  rw [h.cursor, h.length_url, Reader.url, List.length_append]
  omega

/-- Closing a gap takes a character away. -/
theorem Shows.erase (h : Shows w r) {before after : List UInt8} {c : UInt8}
    (hurl : r.url = before ++ [c] ++ after) :
  Shows { w with
      url := Shift.closeGap w.url before.length 1 w.urlLen
      urlLen := w.urlLen - 1
      cursorPos := before.length }
    { r with before := before, after := after }
  := by
  have hlen := h.length_url
  have hle := h.urlLen_le
  have hentries := h.url
  rw [hurl, List.length_append, List.length_append, List.length_singleton] at hlen
  rw [hurl, List.append_assoc _ after] at hentries
  have hwhole : (before ++ [c] ++ (after ++ [0])).length = w.urlLen + 1 := by
    rw [← hentries, Shift.length_entries]
  have hclosed := Shift.entries_closeGap (List.cons_ne_nil c []) hwhole hentries
  have hcount : (before ++ (after ++ [0])).length = w.urlLen - 1 + 1 := by
    rw [List.length_append, List.length_append, List.length_singleton]
    omega
  rw [hcount, ← List.append_assoc] at hclosed
  apply h.edit hclosed (by omega)
  intro b hb
  apply h.printable
  rw [hurl]
  simp only [List.mem_append] at hb ⊢
  exact hb.imp_left .inl

/-- Backspace takes the character in front of the cursor. -/
theorem Shows.backspace (h : Shows w r) :
  Shows w.backspace { r with before := r.before.dropLast }
  := by
  rw [FetchWindow.backspace]
  rcases List.eq_nil_or_concat r.before with hnil | ⟨before, c, hconcat⟩
  · have hzero : ¬ w.cursorPos > 0 := by
      rw [h.cursor, hnil]
      exact Nat.lt_irrefl 0
    have hsame : { r with before := r.before.dropLast } = r := by
      rw [hnil]
      exact congrArg (fun before => { r with before := before }) hnil.symm
    rw [if_neg hzero, hsame]
    exact h
  · rw [List.concat_eq_append] at hconcat
    have hcursor : w.cursorPos = before.length + 1 := by
      rw [h.cursor, hconcat, List.length_append, List.length_singleton]
    have hurl : r.url = before ++ [c] ++ r.after := by rw [Reader.url, hconcat]
    rw [if_pos (by omega), hconcat, List.dropLast_concat, hcursor, Nat.add_sub_cancel]
    exact h.erase hurl

/-- Delete takes the character behind the cursor. -/
theorem Shows.delete (h : Shows w r) :
  Shows w.delete { r with after := r.after.tail }
  := by
  have hlen := h.length_url
  rw [FetchWindow.delete, h.cursor]
  rw [Reader.url, List.length_append] at hlen
  cases hafter : r.after with
  | nil =>
      rw [hafter, List.length_nil] at hlen
      rw [if_neg (by omega), List.tail_nil, ← hafter]
      exact h
  | cons c after =>
      rw [hafter, List.length_cons] at hlen
      have hurl : r.url = r.before ++ [c] ++ after := by
        rw [Reader.url, hafter, List.append_assoc]
        rfl
      rw [if_pos (by omega), List.tail_cons, ← h.cursor]
      have herase := h.erase hurl
      rw [← h.cursor] at herase
      exact herase

/-- A character that is typed. -/
theorem Shows.insert (h : Shows w r) {c : UInt8} (hc : 32 ≤ c ∧ c ≤ 126) :
  Shows (w.insert c) (r.type c)
  := by
  rw [FetchWindow.insert, Reader.type, h.length_url]
  split_ifs with hroom
  · have hentries := h.url
    rw [Reader.url, List.append_assoc] at hentries
    have hwhole : (r.before ++ (r.after ++ [0])).length = w.urlLen + 1 := by
      rw [← hentries, Shift.length_entries]
    have hopened := Shift.entries_openGap [c] hwhole hentries
    have hcount : (r.before ++ [c] ++ (r.after ++ [0])).length = r.url.length + 1 + 1 := by
      rw [← h.length_url, List.append_assoc, List.length_append, List.length_append, List.length_singleton]
      rw [List.length_append] at hwhole
      omega
    rw [hcount, ← List.append_assoc] at hopened
    have hedit := h.edit hopened (by omega) (by
      intro b hb
      rw [List.append_assoc, List.mem_append, List.mem_append, List.mem_singleton] at hb
      rcases hb with hb | rfl | hb
      · exact h.printable b (List.mem_append_left _ hb)
      · exact hc
      · exact h.printable b (List.mem_append_right _ hb))
    rw [List.length_append, ← h.cursor, ← h.length_url] at hedit
    rw [← h.length_url]
    exact hedit
  · exact h

/-! ### Pictures -/

theorem maxChars_bounds (winW : Int) :
  1 ≤ maxChars winW ∧ maxChars winW * charW ≤ inputW winW - 12
  := by
  have hwide : 140 ≤ inputW winW := by
    simp only [inputW]
    omega
  have hdiv : (inputW winW - 12).tdiv 8 = (inputW winW - 12) / 8 :=
    Int.tdiv_eq_ediv_of_nonneg (by omega)
  simp only [maxChars, charW, hdiv]
  omega

/-- The cursor is in the part of the URL that is shown. -/
theorem Reader.reveal_bounds (r : Reader) :
  r.reveal ≤ r.before.length ∧ r.before.length < r.reveal + r.width
  := by
  have hpos := (maxChars_bounds r.winW).1
  rw [Reader.reveal, Reader.width]
  split_ifs
  · omega
  · omega
  · omega

theorem Shows.shownFrom_eq (h : Shows w r) :
  shownFrom w.scrollX w.cursorPos (maxChars w.winW) = r.reveal
  := by
  have hpos := (maxChars_bounds r.winW).1
  rw [shownFrom, Reader.reveal, Reader.width, h.winW, h.cursor, h.offset]
  split_ifs
  all_goals omega

/-- The part of the URL that is shown. -/
theorem Shows.shownUrl (h : Shows w r) {k x : Nat} (hk : x + k ≤ w.urlLen) :
  (CString.ofBytes (Shift.entries (fun i => w.url (x + i)) k)).bytes = (r.url.drop x).take k
  := by
  have hwhole : Shift.entries w.url w.urlLen = r.url := by
    have hurl := h.url
    rw [Shift.entries_succ] at hurl
    exact List.append_inj_left' hurl rfl
  have hlen : w.urlLen = x + k + (w.urlLen - (x + k)) := by omega
  rw [hlen, Shift.entries_add, Shift.entries_add, List.append_assoc] at hwhole
  have hpart : Shift.entries (fun i => w.url (x + i)) k = (r.url.drop x).take k := by
    rw [← hwhole, List.drop_left' (Shift.length_entries _ _), List.take_left' (Shift.length_entries _ _)]
  rw [ofBytes_of_ne_zero, hpart]
  rw [hpart]
  rintro c hc rfl
  exact absurd (h.printable 0 ((List.drop_sublist _ _).subset ((List.take_sublist _ _).subset hc))).1
    (by decide)

/-- The place of the cursor, which is always within the box. -/
theorem cursorX_eq (r : Reader) :
  cursorX r.winW r.focus (r.before.length - r.reveal)
    = if r.focus then some (inputX + 6 + (r.before.length - r.reveal : Nat) * charW) else none
  := by
  obtain ⟨hpos, hfit⟩ := maxChars_bounds r.winW
  obtain ⟨hle, hlt⟩ := r.reveal_bounds
  have hcast : ((r.before.length - r.reveal : Nat) : Int) = r.before.length - r.reveal := by omega
  rw [Reader.width] at hlt
  rw [charW] at hfit
  simp only [cursorX, hcast, inputX, charW]
  have hinside : (48 : Int) + 6 + (r.before.length - r.reveal) * 8 ≥ 48 + 4
      ∧ (48 : Int) + 6 + (r.before.length - r.reveal) * 8 ≤ 48 + inputW r.winW - 4 := by
    omega
  simp only [hinside, and_true]

theorem clampedScroll_nonneg (scrollY maxScroll : Int) :
  0 ≤ clampedScroll scrollY maxScroll
  := by
  simp only [clampedScroll]
  split_ifs
  all_goals omega

/-- The rows that are shown. -/
theorem shownRows_eq (rows : Nat → Nat → UInt8) (numRows : Nat) {scrollY : Int} (hnonneg : 0 ≤ scrollY)
    (n i : Nat) :
  shownRows rows numRows scrollY n i
    = (((rowTexts rows numRows).drop (scrollY.toNat + i)).take n).mapIdx (fun j row => (rowY (i + j), row))
  := by
  induction n generalizing i with
  | zero => rfl
  | succ n ih =>
      have hlen : (rowTexts rows numRows).length = numRows := Shift.length_entries _ _
      simp only [shownRows]
      split_ifs with hlast
      · rw [List.drop_eq_nil_of_le (by omega)]
        rfl
      · have hlt : scrollY.toNat + i < (rowTexts rows numRows).length := by omega
        have hidx : (scrollY + i).toNat = scrollY.toNat + i := by omega
        rw [List.drop_eq_getElem_cons hlt, List.take_succ_cons, List.mapIdx_cons, ih, hidx]
        congr 1
        · rw [Nat.add_zero]
          simp [rowTexts]
        · congr 1
          funext j row
          rw [Nat.add_right_comm, Nat.add_assoc]

/-- A drawing. -/
theorem Shows.draw (h : Shows w r) :
  Shows w.drawUi.1 r.draw.1 ∧ [Effect.blit w.drawUi.2] = r.draw.2
  := by
  have hscroll : clampedScroll w.scrollY (maxScroll w.numRows (visibleRows w.winH))
      = clampedScroll r.scrollY r.maxScroll := by
    rw [h.maxScroll_eq, h.scrollY]
  have hoffset := h.shownFrom_eq
  refine ⟨{ h with offset := hoffset, scrollY := hscroll }, ?_⟩
  obtain ⟨hreveal, hcursor⟩ := r.reveal_bounds
  have hpos := (maxChars_bounds r.winW).1
  have hle := h.cursor_le
  have hlen := h.length_url
  rw [h.cursor] at hle
  simp only [drawUi, Reader.draw, hoffset, hscroll, List.cons.injEq, Effect.blit.injEq, Picture.mk.injEq,
    and_true]
  refine ⟨?_, ?_, ?_, ?_⟩
  case refine_1 =>
    have hcount : (if (if (w.urlLen : Int) - r.reveal > maxChars w.winW then maxChars w.winW
          else w.urlLen - r.reveal) < 0 then 0
        else if (w.urlLen : Int) - r.reveal > maxChars w.winW then maxChars w.winW
          else w.urlLen - r.reveal).toNat
        = min (w.urlLen - r.reveal) r.width := by
      rw [Reader.width, h.winW]
      omega
    rw [hcount, h.shownUrl (by omega), List.take_eq_take_iff, List.length_drop]
    omega
  case refine_2 =>
    rw [h.winW, h.focus, h.cursor, cursorX_eq]
  case refine_3 =>
    have hempty : w.numRows = 0 ↔ r.rows = [] := by rw [h.numRows_eq, List.length_eq_zero_iff]
    rw [shownRows_eq w.rows w.numRows (clampedScroll_nonneg _ _), h.rows, h.winH, Nat.add_zero]
    simp only [hempty, Nat.zero_add]
  case refine_4 => rw [h.status]

/-! ### Messages -/

theorem printable_of_key {ascii scancode : Int} {c : UInt8} (h : keyOf ascii scancode = .printable c) :
  32 ≤ c ∧ c ≤ 126
  := by
  simp only [keyOf] at h
  split_ifs at h with h₁ h₂ h₃ h₄ h₅ h₆ h₇ hrange
  cases h
  rw [UInt8.le_iff_toNat_le, UInt8.le_iff_toNat_le, UInt8.toNat_ofNat']
  change 32 ≤ _ ∧ _ ≤ 126
  omega

/-- A key that scrolls the rows. -/
theorem Shows.scrollByKey (h : Shows w r) (scancode : Int) :
  Shows (w.scrollByKey scancode) (r.scrollKey scancode)
  := by
  have hscroll : scrolledByKey scancode w.scrollY (visibleRows w.winH)
      (maxScroll w.numRows (visibleRows w.winH))
        = scrolledByKey scancode r.scrollY (visibleRows r.winH) r.maxScroll := by
    rw [h.maxScroll_eq, h.scrollY, h.winH]
  exact { h with scrollY := hscroll }

/-- A key. -/
theorem Shows.handleKey (h : Shows w r) (ascii scancode : Int) (a : Answer) :
  Shows (w.handleKey ascii scancode a).1 (r.key ascii scancode a).1
    ∧ (w.handleKey ascii scancode a).2 = (r.key ascii scancode a).2
  := by
  rw [FetchWindow.handleKey, Reader.key]
  by_cases hfocus : w.urlFocus = true
  · have hreader : r.focus = true := by rw [← h.focus, hfocus]
    rw [if_pos hfocus, if_pos hreader]
    have hcursor := h.cursor
    have hlen := h.length_url
    have hle := h.cursor_le
    cases hkey : keyOf ascii scancode with
    | enter =>
        have hout : Shows { w with urlFocus := false } { r with focus := false } :=
          { h with focus := rfl }
        exact hout.doFetch a
    | backspace => exact ⟨h.backspace, rfl⟩
    | delete => exact ⟨h.delete, rfl⟩
    | left =>
        refine ⟨?_, rfl⟩
        simp only
        split_ifs
        · exact h.moveTo (by omega)
        · have hzero : w.cursorPos = min (r.before.length - 1) r.url.length := by omega
          exact h.moveTo hzero
    | right =>
        refine ⟨?_, rfl⟩
        simp only
        split_ifs
        · exact h.moveTo (by omega)
        · have hlast : w.cursorPos = min (r.before.length + 1) r.url.length := by omega
          exact h.moveTo hlast
    | home => exact ⟨h.moveTo (Nat.zero_min _).symm, rfl⟩
    | endKey =>
        refine ⟨h.moveTo ?_, rfl⟩
        rw [hlen, Nat.min_self]
    | printable c => exact ⟨h.insert (printable_of_key hkey), rfl⟩
    | other => exact ⟨h.scrollByKey scancode, rfl⟩
  · have hreader : ¬ r.focus = true := by rwa [← h.focus]
    rw [if_neg hfocus, if_neg hreader]
    exact ⟨h.scrollByKey scancode, rfl⟩

theorem clickedPos_le (scrollX urlLen : Nat) (col : Int) :
  clickedPos scrollX urlLen col ≤ urlLen
  := by
  simp only [clickedPos]
  split_ifs
  all_goals omega

/-- A click. -/
theorem Shows.handleClick (h : Shows w r) (x y : Int) (a : Answer) (handle : Int) :
  Shows (w.handleClick x y a handle).1 (r.click x y a handle).1
    ∧ (w.handleClick x y a handle).2 = (r.click x y a handle).2
  := by
  have htarget : targetOf w.winW w.winH x y = targetOf r.winW r.winH x y := by rw [h.winW, h.winH]
  rw [FetchWindow.handleClick, Reader.click, htarget]
  cases targetOf r.winW r.winH x y with
  | input col =>
      have hpos : clickedPos w.scrollX w.urlLen col
          = min (clickedPos r.offset r.url.length col) r.url.length := by
        rw [h.offset, h.length_url, Nat.min_eq_left (clickedPos_le _ _ _)]
      exact ⟨{ h.moveTo hpos with focus := rfl }, rfl⟩
  | fetch =>
      have hout : Shows { w with urlFocus := false } { r with focus := false } :=
        { h with focus := rfl }
      exact hout.doFetch a
  | save => exact h.doSave handle
  | clear => exact ⟨h.doClear, rfl⟩
  | up =>
      have hscroll : scrolledUp w.scrollY = scrolledUp r.scrollY := by rw [h.scrollY]
      exact ⟨{ h with scrollY := hscroll }, rfl⟩
  | down =>
      have hscroll : scrolledDown w.scrollY (maxScroll w.numRows (visibleRows w.winH))
          = scrolledDown r.scrollY r.maxScroll := by
        rw [h.scrollY, h.maxScroll_eq]
      exact ⟨{ h with scrollY := hscroll }, rfl⟩
  | content => exact ⟨{ h with focus := rfl }, rfl⟩
  | nothing => exact ⟨h, rfl⟩

/-- Every message and every drawing does to the window what it does to the reader. -/
theorem simulates :
  FetchWindow.loop.Simulates Reader.loop Shows
  where
  handle_none := by
    intro w r input h
    change FetchWindow.handle w input = none ↔ Reader.handle r input = none
    rw [FetchWindow.handle, Reader.handle]
    cases input.message with
    | resize newW newH =>
        by_cases hpos : newW > 0 ∧ newH > 0
        · simp [hpos]
        · simp [hpos]
    | _ => simp
  handle_some := by
    intro w r input w' es b r' es' b' h hw hr
    change FetchWindow.handle w input = _ at hw
    change Reader.handle r input = _ at hr
    rw [FetchWindow.handle] at hw
    rw [Reader.handle] at hr
    cases hmessage : input.message with
    | close =>
        rw [hmessage] at hw
        cases hw
    | resize newW newH =>
        rw [hmessage] at hw hr
        by_cases hpos : newW > 0 ∧ newH > 0
        · simp only [if_pos hpos, Option.some.injEq, Prod.mk.injEq] at hw hr
          obtain ⟨rfl, rfl, rfl⟩ := hw
          obtain ⟨rfl, rfl, rfl⟩ := hr
          exact ⟨{ h with winW := rfl, winH := rfl }, rfl, rfl⟩
        · simp only [if_neg hpos, Option.some.injEq, Prod.mk.injEq] at hw hr
          obtain ⟨rfl, rfl, rfl⟩ := hw
          obtain ⟨rfl, rfl, rfl⟩ := hr
          exact ⟨h, rfl, rfl⟩
    | click x y =>
        rw [hmessage] at hw hr
        simp only [Option.some.injEq, Prod.mk.injEq] at hw hr
        obtain ⟨rfl, rfl, rfl⟩ := hw
        obtain ⟨rfl, rfl, rfl⟩ := hr
        obtain ⟨hclick, heffects⟩ := h.handleClick x y input.answer input.handle
        exact ⟨hclick, heffects, rfl⟩
    | keyDown ascii scancode =>
        rw [hmessage] at hw hr
        simp only [Option.some.injEq, Prod.mk.injEq] at hw hr
        obtain ⟨rfl, rfl, rfl⟩ := hw
        obtain ⟨rfl, rfl, rfl⟩ := hr
        obtain ⟨hkey, heffects⟩ := h.handleKey ascii scancode input.answer
        exact ⟨hkey, heffects, rfl⟩
    | scroll dz =>
        rw [hmessage] at hw hr
        simp only [Option.some.injEq, Prod.mk.injEq] at hw hr
        obtain ⟨rfl, rfl, rfl⟩ := hw
        obtain ⟨rfl, rfl, rfl⟩ := hr
        have hscroll : scrolledByWheel w.scrollY dz (maxScroll w.numRows ((w.winH - 110).tdiv 16))
            = scrolledByWheel r.scrollY dz (maxScroll r.rows.length ((r.winH - 110).tdiv 16)) := by
          rw [h.scrollY, h.numRows_eq, h.winH]
        exact ⟨{ h with scrollY := hscroll }, rfl, rfl⟩
    | other =>
        rw [hmessage] at hw hr
        simp only [Option.some.injEq, Prod.mk.injEq] at hw hr
        obtain ⟨rfl, rfl, rfl⟩ := hw
        obtain ⟨rfl, rfl, rfl⟩ := hr
        exact ⟨h, rfl, rfl⟩
  draw := fun h => h.draw

theorem init_shows :
  Shows FetchWindow.init Reader.init
  where
  winW := rfl
  winH := rfl
  url := by decide +kernel
  urlLen_le := by decide
  printable := by decide +kernel
  cursor := by decide +kernel
  offset := rfl
  focus := rfl
  response := rfl
  respLen_lt := by decide
  terminated := rfl
  rows := rfl
  numRows_le := by decide
  rowsEnd := .none _
  scrollY := rfl
  status := rfl

/-- For all messages, answers of the network and results of opening the file, the program has the
effects of a reader, and ends with what the reader has in its buffers. -/
theorem run_shows (batches : List (List Input)) :
  Shows (loop.run init batches).1 (Reader.loop.run Reader.init batches).1
    ∧ (loop.run init batches).2 = (Reader.loop.run Reader.init batches).2
  := simulates.run init_shows batches

end FetchWindow
