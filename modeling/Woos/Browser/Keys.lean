import Woos.Text.Characters

/-!
# The keys of the browser's text fields

`handle_key` edits the address bar and the fields of a page.  `key_keeps_iff` says which keys leave a text
in UTF-8 with the cursor between two characters: all of them in the fields of a page; in the address bar
those that do not meet a character of more than two bytes, where the deleting and the moving keys take
two bytes for it.
-/

namespace Browser

open Utf8

/-! ### The keys -/

/-- The address bar: `g_url`, `g_url_len` and `g_cursor_pos`. -/
structure UrlBar where
  url : Nat → UInt8
  urlLen : Nat
  cursorPos : Nat

/-- The text of a field of a page: `value` and `cursor_pos`. -/
structure PageInput where
  value : Nat → UInt8
  cursorPos : Nat

namespace UrlBar

/-- Backspace in the address bar. -/
def backspace (b : UrlBar) : UrlBar :=
  if 0 < b.cursorPos then
    let del := if 2 ≤ b.cursorPos ∧ IsCont (b.url (b.cursorPos - 1)) then 2 else 1
    { url := Shift.closeGap b.url (b.cursorPos - del) del b.urlLen
      urlLen := b.urlLen - del
      cursorPos := b.cursorPos - del }
  else b

/-- Delete in the address bar. -/
def delete (b : UrlBar) : UrlBar :=
  if b.cursorPos < b.urlLen then
    let del := if b.cursorPos + 1 < b.urlLen ∧ b.url b.cursorPos &&& 0xE0 = 0xC0 then 2 else 1
    { b with
      url := Shift.closeGap b.url b.cursorPos del b.urlLen
      urlLen := b.urlLen - del }
  else b

/-- The left arrow in the address bar. -/
def left (b : UrlBar) : UrlBar :=
  if 0 < b.cursorPos then
    let cursor := b.cursorPos - 1
    { b with cursorPos := if 0 < cursor ∧ IsCont (b.url cursor) then cursor - 1 else cursor }
  else b

/-- The right arrow in the address bar. -/
def right (b : UrlBar) : UrlBar :=
  if b.cursorPos < b.urlLen then
    let cursor := b.cursorPos + 1
    { b with cursorPos := if cursor < b.urlLen ∧ IsCont (b.url cursor) then cursor + 1 else cursor }
  else b

/-- Bytes are inserted at the cursor. -/
def insert (b : UrlBar) (bytes : List UInt8) : UrlBar where
  url := Shift.copy (Shift.openGap b.url b.cursorPos bytes.length b.urlLen) b.cursorPos bytes
  urlLen := b.urlLen + bytes.length
  cursorPos := b.cursorPos + bytes.length

/-- `handle_key` when the address bar has the focus; none when the key leaves it for the page. -/
def handleKey (b : UrlBar) (ascii scancode : Int) : Option UrlBar :=
  if ascii = 10 ∨ ascii = 13 ∨ scancode = 0x1C then none
  else if ascii = 8 ∨ scancode = 0x0E then some b.backspace
  else if scancode = 0x53 then some b.delete
  else if scancode = 0x4B then some b.left
  else if scancode = 0x4D then some b.right
  else if scancode = 0x47 then some { b with cursorPos := 0 }
  else if scancode = 0x4F then some { b with cursorPos := b.urlLen }
  else if 32 ≤ ascii ∧ ascii ≤ 126 ∧ b.urlLen + 1 < 512 - 2 then
    some (b.insert [UInt8.ofNat ascii.toNat])
  else if 0x0400 ≤ ascii ∧ ascii ≤ 0x04FF ∧ b.urlLen + 2 < 512 - 2 then
    some (b.insert (cyrillic ascii))
  else some b

end UrlBar

namespace PageInput

/-- `strlen(inp->value)` -/
def vlen (i : PageInput) : Nat := (CString.ofBytes (Shift.entries i.value 128)).length

/-- The loop with which Backspace measures a character. -/
def delBefore (value : Nat → UInt8) (cursor del : Nat) : Nat :=
  if 0 < cursor - del ∧ IsCont (value (cursor - del)) then delBefore value cursor (del + 1) else del
termination_by cursor - del

/-- The loop with which Delete measures a character. -/
def delAt (value : Nat → UInt8) (vlen cursor del : Nat) : Nat :=
  if cursor + del < vlen ∧ IsCont (value (cursor + del)) then delAt value vlen cursor (del + 1)
  else del
termination_by vlen - (cursor + del)

/-- The loop of the left arrow. -/
def backLoop (value : Nat → UInt8) : (cursor : Nat) → Nat
  | 0 => 0
  | cursor + 1 => if IsCont (value (cursor + 1)) then backLoop value cursor else cursor + 1

/-- The loop of the right arrow. -/
def forwardLoop (value : Nat → UInt8) (vlen cursor : Nat) : Nat :=
  if cursor < vlen ∧ IsCont (value cursor) then forwardLoop value vlen (cursor + 1) else cursor
termination_by vlen - cursor

/-- Backspace in a field of a page. -/
def backspace (i : PageInput) : PageInput :=
  if 0 < i.cursorPos then
    let del := delBefore i.value i.cursorPos 1
    { value := Shift.closeGap i.value (i.cursorPos - del) del i.vlen
      cursorPos := i.cursorPos - del }
  else i

/-- Delete in a field of a page. -/
def delete (i : PageInput) : PageInput :=
  if i.cursorPos < i.vlen then
    let del := delAt i.value i.vlen i.cursorPos 1
    { i with value := Shift.closeGap i.value i.cursorPos del i.vlen }
  else i

/-- Bytes are inserted at the cursor. -/
def insert (i : PageInput) (bytes : List UInt8) : PageInput where
  value := Shift.copy (Shift.openGap i.value i.cursorPos bytes.length i.vlen) i.cursorPos bytes
  cursorPos := i.cursorPos + bytes.length

/-- `handle_key` when a field of a page has the focus; none when the key submits the form. -/
def handleKey (i : PageInput) (ascii scancode : Int) : Option PageInput :=
  if ascii = 10 ∨ ascii = 13 ∨ scancode = 0x1C then none
  else if ascii = 8 ∨ scancode = 0x0E then some i.backspace
  else if scancode = 0x53 then some i.delete
  else if scancode = 0x4B ∧ 0 < i.cursorPos then
    some { i with cursorPos := backLoop i.value (i.cursorPos - 1) }
  else if scancode = 0x4D ∧ i.cursorPos < i.vlen then
    some { i with cursorPos := forwardLoop i.value i.vlen (i.cursorPos + 1) }
  else if scancode = 0x47 then some { i with cursorPos := 0 }
  else if scancode = 0x4F then some { i with cursorPos := i.vlen }
  else if 32 ≤ ascii ∧ ascii ≤ 126 ∧ i.vlen + 1 < 126 then
    some (i.insert [UInt8.ofNat ascii.toNat])
  else if 0x0400 ≤ ascii ∧ ascii ≤ 0x04FF ∧ i.vlen + 2 < 126 then
    some (i.insert (cyrillic ascii))
  else some i

end PageInput

/-! ### The fields -/

/-- A text field of the browser. -/
inductive Field where
  | bar (b : UrlBar)
  | page (i : PageInput)

namespace Field

/-- A key for the field that has the focus. -/
def handleKey : Field → (ascii scancode : Int) → Option Field
  | bar b, ascii, scancode => (b.handleKey ascii scancode).map bar
  | page i, ascii, scancode => (i.handleKey ascii scancode).map page

/-- The field holds the characters before and after its cursor, and has room for a NUL. -/
def Holds : Field → (before after : List Scalar) → Prop
  | bar b, before, after => b.urlLen < 512 ∧ Cursor b.url b.urlLen b.cursorPos before after
  | page i, before, after => i.vlen < 128 ∧ Cursor i.value i.vlen i.cursorPos before after

/-- The field holds a text in UTF-8, and its cursor lies between two characters. -/
def Valid (f : Field) : Prop := ∃ before after, f.Holds before after

/-- A character of one byte or two. -/
def Short (c : Scalar) : Prop := (code.word c).length ≤ 2

/-- In the address bar, Backspace and the left arrow fit when the character before the cursor is short,
and Delete and the right arrow when the character behind it is. -/
def Fits : Field → (before after : List Scalar) → (ascii scancode : Int) → Prop
  | page _, _, _, _, _ => True
  | bar _, before, after, ascii, scancode =>
      if ascii = 10 ∨ ascii = 13 ∨ scancode = 0x1C then True
      else if (ascii = 8 ∨ scancode = 0x0E) ∨ scancode = 0x4B then
        ∀ cs c, before = cs ++ [c] → Short c
      else if scancode = 0x53 ∨ scancode = 0x4D then ∀ c cs, after = c :: cs → Short c
      else True

end Field

open Browser.Field

/-! ### Long characters -/

section

variable {c : Scalar}

/-- How many bytes the keys of the address bar take for a character, by the byte that ends it. -/
def taken (c : Scalar) : Nat := if 2 ≤ (code.word c).length then 2 else 1

/-- How many bytes Delete takes for a character, by its lead byte. -/
def takenAt (c : Scalar) : Nat := if (code.word c).length = 2 then 2 else 1

theorem taken_of_short (h : Short c) :
  taken c = (code.word c).length ∧ takenAt c = (code.word c).length
  := by
  have hpos := code.length_word_pos c
  rw [Short] at h
  constructor
  · rw [taken]
    split
    · omega
    · omega
  · rw [takenAt]
    split
    · omega
    · omega

theorem taken_of_long (h : ¬ Short c) :
  taken c = 2 ∧ takenAt c = 1
  := by
  rw [Short, Nat.not_le] at h
  exact ⟨if_pos (Nat.le_of_lt h), if_neg (Nat.ne_of_gt h)⟩

end

/-! ### The address bar -/

namespace UrlBar

variable {b : UrlBar} {before after : List Scalar} {c : Scalar}

theorem backspace_eq (h : Cursor b.url b.urlLen b.cursorPos (before ++ [c]) after) :
  b.backspace = {
    url := Shift.closeGap b.url (b.cursorPos - taken c) (taken c) b.urlLen
    urlLen := b.urlLen - taken c
    cursorPos := b.cursorPos - taken c }
  := by
  have hpos : 0 < b.cursorPos := Nat.lt_of_lt_of_le (code.length_word_pos c) h.length_le_cursor
  rw [backspace, if_pos hpos]
  simp only [h.isCont_before_iff]
  rfl

theorem left_eq (h : Cursor b.url b.urlLen b.cursorPos (before ++ [c]) after) :
  b.left = { b with cursorPos := b.cursorPos - taken c }
  := by
  have hpos : 0 < b.cursorPos := Nat.lt_of_lt_of_le (code.length_word_pos c) h.length_le_cursor
  have hcond : 0 < b.cursorPos - 1 ∧ IsCont (b.url (b.cursorPos - 1)) ↔ 2 ≤ (code.word c).length := by
    rw [← h.isCont_before_iff]
    apply and_congr_left'
    omega
  rw [left, if_pos hpos]
  simp only [hcond, taken]
  split
  · rfl
  · rfl

theorem delete_eq (h : Cursor b.url b.urlLen b.cursorPos before (c :: after)) :
  b.delete = { b with
    url := Shift.closeGap b.url b.cursorPos (takenAt c) b.urlLen
    urlLen := b.urlLen - takenAt c }
  := by
  have hlt : b.cursorPos < b.urlLen :=
    Nat.lt_of_lt_of_le (Nat.lt_add_of_pos_right (code.length_word_pos c)) h.cursor_add_le
  rw [delete, if_pos hlt]
  simp only [h.lead_two_iff]
  rfl

theorem right_eq (h : Cursor b.url b.urlLen b.cursorPos before (c :: after)) :
  b.right = { b with cursorPos := b.cursorPos + taken c }
  := by
  have hlt : b.cursorPos < b.urlLen :=
    Nat.lt_of_lt_of_le (Nat.lt_add_of_pos_right (code.length_word_pos c)) h.cursor_add_le
  rw [right, if_pos hlt]
  simp only [h.isCont_after_iff, taken]
  split
  · rfl
  · rfl

/-- The characters in front of the cursor, from its last one. -/
theorem forall_before {P : Scalar → Prop} :
  (∀ cs d, before ++ [c] = cs ++ [d] → P d) ↔ P c
  := by
  constructor
  · exact fun hall => hall before c rfl
  · intro hc cs d hsame
    obtain ⟨-, hd⟩ := List.append_inj' hsame rfl
    rw [← List.singleton_inj.mp hd]
    exact hc

theorem forall_after {P : Scalar → Prop} :
  (∀ d cs, c :: after = d :: cs → P d) ↔ P c
  := by
  constructor
  · exact fun hall => hall c after rfl
  · intro hc d cs hsame
    rw [← (List.cons.inj hsame).1]
    exact hc

theorem backspace_iff (h : (bar b).Holds before after) :
  (bar b.backspace).Valid ↔ ∀ cs c, before = cs ++ [c] → Short c
  := by
  obtain ⟨hroom, hcursor⟩ := h
  rcases List.eq_nil_or_concat' before with rfl | ⟨cs, c, rfl⟩
  · have hstart : ¬ 0 < b.cursorPos := by
      rw [hcursor.cursor]
      exact Nat.lt_irrefl 0
    rw [backspace, if_neg hstart]
    constructor
    · intro _ cs c hnil
      exact absurd hnil.symm (List.append_ne_nil_of_right_ne_nil cs (List.cons_ne_nil c []))
    · exact fun _ => ⟨[], after, hroom, hcursor⟩
  · rw [forall_before, backspace_eq hcursor]
    constructor
    · rintro ⟨before', after', -, hcursor'⟩
      by_contra hlong
      rw [(taken_of_long hlong).1] at hcursor'
      exact hcursor.not_backspace Nat.two_pos (Nat.not_le.mp hlong) before' after' hcursor'
    · intro hshort
      rw [(taken_of_short hshort).1]
      exact ⟨cs, after, Nat.lt_of_le_of_lt (Nat.sub_le _ _) hroom, hcursor.backspace⟩

theorem left_iff (h : (bar b).Holds before after) :
  (bar b.left).Valid ↔ ∀ cs c, before = cs ++ [c] → Short c
  := by
  obtain ⟨hroom, hcursor⟩ := h
  rcases List.eq_nil_or_concat' before with rfl | ⟨cs, c, rfl⟩
  · have hstart : ¬ 0 < b.cursorPos := by
      rw [hcursor.cursor]
      exact Nat.lt_irrefl 0
    rw [left, if_neg hstart]
    constructor
    · intro _ cs c hnil
      exact absurd hnil.symm (List.append_ne_nil_of_right_ne_nil cs (List.cons_ne_nil c []))
    · exact fun _ => ⟨[], after, hroom, hcursor⟩
  · rw [forall_before, left_eq hcursor]
    constructor
    · rintro ⟨before', after', -, hcursor'⟩
      by_contra hlong
      rw [(taken_of_long hlong).1] at hcursor'
      exact hcursor.not_left Nat.two_pos (Nat.not_le.mp hlong) before' after' hcursor'
    · intro hshort
      rw [(taken_of_short hshort).1]
      exact ⟨cs, c :: after, hroom, hcursor.left⟩

theorem not_lt_of_nil (hcursor : Cursor b.url b.urlLen b.cursorPos before []) :
  ¬ b.cursorPos < b.urlLen
  := by
  have hlen := hcursor.len_eq
  rw [Code.text_nil, List.length_nil, Nat.add_zero] at hlen
  rw [hlen]
  exact Nat.lt_irrefl _

theorem delete_iff (h : (bar b).Holds before after) :
  (bar b.delete).Valid ↔ ∀ c cs, after = c :: cs → Short c
  := by
  obtain ⟨hroom, hcursor⟩ := h
  cases after with
  | nil =>
      rw [delete, if_neg (not_lt_of_nil hcursor)]
      constructor
      · intro _ c cs hnil
        cases hnil
      · exact fun _ => ⟨before, [], hroom, hcursor⟩
  | cons c after =>
      rw [forall_after, delete_eq hcursor]
      constructor
      · rintro ⟨before', after', -, hcursor'⟩
        by_contra hlong
        rw [(taken_of_long hlong).2] at hcursor'
        exact hcursor.not_delete Nat.one_pos (Nat.lt_of_succ_lt (Nat.not_le.mp hlong)) before' after' hcursor'
      · intro hshort
        rw [(taken_of_short hshort).2]
        exact ⟨before, after, Nat.lt_of_le_of_lt (Nat.sub_le _ _) hroom, hcursor.delete⟩

theorem right_iff (h : (bar b).Holds before after) :
  (bar b.right).Valid ↔ ∀ c cs, after = c :: cs → Short c
  := by
  obtain ⟨hroom, hcursor⟩ := h
  cases after with
  | nil =>
      rw [right, if_neg (not_lt_of_nil hcursor)]
      constructor
      · intro _ c cs hnil
        cases hnil
      · exact fun _ => ⟨before, [], hroom, hcursor⟩
  | cons c after =>
      rw [forall_after, right_eq hcursor]
      constructor
      · rintro ⟨before', after', -, hcursor'⟩
        by_contra hlong
        rw [(taken_of_long hlong).1] at hcursor'
        exact hcursor.not_right Nat.two_pos (Nat.not_le.mp hlong) before' after' hcursor'
      · intro hshort
        rw [(taken_of_short hshort).1]
        exact ⟨before ++ [c], after, hroom, hcursor.right⟩

/-- A character of one byte or two is inserted where there is room. -/
theorem insert_valid (h : (bar b).Holds before after) {bytes : List UInt8}
    (hbytes : ∃ c, code.word c = bytes) (hroom : b.urlLen + bytes.length < 512) :
  (bar (b.insert bytes)).Valid
  := by
  obtain ⟨c, hword⟩ := hbytes
  exact ⟨before ++ [c], after, hroom, h.2.insert hword⟩

theorem handleKey_iff (h : (bar b).Holds before after) (ascii scancode : Int) :
  (∀ f, (bar b).handleKey ascii scancode = some f → f.Valid)
    ↔ (bar b).Fits before after ascii scancode
  := by
  have hsome (b' : UrlBar) :
      (∀ f, (some b').map bar = some f → f.Valid) ↔ (bar b').Valid := by
    constructor
    · exact fun hall => hall _ rfl
    · rintro hvalid f hf
      cases hf
      exact hvalid
  rw [Field.handleKey, handleKey, Fits]
  by_cases henter : ascii = 10 ∨ ascii = 13 ∨ scancode = 0x1C
  · rw [if_pos henter, if_pos henter]
    constructor
    · exact fun _ => trivial
    · intro _ f hf
      cases hf
  rw [if_neg henter, if_neg henter]
  by_cases hback : ascii = 8 ∨ scancode = 0x0E
  · rw [if_pos hback, if_pos (Or.inl hback), hsome]
    exact backspace_iff h
  rw [if_neg hback]
  by_cases hdelete : scancode = 0x53
  · rw [if_pos hdelete, if_neg (by omega), if_pos (Or.inl hdelete), hsome]
    exact delete_iff h
  rw [if_neg hdelete]
  by_cases hleft : scancode = 0x4B
  · rw [if_pos hleft, if_pos (Or.inr hleft), hsome]
    exact left_iff h
  rw [if_neg hleft, if_neg (not_or.mpr ⟨hback, hleft⟩)]
  by_cases hright : scancode = 0x4D
  · rw [if_pos hright, if_pos (Or.inr hright), hsome]
    exact right_iff h
  rw [if_neg hright, if_neg (not_or.mpr ⟨hdelete, hright⟩), iff_true]
  by_cases hhome : scancode = 0x47
  · rw [if_pos hhome, hsome]
    exact ⟨[], before ++ after, h.1, h.2.home⟩
  rw [if_neg hhome]
  by_cases hend : scancode = 0x4F
  · rw [if_pos hend, hsome]
    exact ⟨before ++ after, [], h.1, h.2.last⟩
  rw [if_neg hend]
  by_cases hascii : 32 ≤ ascii ∧ ascii ≤ 126 ∧ b.urlLen + 1 < 512 - 2
  · rw [if_pos hascii, hsome]
    have hroom : b.urlLen + [UInt8.ofNat ascii.toNat].length < 512 := by
      rw [List.length_singleton]
      omega
    exact insert_valid h (exists_ascii hascii.1 hascii.2.1) hroom
  rw [if_neg hascii]
  by_cases hcyrillic : 0x0400 ≤ ascii ∧ ascii ≤ 0x04FF ∧ b.urlLen + 2 < 512 - 2
  · rw [if_pos hcyrillic, hsome]
    have hroom : b.urlLen + (cyrillic ascii).length < 512 := by
      change b.urlLen + 2 < 512
      omega
    exact insert_valid h (exists_cyrillic hcyrillic.1 hcyrillic.2.1) hroom
  rw [if_neg hcyrillic, hsome]
  exact ⟨before, after, h⟩

end UrlBar

/-! ### The fields of a page -/

namespace PageInput

variable {a : Nat → UInt8} {len cursor : Nat} {before after : List Scalar} {c : Scalar}

/-- Backspace measures the character before the cursor. -/
theorem delBefore_eq (h : Cursor a len cursor (before ++ [c]) after) {d : Nat} (hpos : 0 < d)
    (hd : d ≤ (code.word c).length) :
  delBefore a cursor d = (code.word c).length
  := by
  have hle := h.length_le_cursor
  obtain ⟨k, hk⟩ := Nat.exists_eq_add_of_le hd
  induction k generalizing d with
  | zero =>
      have hlead := h.left.lead.1
      rw [hk, Nat.add_zero] at hlead ⊢
      rw [delBefore, if_neg (fun hcond => hlead hcond.2)]
  | succ k ih =>
      have hindex : cursor - d = cursor - (code.word c).length + (k + 1) := by omega
      have hcont : IsCont (a (cursor - d)) := by
        rw [hindex]
        exact h.left.continues (by omega) (by omega)
      rw [delBefore, if_pos ⟨by omega, hcont⟩]
      exact ih (by omega) (by omega) (by omega)

/-- Delete measures the character at the cursor. -/
theorem delAt_eq (h : Cursor a len cursor before (c :: after)) {d : Nat} (hpos : 0 < d)
    (hd : d ≤ (code.word c).length) :
  delAt a len cursor d = (code.word c).length
  := by
  have hle := h.cursor_add_le
  obtain ⟨k, hk⟩ := Nat.exists_eq_add_of_le hd
  induction k generalizing d with
  | zero =>
      have hnext := h.right.not_isCont
      rw [hk, Nat.add_zero] at hnext ⊢
      rw [delAt, if_neg (fun hcond => hnext hcond.2)]
  | succ k ih =>
      rw [delAt, if_pos ⟨by omega, h.continues hpos (by omega)⟩]
      exact ih (by omega) (by omega) (by omega)

/-- The left arrow moves to the start of the character before the cursor. -/
theorem backLoop_eq (h : Cursor a len cursor (before ++ [c]) after) {j : Nat}
    (hj : j < (code.word c).length) :
  backLoop a (cursor - (code.word c).length + j) = cursor - (code.word c).length
  := by
  induction j with
  | zero =>
      have hlead := h.left.lead.1
      rw [Nat.add_zero]
      cases hstart : cursor - (code.word c).length with
      | zero => rfl
      | succ p =>
          rw [hstart] at hlead
          rw [backLoop, if_neg hlead]
  | succ j ih =>
      rw [← Nat.add_assoc, backLoop, Nat.add_assoc, if_pos (h.left.continues (Nat.succ_pos j) hj)]
      exact ih (Nat.lt_of_succ_lt hj)

/-- The right arrow moves to the end of the character at the cursor. -/
theorem forwardLoop_eq (h : Cursor a len cursor before (c :: after)) {d : Nat} (hpos : 0 < d)
    (hd : d ≤ (code.word c).length) :
  forwardLoop a len (cursor + d) = cursor + (code.word c).length
  := by
  have hle := h.cursor_add_le
  obtain ⟨k, hk⟩ := Nat.exists_eq_add_of_le hd
  induction k generalizing d with
  | zero =>
      have hnext := h.right.not_isCont
      rw [hk, Nat.add_zero] at hnext ⊢
      rw [forwardLoop, if_neg (fun hcond => hnext hcond.2)]
  | succ k ih =>
      rw [forwardLoop, if_pos ⟨by omega, h.continues hpos (by omega)⟩, Nat.add_assoc]
      exact ih (by omega) (by omega) (by omega)

/-- The length of the string is that of the text. -/
theorem valid_of_cursor (h : Cursor a len cursor before after) (hlen : len < 128) :
  (page ⟨a, cursor⟩).Valid
  := by
  have hvlen : (PageInput.mk a cursor).vlen = len := h.strlen hlen
  refine ⟨before, after, ?_, ?_⟩
  · rw [hvlen]
    exact hlen
  · rw [hvlen]
    exact h

variable {i : PageInput}

theorem backspace_valid (h : (page i).Holds before after) :
  (page i.backspace).Valid
  := by
  obtain ⟨hroom, hcursor⟩ := h
  rw [backspace]
  split
  case isTrue hpos =>
    obtain ⟨cs, c, rfl⟩ := hcursor.exists_before hpos
    rw [delBefore_eq hcursor Nat.one_pos (code.length_word_pos c)]
    exact valid_of_cursor hcursor.backspace (Nat.lt_of_le_of_lt (Nat.sub_le _ _) hroom)
  case isFalse => exact ⟨before, after, hroom, hcursor⟩

theorem delete_valid (h : (page i).Holds before after) :
  (page i.delete).Valid
  := by
  obtain ⟨hroom, hcursor⟩ := h
  rw [delete]
  split
  case isTrue hlt =>
    obtain ⟨c, cs, rfl⟩ := hcursor.exists_after hlt
    rw [delAt_eq hcursor Nat.one_pos (code.length_word_pos c)]
    exact valid_of_cursor hcursor.delete (Nat.lt_of_le_of_lt (Nat.sub_le _ _) hroom)
  case isFalse => exact ⟨before, after, hroom, hcursor⟩

theorem left_valid (h : (page i).Holds before after) (hpos : 0 < i.cursorPos) :
  (page { i with cursorPos := backLoop i.value (i.cursorPos - 1) }).Valid
  := by
  obtain ⟨hroom, hcursor⟩ := h
  obtain ⟨cs, c, rfl⟩ := hcursor.exists_before hpos
  have hword := code.length_word_pos c
  have hle := hcursor.length_le_cursor
  have hindex : i.cursorPos - 1
      = i.cursorPos - (code.word c).length + ((code.word c).length - 1) := by omega
  rw [hindex, backLoop_eq hcursor (Nat.sub_lt hword Nat.one_pos)]
  exact valid_of_cursor hcursor.left hroom

theorem right_valid (h : (page i).Holds before after) (hlt : i.cursorPos < i.vlen) :
  (page { i with cursorPos := forwardLoop i.value i.vlen (i.cursorPos + 1) }).Valid
  := by
  obtain ⟨hroom, hcursor⟩ := h
  obtain ⟨c, cs, rfl⟩ := hcursor.exists_after hlt
  rw [forwardLoop_eq hcursor Nat.one_pos (code.length_word_pos c)]
  exact valid_of_cursor hcursor.right hroom

theorem insert_valid (h : (page i).Holds before after) {bytes : List UInt8}
    (hbytes : ∃ c, code.word c = bytes) (hroom : i.vlen + bytes.length < 128) :
  (page (i.insert bytes)).Valid
  := by
  obtain ⟨c, hword⟩ := hbytes
  exact valid_of_cursor (h.2.insert hword) hroom

/-- Every key keeps the field of a page valid. -/
theorem handleKey_valid (h : (page i).Holds before after) {ascii scancode : Int} {i' : PageInput}
    (hkey : i.handleKey ascii scancode = some i') :
  (page i').Valid
  := by
  rw [handleKey] at hkey
  split at hkey
  · cases hkey
  split at hkey
  · cases hkey
    exact backspace_valid h
  split at hkey
  · cases hkey
    exact delete_valid h
  split at hkey
  case isTrue hleft =>
    cases hkey
    exact left_valid h hleft.2
  split at hkey
  case isTrue hright =>
    cases hkey
    exact right_valid h hright.2
  split at hkey
  · cases hkey
    exact valid_of_cursor h.2.home h.1
  split at hkey
  · cases hkey
    exact valid_of_cursor h.2.last h.1
  split at hkey
  case isTrue hascii =>
    cases hkey
    apply insert_valid h (exists_ascii hascii.1 hascii.2.1)
    rw [List.length_singleton]
    omega
  split at hkey
  case isTrue hcyrillic =>
    cases hkey
    apply insert_valid h (exists_cyrillic hcyrillic.1 hcyrillic.2.1)
    change i.vlen + 2 < 128
    omega
  cases hkey
  exact ⟨before, after, h⟩

end PageInput

/-! ### All keys -/

/-- A key leaves a valid field valid exactly when it fits: always in the fields of a page, and in the
address bar when the character that it deletes or passes has at most two bytes. -/
theorem key_keeps_iff {f : Field} {before after : List Scalar} (h : f.Holds before after)
    (ascii scancode : Int) :
  (∀ f', f.handleKey ascii scancode = some f' → f'.Valid) ↔ f.Fits before after ascii scancode
  := by
  cases f with
  | bar b => exact UrlBar.handleKey_iff h ascii scancode
  | page i =>
      refine ⟨fun _ => trivial, fun _ f' hf' => ?_⟩
      obtain ⟨i', hkey, rfl⟩ := Option.map_eq_some_iff.mp hf'
      exact PageInput.handleKey_valid h hkey

/-- The euro sign. -/
def euro : Scalar := ⟨0x20AC, by decide, by decide, by decide⟩

/-- An address bar with the euro sign, and the cursor behind it. -/
def euroBar : UrlBar := ⟨fun i => [0xE2, 0x82, 0xAC].getD i 0, 3, 3⟩

theorem euroBar_holds :
  (bar euroBar).Holds [euro] []
  := by
  refine ⟨by decide, by decide, by decide⟩

/-- Backspace behind the euro sign. -/
theorem key_keeps_iff_euro :
  (∀ f', (bar euroBar).handleKey 8 0x0E = some f' → f'.Valid) ↔ (bar euroBar).Fits [euro] [] 8 0x0E
  := key_keeps_iff euroBar_holds 8 0x0E

/-- Backspace leaves the first byte of the euro sign. -/
theorem not_key_keeps :
  ¬ ∀ (f : Field) (before after : List Scalar), f.Holds before after → ∀ (ascii scancode : Int) f',
    f.handleKey ascii scancode = some f' → f'.Valid
  := by
  intro hall
  have hvalid := hall _ _ _ euroBar_holds 8 0x0E
  have hlong : ¬ (code.word euro).length ≤ 2 := by decide
  have hfits := (UrlBar.handleKey_iff euroBar_holds 8 0x0E).mp hvalid
  exact hlong (hfits [] euro rfl)

end Browser
