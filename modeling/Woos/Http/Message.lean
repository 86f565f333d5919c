import Mathlib.Data.List.Basic
import Woos.Http.Chunks

/-!
# HTTP responses

A `Head` is a status line and header fields, and `Framing` says how a body follows it: with as many
bytes as the field `Content-Length` says, in chunked transfer coding, or up to the end of the
connection.  `headerEnd` looks for the end of a head in any bytes, and `Head.headerEnd_bytes` says
that it finds the end of every head.
-/

namespace Http

/-- The bytes of an ASCII string. -/
def text (s : String) : List UInt8 := s.toList.map (fun c => c.toNat.toUInt8)

/-- The lower case of a letter. -/
def lower (c : UInt8) : UInt8 := if 65 ≤ c ∧ c ≤ 90 then c + 32 else c

/-- Whether the bytes begin with a name, which is in lower case. -/
def hasPrefix (name l : List UInt8) : Bool := (l.take name.length).map lower = name

/-- A byte of a field value: a tab, or printable. -/
def isText (c : UInt8) : Bool := c = 9 ∨ (32 ≤ c ∧ c ≠ 127)

/-- A byte of a field name: visible, and not the colon. -/
def isToken (c : UInt8) : Bool := 32 < c ∧ c < 127 ∧ c ≠ 58

/-- A space or a tab. -/
def isSpace (c : UInt8) : Bool := c = 32 ∨ c = 9

/-- A decimal digit. -/
def isDigit (c : UInt8) : Bool := 48 ≤ c ∧ c ≤ 57

/-- The number that decimal digits stand for, after a number that has been read. -/
def decimal (n : Nat) : List UInt8 → Nat
  | [] => n
  | c :: cs => decimal (10 * n + (c - 48).toNat) cs

/-- A header field: its name, and all that follows the colon on its line. -/
structure Field where
  name : List UInt8
  value : List UInt8
  name_ne_nil : name ≠ []
  isToken : ∀ c ∈ name, isToken c = true
  isText : ∀ c ∈ value, isText c = true

namespace Field

/-- The line of a field without its end. -/
def line (f : Field) : List UInt8 := f.name ++ 58 :: f.value

/-- Whether the field has a name, which is given in lower case. -/
def named (name : List UInt8) (f : Field) : Bool := f.name.map lower = name

end Field

/-- The status line and the fields of a response. -/
structure Head where
  status : List UInt8
  reason : List UInt8
  fields : List Field
  length : status.length = 3
  isDigit : ∀ c ∈ status, isDigit c = true
  isText : ∀ c ∈ reason, isText c = true

/-- Lines with their ends. -/
def unlines (ls : List (List UInt8)) : List UInt8 := ls.flatMap (· ++ [cr, lf])

namespace Head

/-- The lines of a head. -/
def lines (h : Head) : List (List UInt8) :=
  (text "HTTP/1.1 " ++ h.status ++ 32 :: h.reason) :: h.fields.map Field.line

/-- The bytes of a head, with the empty line at its end. -/
def bytes (h : Head) : List UInt8 := unlines h.lines ++ [cr, lf]

/-- The field values of a name. -/
def values (h : Head) (name : List UInt8) : List (List UInt8) :=
  (h.fields.filter (Field.named name)).map Field.value

end Head

/-- The value is a decimal number, between blanks. -/
def IsNumber (value : List UInt8) (n : Nat) : Prop :=
  ∃ before digits after, value = before ++ digits ++ after ∧ (∀ c ∈ before, isSpace c = true)
    ∧ (∀ c ∈ after, isSpace c = true) ∧ (∀ c ∈ digits, isDigit c = true) ∧ digits ≠ []
    ∧ decimal 0 digits = n

/-- `content-length` -/
def contentLength : List UInt8 := text "content-length"

/-- `transfer-encoding` -/
def transferEncoding : List UInt8 := text "transfer-encoding"

/-- `chunked` -/
def chunked : List UInt8 := text "chunked"

/-- The last item of the list in the value is `chunked`. -/
def EndsChunked (value : List UInt8) : Prop :=
  ∃ before word after, value = before ++ word ++ after ∧ word.map lower = chunked
    ∧ (∀ c ∈ after, isSpace c = true) ∧ ∀ c ∈ before.getLast?, c = 44 ∨ isSpace c = true

/-- The body is a chunked body, whose trailer is fields and an empty line. -/
def IsChunkedBody (body : List UInt8) (b : ChunkedBody) : Prop :=
  b.bytes = body ∧ ∃ fields : List Field, b.trailer = unlines (fields.map Field.line) ++ [cr, lf]

/-- How a body follows a head. -/
inductive Framing (h : Head) (body : List UInt8) : Prop where
  /-- the field `Content-Length`, once, gives the length of the body -/
  | length (value : List UInt8) (hvalues : h.values contentLength = [value])
      (hnumber : IsNumber value body.length) (hnone : h.values transferEncoding = [])
  /-- the last field `Transfer-Encoding` ends with `chunked` -/
  | chunked (b : ChunkedBody) (value : List UInt8)
      (hvalue : (h.values transferEncoding).getLast? = some value) (hends : EndsChunked value)
      (hnone : h.values contentLength = []) (hbody : IsChunkedBody body b)
  /-- neither field: the body ends with the connection -/
  | close (hnone : h.values contentLength = []) (hnone' : h.values transferEncoding = [])

/-! ### Bytes of lines -/

theorem ne_of_isText {c : UInt8} (h : isText c = true) :
  c ≠ cr ∧ c ≠ lf ∧ c ≠ 0
  := by
  have hcases := of_decide_eq_true h
  refine ⟨?_, ?_, ?_⟩
  · rintro rfl
    exact absurd hcases (by decide)
  · rintro rfl
    exact absurd hcases (by decide)
  · rintro rfl
    exact absurd hcases (by decide)

theorem isText_of_isToken {c : UInt8} (h : isToken c = true) :
  isText c = true
  := by
  obtain ⟨hlt, hlt', -⟩ := of_decide_eq_true h
  apply decide_eq_true
  right
  use UInt8.le_of_lt hlt
  rintro rfl
  exact absurd hlt' (by decide)

/-- The bytes of every line of a head are printable. -/
theorem Field.isText_line (f : Field) {c : UInt8} (h : c ∈ f.line) :
  Http.isText c = true
  := by
  rcases List.mem_append.mp h with h | h
  · exact isText_of_isToken (f.isToken c h)
  · rcases List.mem_cons.mp h with rfl | h
    · rfl
    · exact f.isText c h

theorem isText_of_isDigit {c : UInt8} (h : isDigit c = true) :
  isText c = true
  := by
  obtain ⟨hle, hle'⟩ := of_decide_eq_true h
  apply decide_eq_true
  right
  use UInt8.le_trans (by decide) hle
  rintro rfl
  exact absurd hle' (by decide)

theorem Head.isText_lines (h : Head) {l : List UInt8} (hl : l ∈ h.lines) {c : UInt8} (hc : c ∈ l) :
  Http.isText c = true
  := by
  rcases List.mem_cons.mp hl with rfl | hl
  · rcases List.mem_append.mp hc with hc | hc
    · rcases List.mem_append.mp hc with hc | hc
      · have hall : ∀ c ∈ text "HTTP/1.1 ", Http.isText c = true := by decide +kernel
        exact hall c hc
      · exact isText_of_isDigit (h.isDigit c hc)
    · rcases List.mem_cons.mp hc with rfl | hc
      · rfl
      · exact h.isText c hc
  · obtain ⟨f, -, rfl⟩ := List.mem_map.mp hl
    exact f.isText_line hc

theorem Head.ne_nil_of_mem_lines (h : Head) {l : List UInt8} (hl : l ∈ h.lines) :
  l ≠ []
  := by
  rcases List.mem_cons.mp hl with rfl | hl
  · simp
  · obtain ⟨f, -, rfl⟩ := List.mem_map.mp hl
    simp [Field.line]

/-! ### The end of a head -/

/-- The number of bytes up to the end of the first empty line. -/
def headerEnd : List UInt8 → Option Nat
  | a :: b :: c :: d :: l =>
      if a = cr ∧ b = lf ∧ c = cr ∧ d = lf then some 4
      else (headerEnd (b :: c :: d :: l)).map (· + 1)
  | _ => none

theorem headerEnd_cons {a : UInt8} (l : List UInt8) (h : a ≠ cr) :
  headerEnd (a :: l) = (headerEnd l).map (· + 1)
  := by
  match l with
  | [] => rfl
  | [_] => rfl
  | [_, _] => rfl
  | b :: c :: d :: l =>
      rw [headerEnd, if_neg]
      rintro ⟨ha, -⟩
      exact h ha

theorem headerEnd_append_text {w : List UInt8} (l : List UInt8) (h : ∀ c ∈ w, c ≠ cr) :
  headerEnd (w ++ l) = (headerEnd l).map (· + w.length)
  := by
  induction w with
  | nil => simp
  | cons a w ih =>
      rw [List.cons_append, headerEnd_cons _ (h a List.mem_cons_self),
        ih (fun c hc => h c (List.mem_cons_of_mem a hc)), Option.map_map]
      rfl

theorem headerEnd_line {a : UInt8} (l : List UInt8) (h : a ≠ cr) :
  headerEnd (cr :: lf :: a :: l) = (headerEnd (a :: l)).map (· + 2)
  := by
  have hlf : lf ≠ cr := by decide
  have hshift : headerEnd (cr :: lf :: a :: l) = (headerEnd (lf :: a :: l)).map (· + 1) := by
    match l with
    | [] => rfl
    | d :: l =>
        rw [headerEnd, if_neg]
        rintro ⟨-, -, ha, -⟩
        exact h ha
  rw [hshift, headerEnd_cons _ hlf, Option.map_map]
  rfl

/-- The first empty line ends the lines. -/
theorem headerEnd_unlines {l : List UInt8} {ls : List (List UInt8)} (rest : List UInt8)
    (htext : ∀ l' ∈ l :: ls, ∀ c ∈ l', c ≠ cr) (hne : ∀ l' ∈ ls, l' ≠ []) :
  headerEnd (unlines (l :: ls) ++ [cr, lf] ++ rest) = some ((unlines (l :: ls)).length + 2)
  := by
  induction ls generalizing l with
  | nil =>
      have hbytes : unlines [l] ++ [cr, lf] ++ rest = l ++ (cr :: lf :: cr :: lf :: rest) := by
        simp [unlines]
      rw [hbytes, headerEnd_append_text _ (htext l List.mem_cons_self), headerEnd,
        if_pos ⟨rfl, rfl, rfl, rfl⟩]
      simp [unlines]
      omega
  | cons l' ls ih =>
      have hrest := ih (l := l') (fun k hk => htext k (List.mem_cons_of_mem l hk))
        (fun k hk => hne k (List.mem_cons_of_mem l' hk))
      obtain ⟨a, w, hw⟩ := List.exists_cons_of_ne_nil (hne l' List.mem_cons_self)
      have ha : a ≠ cr := by
        apply htext l'
        · simp
        · rw [hw]
          exact List.mem_cons_self
      have hbytes : unlines (l :: l' :: ls) ++ [cr, lf] ++ rest
          = l ++ (cr :: lf :: a :: (w ++ [cr, lf] ++ unlines ls ++ [cr, lf] ++ rest)) := by
        simp [unlines, hw]
      have hbytes' : a :: (w ++ [cr, lf] ++ unlines ls ++ [cr, lf] ++ rest)
          = unlines (l' :: ls) ++ [cr, lf] ++ rest := by
        simp [unlines, hw]
      rw [hbytes, headerEnd_append_text _ (htext l List.mem_cons_self), headerEnd_line _ ha, hbytes',
        hrest]
      simp [unlines]
      omega

/-- The end of a head is found, whatever follows. -/
theorem Head.headerEnd_bytes (h : Head) (rest : List UInt8) :
  headerEnd (h.bytes ++ rest) = some h.bytes.length
  := by
  have hfound := @headerEnd_unlines (text "HTTP/1.1 " ++ h.status ++ 32 :: h.reason)
    (h.fields.map Field.line) rest
    (fun l hl c hc => (ne_of_isText (h.isText_lines hl hc)).1)
    (fun l hl => h.ne_nil_of_mem_lines (List.mem_cons_of_mem _ hl))
  rw [Head.bytes, List.length_append]
  exact hfound

/-- An end that has been found stays where it is when more bytes arrive. -/
theorem headerEnd_append {l : List UInt8} {n : Nat} (rest : List UInt8) (h : headerEnd l = some n) :
  headerEnd (l ++ rest) = some n ∧ n ≤ l.length
  := by
  induction l using headerEnd.induct generalizing n with
  | case1 a b c d l hend =>
      rw [headerEnd, if_pos hend] at h
      obtain rfl := Option.some.inj h
      constructor
      · exact if_pos hend
      · simp
  | case2 a b c d l hnot ih =>
      rw [headerEnd, if_neg hnot] at h
      obtain ⟨k, hk, rfl⟩ := Option.map_eq_some_iff.mp h
      obtain ⟨hfound, hle⟩ := ih hk
      constructor
      · rw [List.cons_append, List.cons_append, List.cons_append, List.cons_append, headerEnd,
          if_neg hnot]
        exact congrArg (Option.map (· + 1)) hfound
      · rw [List.length_cons]
        exact Nat.succ_le_succ hle
  | case3 l hshort =>
      rw [headerEnd] at h
      · cases h
      · exact hshort

/-- In a part of a head that is not the whole head, no end is found. -/
theorem Head.headerEnd_take (h : Head) {k : Nat} (hk : k < h.bytes.length) :
  headerEnd (h.bytes.take k) = none
  := by
  cases hfound : headerEnd (h.bytes.take k) with
  | none => rfl
  | some n =>
      obtain ⟨heq, hle⟩ := headerEnd_append (h.bytes.drop k) hfound
      have hwhole := h.headerEnd_bytes []
      rw [List.append_nil] at hwhole
      rw [List.take_append_drop, hwhole] at heq
      rw [List.length_take] at hle
      have := Option.some.inj heq
      omega

end Http
