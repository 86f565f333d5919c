import Woos.Http.Complete
import Woos.Http.Unchunk

/-!
# The body of a response

What `net_http_fetch_single` does with the bytes it has received: it follows a redirect, or strips the
head, decodes chunked coding, and moves the body to the beginning of the buffer.  `Extracts` says
what should come of a response, and `ExtractsWhen` when it does: the searches for header fields and
for the word `chunked` go on into the body, and a body that begins like a chunk is taken for one.
-/

namespace Http

/-! ### The function -/

/-- `find_case_header` on a C string, whose loop is at the beginning of a line or skips one: what
comes after the name. -/
def findCaseHeader (name : List UInt8) : Bool → List UInt8 → Option (List UInt8)
  | _, [] => none
  | start, c :: cs =>
      if start && hasPrefix name (c :: cs) then some ((c :: cs).drop name.length)
      else findCaseHeader name (c = lf) cs

/-- `find_substr` on a C string: where the needle begins. -/
def findSubstr (needle : List UInt8) : List UInt8 → Option Nat
  | [] => if needle = [] then some 0 else none
  | c :: cs => if needle.isPrefixOf (c :: cs) then some 0 else (findSubstr needle cs).map (· + 1)

/-- The C string at the beginning of bytes that a zero follows. -/
def cstr (l : List UInt8) : List UInt8 := l.takeWhile (· ≠ 0)

/-- `location` -/
def location : List UInt8 := text "location"

/-- Whether the bytes received are a redirect, and the location. -/
def redirectOf (rx : List UInt8) : Option (List UInt8) :=
  if 12 ≤ rx.length ∧ rx.take 4 = text "HTTP" ∧ rx[9]? = some 51 then
    (findCaseHeader (location ++ [58]) true (cstr rx)).map (List.dropWhile isSpace)
  else none

/-- `is_chunked` by the fields. -/
def declaresChunked (rx : List UInt8) : Bool :=
  match findCaseHeader (transferEncoding ++ [58]) true (cstr rx) with
  | none => false
  | some te =>
      (findSubstr chunked (te.dropWhile isSpace)).isSome
        || (findSubstr (text "CHUNKED") (te.dropWhile isSpace)).isSome

/-- `hdr_len`, when there is a body. -/
def bodyStart (rx : List UInt8) : Option Nat :=
  match findSubstr [cr, lf, cr, lf] (cstr rx) with
  | some n => some (n + 4)
  | none => (findSubstr [lf, lf] (cstr rx)).map (· + 2)

/-- The guess that a body is chunked: it begins with one to eight hexadecimal digits on a line. -/
def looksChunked (body : List UInt8) : Bool :=
  let digits := body.takeWhile isHex
  4 < body.length ∧ 1 ≤ digits.length ∧ digits.length ≤ 8
    ∧ (body.drop digits.length).take 2 = [cr, lf]

/-- What comes of the bytes received: the location of a redirect, or so many bytes of text. -/
inductive Fetched where
  | redirect (location : List UInt8)
  | text (length : UInt32)

/-- The end of `net_http_fetch_single`, for bytes that have been received to a buffer. -/
def handleResponse (m : Memory) (out : Nat) (totalRx : UInt32) : Option (Fetched × Memory) :=
  let rx := m.read out totalRx.toNat
  match redirectOf rx with
  | some loc => some (.redirect loc, m)
  | none =>
      match bodyStart rx with
      | none => some (.text totalRx, m)
      | some hdrLen => do
          let body := out + hdrLen
          let bodyLen := if UInt32.ofNat hdrLen < totalRx then totalRx - UInt32.ofNat hdrLen else 0
          let (bodyLen, m) ←
            if declaresChunked rx || looksChunked (m.read body bodyLen.toNat) then
              httpUnchunk m body bodyLen
            else some (bodyLen, m)
          let m := m.memmove out body bodyLen.toNat
          some (.text bodyLen, Function.update m (out + bodyLen.toNat) 0)

/-! ### Responses -/

/-- A response, and its body as a chunked body when the head declares chunked coding. -/
structure Response where
  head : Head
  body : List UInt8
  coding : Option ChunkedBody
  declared : coding.isSome ↔ ∃ v ∈ (head.values transferEncoding).getLast?, EndsChunked v
  isChunkedBody : ∀ b ∈ coding, IsChunkedBody body b

namespace Response

/-- The bytes of a response. -/
def bytes (r : Response) : List UInt8 := r.head.bytes ++ r.body

/-- What the body says. -/
def content (r : Response) : List UInt8 :=
  match r.coding with
  | some b => b.data
  | none => r.body

/-- The response is a redirect. -/
def IsRedirect (r : Response) : Prop := r.head.status.head? = some 51 ∧ r.head.values location ≠ []

/-- What should come of a response in a buffer: a redirect when it is one, and otherwise its
content. -/
def Extracts (r : Response) (m : Memory) (out : Nat) : Prop :=
  match handleResponse m out (UInt32.ofNat r.bytes.length) with
  | none => False
  | some (.redirect _, _) => r.IsRedirect
  | some (.text n, m') => ¬ r.IsRedirect ∧ m'.read out n.toNat = r.content

/-- The first field `Transfer-Encoding`, or a line of the body that looks like one, is followed by the
word in lower or upper case; or the body begins like a chunk. -/
def TakenForChunked (r : Response) : Prop :=
  declaresChunked r.bytes = true ∨ looksChunked r.body = true

/-- When the content of a response is extracted. -/
def ExtractsWhen (r : Response) : Prop :=
  r.IsRedirect
    ∨ (¬ (r.head.status.head? = some 51
        ∧ (findCaseHeader (location ++ [58]) true (cstr r.body)).isSome)
      ∧ (r.body = [] ∨ (r.TakenForChunked ↔ r.coding.isSome)))

end Response

/-! ### The searches -/

/-- The C string of a text goes on behind it. -/
theorem cstr_append {a : List UInt8} (h : ∀ c ∈ a, c ≠ 0) (b : List UInt8) :
  cstr (a ++ b) = a ++ cstr b
  := by
  apply List.takeWhile_append_of_pos
  intro c hc
  exact decide_eq_true (h c hc)

section

variable {name : List UInt8}

/-- Within a line the loop goes on to the next one. -/
theorem findCaseHeader_false {w : List UInt8} (l : List UInt8) (h : ∀ c ∈ w, c ≠ lf) :
  findCaseHeader name false (w ++ lf :: l) = findCaseHeader name true l
  := by
  induction w with
  | nil => rfl
  | cons c w ih =>
      have hne : decide (c = lf) = false := decide_eq_false (h c List.mem_cons_self)
      rw [List.cons_append, findCaseHeader, Bool.false_and, if_neg Bool.false_ne_true, hne]
      apply ih
      intro d hd
      exact h d (List.mem_cons_of_mem c hd)

/-- At the beginning of a line the name is compared. -/
theorem findCaseHeader_true {w : List UInt8} (l : List UInt8) (hw : w ≠ [])
    (h : ∀ c ∈ w, c ≠ lf) :
  findCaseHeader name true (w ++ lf :: l)
    = if hasPrefix name (w ++ lf :: l) then some ((w ++ lf :: l).drop name.length)
      else findCaseHeader name true l
  := by
  obtain ⟨c, w, rfl⟩ := List.exists_cons_of_ne_nil hw
  have hne : decide (c = lf) = false := decide_eq_false (h c List.mem_cons_self)
  rw [List.cons_append, findCaseHeader, Bool.true_and, hne,
    findCaseHeader_false l (fun d hd => h d (List.mem_cons_of_mem c hd))]

/-- A line that begins with another byte is skipped. -/
theorem findCaseHeader_skip {c : UInt8} {w : List UInt8} (l : List UInt8)
    (hfirst : name.head? ≠ some (lower c)) (hne : name ≠ []) (h : ∀ d ∈ c :: w, d ≠ lf) :
  findCaseHeader name true (c :: w ++ lf :: l) = findCaseHeader name true l
  := by
  rw [findCaseHeader_true l (List.cons_ne_nil c w) h, if_neg]
  obtain ⟨d, n, rfl⟩ := List.exists_cons_of_ne_nil hne
  intro hprefix
  apply hfirst
  obtain ⟨hd, -⟩ := List.cons.inj (of_decide_eq_true hprefix)
  exact congrArg some hd.symm

/-- The fields are searched before what follows them. -/
theorem findCaseHeader_fields (hname : IsName name) (fields : List Field) (rest : List UInt8) :
  (findCaseHeader (name ++ [58]) true (unlines (fields.map Field.line) ++ rest)).isSome
    ↔ (fields.filter (Field.named name)).map Field.value ≠ []
      ∨ (findCaseHeader (name ++ [58]) true rest).isSome
  := by
  induction fields with
  | nil => simp [unlines]
  | cons f fields ih =>
      have htoken (c : UInt8) (hc : c ∈ f.name) : c ≠ 58 := (of_decide_eq_true (f.isToken c hc)).2.2
      have hlf (c : UInt8) (hc : c ∈ f.line ++ [cr]) : c ≠ lf := by
        rcases List.mem_append.mp hc with hc | hc
        · exact (ne_of_isText (f.isText_line hc)).2.1
        · rw [List.mem_singleton.mp hc]
          decide
      have hbytes : unlines ((f :: fields).map Field.line) ++ rest
          = f.line ++ [cr] ++ lf :: (unlines (fields.map Field.line) ++ rest) := by
        simp [unlines]
      have hline : f.line ++ [cr] ++ lf :: (unlines (fields.map Field.line) ++ rest)
          = f.name ++ 58 :: (f.value ++ cr :: lf :: (unlines (fields.map Field.line) ++ rest)) := by
        simp [Field.line]
      have hprefix := hasPrefix_line name hname.ne_colon f.name
        (f.value ++ cr :: lf :: (unlines (fields.map Field.line) ++ rest)) htoken
      rw [hbytes, findCaseHeader_true _ (by simp [Field.line]) hlf, hline, hprefix, List.filter_cons]
      cases hnamed : Field.named name f with
      | true =>
          have heq : f.name.map lower = name := of_decide_eq_true hnamed
          simp [heq]
      | false =>
          have hne : ¬ f.name.map lower = name := of_decide_eq_false hnamed
          rw [decide_eq_false hne, if_neg Bool.false_ne_true, ih, if_neg Bool.false_ne_true]

/-- A field is looked for in the head, and then in the body. -/
theorem findCaseHeader_bytes (h : Head) (hname : IsName name) (hfirst : name.head? ≠ some 104)
    (hcr : name.head? ≠ some cr) (rest : List UInt8) :
  (findCaseHeader (name ++ [58]) true (h.bytes ++ rest)).isSome
    ↔ h.values name ≠ [] ∨ (findCaseHeader (name ++ [58]) true rest).isSome
  := by
  have hhead : text "HTTP/1.1 " = 72 :: text "TTP/1.1 " := by decide
  have hbytes : h.bytes ++ rest = 72 :: (text "TTP/1.1 " ++ h.status ++ 32 :: h.reason ++ [cr])
      ++ lf :: (unlines (h.fields.map Field.line) ++ ([cr] ++ lf :: rest)) := by
    simp [Head.bytes, Head.lines, unlines, hhead]
  have hlf (c : UInt8) (hc : c ∈ 72 :: (text "TTP/1.1 " ++ h.status ++ 32 :: h.reason ++ [cr])) :
      c ≠ lf := by
    rw [← List.cons_append, ← List.cons_append, ← List.cons_append, ← hhead] at hc
    rcases List.mem_append.mp hc with hc | hc
    · exact (ne_of_isText (h.isText_lines List.mem_cons_self hc)).2.1
    · rw [List.mem_singleton.mp hc]
      decide
  have hne : name ++ [58] ≠ [] := by simp
  have hhead? : (name ++ [58]).head? = name.head? := by
    obtain ⟨c, n, rfl⟩ := List.exists_cons_of_ne_nil hname.ne_nil
    rfl
  rw [hbytes, findCaseHeader_skip _ (by rw [hhead?]; exact hfirst) hne hlf,
    findCaseHeader_fields hname]
  have hempty : findCaseHeader (name ++ [58]) true ([cr] ++ lf :: rest)
      = findCaseHeader (name ++ [58]) true rest := by
    have hlf' : ∀ c ∈ [cr], c ≠ lf := by decide +kernel
    have hcr' : (name ++ [58]).head? ≠ some (lower cr) := by
      rw [hhead?]
      exact hcr
    exact findCaseHeader_skip rest hcr' hne hlf'
  rw [hempty]
  exact Iff.rfl

end

/-- The end of a head is where the empty line is found. -/
theorem findSubstr_eq_headerEnd (l : List UInt8) :
  (findSubstr [cr, lf, cr, lf] l).map (· + 4) = headerEnd l
  := by
  induction l using headerEnd.induct with
  | case1 a b c d l hend =>
      obtain ⟨rfl, rfl, rfl, rfl⟩ := hend
      rfl
  | case2 a b c d l hnot ih =>
      have hprefix : ¬ [cr, lf, cr, lf].isPrefixOf (a :: b :: c :: d :: l) = true := by
        simp only [List.isPrefixOf, Bool.and_true, Bool.and_eq_true, beq_iff_eq]
        rintro ⟨rfl, rfl, rfl, rfl⟩
        exact hnot ⟨rfl, rfl, rfl, rfl⟩
      rw [findSubstr, if_neg hprefix, headerEnd, if_neg hnot, ← ih, Option.map_map, Option.map_map]
      rfl
  | case3 l hshort =>
      rcases l with _ | ⟨a, _ | ⟨b, _ | ⟨c, _ | ⟨d, l⟩⟩⟩⟩
      · rfl
      · simp [findSubstr, headerEnd]
      · simp [findSubstr, headerEnd]
      · simp [findSubstr, headerEnd]
      · exact (hshort a b c d l rfl).elim

/-! ### The bytes received -/

theorem Head.ne_zero_of_mem_bytes (h : Head) {c : UInt8} (hc : c ∈ h.bytes) :
  c ≠ 0
  := by
  have hend (d : UInt8) (hd : d ∈ [cr, lf]) : d ≠ 0 := by
    rintro rfl
    revert hd
    decide
  rcases List.mem_append.mp hc with hc | hc
  · obtain ⟨l, hl, hc⟩ := List.mem_flatMap.mp hc
    rcases List.mem_append.mp hc with hc | hc
    · exact (ne_of_isText (h.isText_lines hl hc)).2.2
    · exact hend c hc
  · exact hend c hc

theorem Head.bytes_eq (h : Head) :
  ∃ rest, h.bytes = text "HTTP/1.1 " ++ h.status ++ rest
  := by
  use 32 :: h.reason ++ [cr, lf] ++ (unlines (h.fields.map Field.line) ++ [cr, lf])
  simp [Head.bytes, Head.lines, unlines]

namespace Response

variable {r : Response}

theorem cstr_bytes (r : Response) :
  cstr r.bytes = r.head.bytes ++ cstr r.body
  := by
  apply cstr_append
  intro c hc
  exact r.head.ne_zero_of_mem_bytes hc

theorem isName_location :
  IsName location
  := ⟨by decide, by decide +kernel⟩

/-- A redirect is followed when the status says so, and a line of the head or of the body is a field
`Location`. -/
theorem redirectOf_isSome_iff :
  (redirectOf r.bytes).isSome
    ↔ r.head.status.head? = some 51 ∧ (r.head.values location ≠ []
      ∨ (findCaseHeader (location ++ [58]) true (cstr r.body)).isSome)
  := by
  obtain ⟨rest, hrest⟩ := r.head.bytes_eq
  have hlength := r.head.length
  have hbytes : r.bytes = text "HTTP/1.1 " ++ (r.head.status ++ (rest ++ r.body)) := by
    simp [bytes, hrest]
  have htext : (text "HTTP/1.1 ").length = 9 := by decide
  have hlong : 12 ≤ r.bytes.length := by
    rw [hbytes, List.length_append, List.length_append]
    omega
  have htake : r.bytes.take 4 = text "HTTP" := by
    rw [hbytes, List.take_append_of_le_length (by omega)]
    decide
  have hdigit : r.bytes[9]? = r.head.status.head? := by
    rw [hbytes, List.getElem?_append_right (by omega), htext, ← List.head?_eq_getElem?,
      List.head?_append_of_ne_nil]
    intro hnil
    rw [hnil] at hlength
    cases hlength
  have hfield := findCaseHeader_bytes r.head isName_location (by decide) (by decide) (cstr r.body)
  rw [← hfield, ← cstr_bytes, redirectOf, hdigit]
  by_cases hthree : r.head.status.head? = some 51
  · rw [if_pos ⟨hlong, htake, hthree⟩, Option.isSome_map]
    simp [hthree]
  · rw [if_neg]
    · simp [hthree]
    · rintro ⟨-, -, h⟩
      exact hthree h

/-- The body begins behind the head. -/
theorem bodyStart_bytes (r : Response) :
  bodyStart r.bytes = some r.head.bytes.length
  := by
  have hend := findSubstr_eq_headerEnd (r.head.bytes ++ cstr r.body)
  rw [r.head.headerEnd_bytes] at hend
  obtain ⟨n, hn, hplus⟩ := Option.map_eq_some_iff.mp hend
  rw [bodyStart, cstr_bytes, hn]
  exact congrArg some hplus

/-- When the bytes are not taken for a redirect, the text is the body, decoded if it is taken for
chunked. -/
theorem handleResponse_text {m : Memory} {out : Nat} (h : r.bytes.length < 2 ^ 32)
    (hm : m.read out r.bytes.length = r.bytes) (hnot : ¬ (redirectOf r.bytes).isSome) :
  ∃ n m', handleResponse m out (UInt32.ofNat r.bytes.length) = some (.text n, m')
    ∧ (r.TakenForChunked → m'.read out n.toNat = unchunk r.body)
    ∧ (¬ r.TakenForChunked → m'.read out n.toNat = r.body)
  := by
  have htotal : (UInt32.ofNat r.bytes.length).toNat = r.bytes.length := UInt32.toNat_ofNat_of_lt' h
  have hsum : r.bytes.length = r.head.bytes.length + r.body.length := List.length_append
  have hhead : (UInt32.ofNat r.head.bytes.length).toNat = r.head.bytes.length :=
    UInt32.toNat_ofNat_of_lt' (show r.head.bytes.length < 2 ^ 32 by omega)
  have hpos := r.head.length_bytes
  have hbody : m.read (out + r.head.bytes.length) r.body.length = r.body := by
    have hdrop := m.read_drop out r.bytes.length r.head.bytes.length
    rw [hm, bytes, List.drop_left, ← bytes, hsum, Nat.add_sub_cancel_left] at hdrop
    exact hdrop.symm
  -- the number of bytes behind the head
  have hbodyLen : (if UInt32.ofNat r.head.bytes.length < UInt32.ofNat r.bytes.length then
      UInt32.ofNat r.bytes.length - UInt32.ofNat r.head.bytes.length else 0).toNat
      = r.body.length := by
    split
    case isTrue hlt =>
      rw [UInt32.toNat_sub_of_le _ _ (UInt32.le_of_lt hlt), htotal, hhead]
      omega
    case isFalse hnot =>
      rw [UInt32.lt_iff_toNat_lt, htotal, hhead] at hnot
      rw [UInt32.toNat_zero]
      omega
  -- the move to the beginning of the buffer
  have hmove (m : Memory) (n : Nat) :
      Memory.read (Function.update (m.memmove out (out + r.head.bytes.length) n) (out + n) 0) out n
        = m.read (out + r.head.bytes.length) n := by
    obtain ⟨hmoved, -⟩ := m.memmove_down n (show out < out + r.head.bytes.length by omega)
    rw [← hmoved]
    apply Memory.read_congr
    intro i hi
    apply Function.update_of_ne
    omega
  rw [handleResponse, htotal, hm]
  dsimp only
  rw [Option.not_isSome_iff_eq_none.mp hnot, bodyStart_bytes]
  dsimp only
  generalize (if UInt32.ofNat r.head.bytes.length < UInt32.ofNat r.bytes.length then
    UInt32.ofNat r.bytes.length - UInt32.ofNat r.head.bytes.length else 0) = bodyLen at *
  rw [hbodyLen, hbody]
  by_cases htaken : r.TakenForChunked
  · have htest : (declaresChunked r.bytes || looksChunked r.body) = true := Bool.or_eq_true_iff.mpr htaken
    obtain ⟨m', hunchunk, hdata, -⟩ := httpUnchunk_eq m (out + r.head.bytes.length) bodyLen
    have hle := length_unchunk_le r.body
    rw [hbodyLen, hbody] at hunchunk hdata
    rw [if_pos htest, hunchunk, Option.bind_eq_bind, Option.bind_some]
    refine ⟨_, _, rfl, fun _ => ?_, fun hnot => absurd htaken hnot⟩
    rw [UInt32.toNat_ofNat_of_lt' (show (unchunk r.body).length < 2 ^ 32 by omega), hmove, hdata]
  · have htest : ¬ (declaresChunked r.bytes || looksChunked r.body) = true :=
      fun h => htaken (Bool.or_eq_true_iff.mp h)
    rw [if_neg htest, Option.bind_eq_bind, Option.bind_some]
    refine ⟨_, _, rfl, fun htaken' => absurd htaken' htaken, fun _ => ?_⟩
    rw [hbodyLen, hmove, hbody]

/-- What should come of a response that is not taken for a redirect. -/
theorem content_iff (h : r.bytes.length < 2 ^ 32) :
  ((r.TakenForChunked → unchunk r.body = r.content) ∧ (¬ r.TakenForChunked → r.body = r.content))
    ↔ r.body = [] ∨ (r.TakenForChunked ↔ r.coding.isSome)
  := by
  have hsum : r.bytes.length = r.head.bytes.length + r.body.length := List.length_append
  cases hcoding : r.coding with
  | none =>
      have hcontent : r.content = r.body := by
        rw [content, hcoding]
      rw [hcontent]
      simp only [Option.isSome_none, Bool.false_eq_true, iff_false, implies_true, and_true]
      constructor
      · intro hunchunk
        by_cases hnil : r.body = []
        · exact Or.inl hnil
        · right
          intro htaken
          have hlt := length_unchunk_lt hnil
          rw [hunchunk htaken] at hlt
          exact Nat.lt_irrefl _ hlt
      · rintro (hnil | hnot) htaken
        · rw [hnil]
          exact unchunk_none rfl
        · exact absurd htaken hnot
  | some b =>
      have hbody := r.isChunkedBody b hcoding
      have hlength := length_of_isChunkedBody hbody
      have hne : r.body ≠ [] := List.length_pos_iff.mp (by omega)
      have hcontent : r.content = b.data := by
        rw [content, hcoding]
      have hunchunk : unchunk r.body = b.data := by
        rw [← hbody.1]
        apply unchunk_bytes
        rw [hbody.1]
        omega
      have hshort : r.body ≠ b.data := by
        intro heq
        have hlt := length_unchunk_lt hne
        rw [hunchunk, ← heq] at hlt
        exact Nat.lt_irrefl _ hlt
      rw [hcontent]
      simp only [hunchunk, implies_true, true_and, hne, false_or, Option.isSome_some, iff_true]
      constructor
      · intro hbody
        by_contra hnot
        exact hshort (hbody hnot)
      · intro htaken hnot
        exact absurd htaken hnot

/-- The content of a response that is in the buffer is extracted exactly when `ExtractsWhen` holds. -/
theorem extracts_iff {m : Memory} {out : Nat} (h : r.bytes.length < 2 ^ 32)
    (hm : m.read out r.bytes.length = r.bytes) :
  r.Extracts m out ↔ r.ExtractsWhen
  := by
  have hsome := redirectOf_isSome_iff (r := r)
  rw [Extracts, ExtractsWhen]
  by_cases hredirect : (redirectOf r.bytes).isSome
  · obtain ⟨loc, hloc⟩ := Option.isSome_iff_exists.mp hredirect
    obtain ⟨hthree, hfound⟩ := hsome.mp hredirect
    have hresult : handleResponse m out (UInt32.ofNat r.bytes.length) = some (.redirect loc, m) := by
      rw [handleResponse, UInt32.toNat_ofNat_of_lt' h, hm]
      dsimp only
      rw [hloc]
    rw [hresult]
    dsimp only
    constructor
    · exact Or.inl
    · rintro (his | ⟨hnot, -⟩)
      · exact his
      · use hthree
        intro hnone
        rcases hfound with hhead | hbody
        · exact hhead hnone
        · exact hnot ⟨hthree, hbody⟩
  · obtain ⟨n, m', hresult, hunchunk, hbody⟩ := handleResponse_text h hm hredirect
    have hnot : ¬ r.IsRedirect := fun his => hredirect (hsome.mpr ⟨his.1, Or.inl his.2⟩)
    have hnot' : ¬ (r.head.status.head? = some 51
        ∧ (findCaseHeader (location ++ [58]) true (cstr r.body)).isSome) :=
      fun his => hredirect (hsome.mpr ⟨his.1, Or.inr his.2⟩)
    rw [hresult]
    simp only [hnot, not_false_eq_true, true_and, false_or, hnot']
    rw [← content_iff h]
    by_cases htaken : r.TakenForChunked
    · rw [hunchunk htaken]
      simp [htaken]
    · rw [hbody htaken]
      simp [htaken]

/-- A response whose body is two lines, the first of one digit. -/
def twoLines : Response where
  head :=
    headWith (text "Content-Length") (text " 5") contentLength_ne_nil contentLength_isToken
      (by decide +kernel)
  body := text "1\r\nab"
  coding := none
  declared := by
    have hnone : (headWith (text "Content-Length") (text " 5") contentLength_ne_nil
        contentLength_isToken (by decide +kernel)).values transferEncoding = [] := by decide +kernel
    simp [hnone]
  isChunkedBody := by simp

/-- The case of that response. -/
theorem extracts_iff_twoLines :
  twoLines.Extracts (Memory.write (fun _ => 0) 4096 twoLines.bytes) 4096 ↔ twoLines.ExtractsWhen
  := extracts_iff (by decide +kernel) (Memory.read_write _ 4096 twoLines.bytes)

/-- The text of that response is one byte of it. -/
theorem not_extracts :
  ¬ twoLines.Extracts (Memory.write (fun _ => 0) 4096 twoLines.bytes) 4096
  := by
  obtain ⟨n, m', hresult, hunchunk, -⟩ := handleResponse_text (r := twoLines) (by decide +kernel)
    (Memory.read_write (fun _ => 0) 4096 twoLines.bytes) (by decide +kernel)
  have hlt := length_unchunk_lt (l := twoLines.body) (by decide)
  rw [Extracts, hresult]
  rintro ⟨-, htext⟩
  rw [hunchunk (Or.inr (by decide +kernel))] at htext
  rw [htext] at hlt
  exact Nat.lt_irrefl _ hlt

end Response

end Http
