import Woos.Http.Message

/-!
# Whether a response is complete

`check_http_response_complete` decides whether the bytes that have been received are a whole
response.  `CompleteLaw` says that it is right for every part of a response that can have been
received, and `CompleteWhen` when this is so: the end of the head has to lie within the first 8192
bytes, the length of a response with a `Content-Length` within 32 bits, and the first field
`Transfer-Encoding` has to mention the chunked coding; and a chunked body has to end with the five
bytes that the function looks for, and no part of it may.
-/

namespace Http

/-! ### The function -/

/-- The loops over a head for a field, which is looked for at the beginning of each line: what comes
after its name and colon. -/
def findField (name : List UInt8) : Bool → List UInt8 → Option (List UInt8)
  | _, [] => none
  | start, c :: cs =>
      if name.length < cs.length + 1 then
        if start && hasPrefix name (c :: cs) then some ((c :: cs).drop name.length)
        else findField name (c = lf) cs
      else none

/-- The number that decimal digits stand for in 32 bits, after a number that has been read. -/
def decimalWord (n : UInt32) : List UInt8 → UInt32
  | [] => n
  | c :: cs => decimalWord (n * 10 + (c - 48).toUInt32) cs

/-- `cl_val`, when `cl_found` -/
def lengthOf (header : List UInt8) : Option UInt32 :=
  match findField (contentLength ++ [58]) true header with
  | none => none
  | some l =>
      let digits := (l.dropWhile isSpace).takeWhile isDigit
      if digits = [] then none else some (decimalWord 0 digits)

/-- The loop over the line of a field for the word `chunked`. -/
def findChunked : List UInt8 → Bool
  | [] => false
  | c :: cs =>
      if 7 ≤ cs.length + 1 ∧ c ≠ cr ∧ c ≠ lf then
        if hasPrefix chunked (c :: cs) then true else findChunked cs
      else false

/-- `is_chunked` -/
def isChunked (header : List UInt8) : Bool :=
  match findField (transferEncoding ++ [58]) true header with
  | none => false
  | some l => findChunked l

/-- The last bytes. -/
def lastBytes (n : Nat) (l : List UInt8) : List UInt8 := l.drop (l.length - n)

/-- The five bytes that the function takes for the end of a chunked body. -/
def finalBytes : List UInt8 := [48, cr, lf, cr, lf]

/-- `check_http_response_complete` on the bytes that have been received. -/
def checkHttpResponseComplete (rx : List UInt8) : Bool :=
  if rx.length < 4 then
    false
  else
    match headerEnd (rx.take (if rx.length < 8192 then rx.length else 8192)) with
    | none => false
    | some headerLen =>
        match lengthOf (rx.take headerLen) with
        | some clVal => UInt32.ofNat headerLen + clVal ≤ UInt32.ofNat rx.length
        | none =>
            if isChunked (rx.take headerLen) then
              headerLen + 5 ≤ rx.length
                ∧ (lastBytes 5 rx = finalBytes
                  ∨ (headerLen + 7 ≤ rx.length ∧ lastBytes 7 rx = cr :: lf :: finalBytes))
            else false

/-! ### Fields -/

section

variable {name : List UInt8}

theorem findField_short {l : List UInt8} (start : Bool) (h : l.length ≤ name.length) :
  findField name start l = none
  := by
  cases l with
  | nil => rfl
  | cons c cs =>
      rw [findField, if_neg]
      exact Nat.not_lt.mpr h

/-- Within a line the loop goes on to the next one. -/
theorem findField_false {w : List UInt8} (l : List UInt8) (h : ∀ c ∈ w, c ≠ lf) :
  findField name false (w ++ lf :: l) = findField name true l
  := by
  induction w with
  | nil =>
      rw [List.nil_append, findField]
      split
      case isTrue => rfl
      case isFalse hshort =>
        rw [findField_short]
        omega
  | cons c w ih =>
      have hne : decide (c = lf) = false := decide_eq_false (h c List.mem_cons_self)
      rw [List.cons_append, findField, hne, ih (fun d hd => h d (List.mem_cons_of_mem c hd))]
      split
      case isTrue => rfl
      case isFalse hshort =>
        rw [findField_short]
        rw [List.length_append, List.length_cons] at hshort
        omega

/-- At the beginning of a line the name is compared. -/
theorem findField_true {w : List UInt8} (l : List UInt8) (hw : w ≠ []) (h : ∀ c ∈ w, c ≠ lf)
    (hlength : name.length < (w ++ lf :: l).length) :
  findField name true (w ++ lf :: l)
    = if hasPrefix name (w ++ lf :: l) then some ((w ++ lf :: l).drop name.length)
      else findField name true l
  := by
  obtain ⟨c, w, rfl⟩ := List.exists_cons_of_ne_nil hw
  have hne : decide (c = lf) = false := decide_eq_false (h c List.mem_cons_self)
  have hlength' : name.length < (w ++ lf :: l).length + 1 := hlength
  rw [List.cons_append, findField, if_pos hlength', Bool.true_and, hne,
    findField_false l (fun d hd => h d (List.mem_cons_of_mem c hd))]

theorem lower_eq_colon {c : UInt8} (h : lower c = 58) :
  c = 58
  := by
  have hcases : ∀ n < 256, lower (UInt8.ofNat n) = 58 → UInt8.ofNat n = 58 := by decide +kernel
  have hc := hcases c.toNat c.toNat_lt
  rw [UInt8.ofNat_toNat] at hc
  exact hc h

/-- A field line begins with a name and a colon exactly when the field has that name. -/
theorem hasPrefix_line (name : List UInt8) (hname : ∀ c ∈ name, c ≠ 58) (n value : List UInt8)
    (hn : ∀ c ∈ n, c ≠ 58) :
  hasPrefix (name ++ [58]) (n ++ 58 :: value) = decide (n.map lower = name)
  := by
  have hcolon : lower 58 = 58 := rfl
  rw [hasPrefix, decide_eq_decide]
  induction name generalizing n with
  | nil =>
      cases n with
      | nil => simp [hcolon]
      | cons c n =>
          simp only [List.nil_append, List.length_singleton, List.cons_append, List.take_succ_cons,
            List.take_zero, List.map_cons, List.map_nil, List.cons.injEq, and_true, reduceCtorEq,
            iff_false]
          intro hc
          exact hn c List.mem_cons_self (lower_eq_colon hc)
  | cons d name ih =>
      cases n with
      | nil =>
          simp only [List.nil_append, List.cons_append, List.length_cons, List.take_succ_cons,
            List.map_cons, List.cons.injEq, hcolon, List.map_nil, reduceCtorEq, iff_false, not_and]
          intro hd
          exact absurd hd.symm (hname d List.mem_cons_self)
      | cons c n =>
          have hrest := ih (fun e he => hname e (List.mem_cons_of_mem d he)) n
            (fun e he => hn e (List.mem_cons_of_mem c he))
          simp only [List.cons_append, List.length_cons, List.take_succ_cons, List.map_cons,
            List.cons.injEq]
          rw [hrest]

/-- A name that can be looked for: of one byte at least, none of them a colon. -/
structure IsName (name : List UInt8) : Prop where
  ne_nil : name ≠ []
  ne_colon : ∀ c ∈ name, c ≠ 58

variable {ls : List (List UInt8)} {fields : List Field}

/-- The fields of a name are looked for in the lines of the fields. -/
theorem findField_fields (hname : IsName name) :
  match (fields.filter (Field.named name)).map Field.value with
  | [] => findField (name ++ [58]) true (unlines (fields.map Field.line) ++ [cr, lf]) = none
  | v :: _ => ∃ rest, findField (name ++ [58]) true (unlines (fields.map Field.line) ++ [cr, lf])
      = some (v ++ cr :: lf :: rest)
  := by
  induction fields with
  | nil =>
      apply findField_short
      have hpos := List.length_pos_iff.mpr hname.ne_nil
      simp [unlines]
      omega
  | cons f fields ih =>
      have htoken (c : UInt8) (hc : c ∈ f.name) : c ≠ 58 := (of_decide_eq_true (f.isToken c hc)).2.2
      have hlf (c : UInt8) (hc : c ∈ f.line ++ [cr]) : c ≠ lf := by
        rcases List.mem_append.mp hc with hc | hc
        · exact (ne_of_isText (f.isText_line hc)).2.1
        · rw [List.mem_singleton.mp hc]
          decide
      have hbytes : unlines ((f :: fields).map Field.line) ++ [cr, lf]
          = f.line ++ [cr] ++ lf :: (unlines (fields.map Field.line) ++ [cr, lf]) := by
        simp [unlines]
      have hprefix := hasPrefix_line name hname.ne_colon f.name
        (f.value ++ cr :: lf :: (unlines (fields.map Field.line) ++ [cr, lf])) htoken
      have hline : f.line ++ [cr] ++ lf :: (unlines (fields.map Field.line) ++ [cr, lf])
          = f.name ++ 58 :: (f.value ++ cr :: lf :: (unlines (fields.map Field.line) ++ [cr, lf])) := by
        simp [Field.line]
      rw [List.filter_cons, hbytes]
      cases hnamed : Field.named name f with
      | true =>
          have heq : f.name.map lower = name := of_decide_eq_true hnamed
          have hlen : (name ++ [58]).length
              < (f.line ++ [cr] ++ lf :: (unlines (fields.map Field.line) ++ [cr, lf])).length := by
            rw [hline, ← heq]
            simp only [List.length_append, List.length_map, List.length_cons, List.length_nil]
            omega
          rw [if_pos rfl, List.map_cons]
          use unlines (fields.map Field.line) ++ [cr, lf]
          rw [findField_true _ (by simp [Field.line]) hlf hlen, hline, hprefix, decide_eq_true heq,
            if_pos rfl]
          have hdrop : (name ++ [58]).length = (f.name ++ [58]).length := by
            rw [← heq]
            simp
          have hsplit : f.name ++ 58 :: (f.value ++ cr :: lf :: (unlines (fields.map Field.line) ++ [cr, lf]))
              = (f.name ++ [58]) ++ (f.value ++ cr :: lf :: (unlines (fields.map Field.line) ++ [cr, lf])) := by
            simp
          rw [hdrop, hsplit, List.drop_left]
      | false =>
          have hne : ¬ f.name.map lower = name := of_decide_eq_false hnamed
          rw [if_neg Bool.false_ne_true]
          have hskip : findField (name ++ [58]) true
              (f.line ++ [cr] ++ lf :: (unlines (fields.map Field.line) ++ [cr, lf]))
              = findField (name ++ [58]) true (unlines (fields.map Field.line) ++ [cr, lf]) := by
            by_cases hlen : (name ++ [58]).length
                < (f.line ++ [cr] ++ lf :: (unlines (fields.map Field.line) ++ [cr, lf])).length
            · rw [findField_true _ (by simp [Field.line]) hlf hlen, hline, hprefix,
                decide_eq_false hne, if_neg Bool.false_ne_true]
            · have hshort : (unlines (fields.map Field.line) ++ [cr, lf]).length
                  ≤ (name ++ [58]).length := by
                simp only [List.length_append, List.length_cons] at hlen ⊢
                omega
              rw [findField_short true (Nat.le_of_not_lt hlen), findField_short true hshort]
          rw [hskip]
          exact ih

/-- The fields of a name are looked for in a head: the status line does not begin with the name. -/
theorem Head.findField_bytes (h : Head) (hname : IsName name) (hfirst : name.head? ≠ some 104) :
  match h.values name with
  | [] => findField (name ++ [58]) true h.bytes = none
  | v :: _ => ∃ rest, findField (name ++ [58]) true h.bytes = some (v ++ cr :: lf :: rest)
  := by
  have hskip : findField (name ++ [58]) true h.bytes
      = findField (name ++ [58]) true (unlines (h.fields.map Field.line) ++ [cr, lf]) := by
    have hbytes : h.bytes = (text "HTTP/1.1 " ++ h.status ++ 32 :: h.reason) ++ [cr]
        ++ lf :: (unlines (h.fields.map Field.line) ++ [cr, lf]) := by
      simp [Head.bytes, Head.lines, unlines]
    have hlf (c : UInt8) (hc : c ∈ text "HTTP/1.1 " ++ h.status ++ 32 :: h.reason ++ [cr]) :
        c ≠ lf := by
      rcases List.mem_append.mp hc with hc | hc
      · exact (ne_of_isText (h.isText_lines List.mem_cons_self hc)).2.1
      · rw [List.mem_singleton.mp hc]
        decide
    have hprefix (l : List UInt8) : hasPrefix (name ++ [58]) (72 :: l) = false := by
      obtain ⟨c, n, rfl⟩ := List.exists_cons_of_ne_nil hname.ne_nil
      rw [hasPrefix, decide_eq_false_iff_not]
      intro heq
      apply hfirst
      obtain ⟨hc, -⟩ := List.cons.inj heq
      rw [← hc]
      rfl
    rw [hbytes]
    by_cases hlen : (name ++ [58]).length < (text "HTTP/1.1 " ++ h.status ++ 32 :: h.reason ++ [cr]
        ++ lf :: (unlines (h.fields.map Field.line) ++ [cr, lf])).length
    · have hhead : text "HTTP/1.1 " = 72 :: text "TTP/1.1 " := by decide
      rw [findField_true _ (by simp) hlf hlen, hhead, List.cons_append, List.cons_append,
        List.cons_append, List.cons_append, hprefix, if_neg Bool.false_ne_true]
    · have hshort : (unlines (h.fields.map Field.line) ++ [cr, lf]).length
          ≤ (name ++ [58]).length := by
        simp only [List.length_append, List.length_cons] at hlen ⊢
        omega
      rw [findField_short true (Nat.le_of_not_lt hlen), findField_short true hshort]
  rw [hskip]
  exact findField_fields hname

end

/-! ### The length and the coding -/

theorem toNat_decimalWord (n : UInt32) (cs : List UInt8) :
  (decimalWord n cs).toNat = decimal n.toNat cs % 2 ^ 32
  := by
  induction cs generalizing n with
  | nil => exact (Nat.mod_eq_of_lt n.toNat_lt).symm
  | cons c cs ih =>
      have hmod (a : Nat) (ds : List UInt8) :
          decimal (a % 2 ^ 32) ds % 2 ^ 32 = decimal a ds % 2 ^ 32 := by
        induction ds generalizing a with
        | nil => exact Nat.mod_mod _ _
        | cons d ds ih' =>
            rw [decimal, decimal, ← ih' (10 * a + _), ← ih' (10 * (a % 2 ^ 32) + _)]
            congr 2
            omega
      have hten : (10 : UInt32).toNat = 10 := rfl
      have hword : (n * 10 + (c - 48).toUInt32).toNat
          = (10 * n.toNat + (c - 48).toNat) % 2 ^ 32 := by
        rw [UInt32.toNat_add, UInt32.toNat_mul, hten, UInt8.toNat_toUInt32]
        omega
      rw [decimalWord, decimal, ih, hword, hmod]

theorem not_isDigit_of_isSpace {c : UInt8} (h : isSpace c = true) :
  isDigit c = false
  := by
  rcases of_decide_eq_true h with rfl | rfl
  · rfl
  · rfl

/-- The digits of a number in a field value. -/
theorem digits_of_number {v : List UInt8} {n : Nat} (h : IsNumber v n) (rest : List UInt8) :
  ∃ digits, ((v ++ cr :: lf :: rest).dropWhile isSpace).takeWhile isDigit = digits ∧ digits ≠ []
    ∧ decimal 0 digits = n
  := by
  obtain ⟨before, digits, after, rfl, hbefore, hafter, hdigits, hne, hn⟩ := h
  use digits
  refine ⟨?_, hne, hn⟩
  obtain ⟨d, ds, rfl⟩ := List.exists_cons_of_ne_nil hne
  have hd : ¬ isSpace d = true := by
    intro hspace
    have hdigit := hdigits d List.mem_cons_self
    rw [not_isDigit_of_isSpace hspace] at hdigit
    cases hdigit
  have hstop : (after ++ cr :: lf :: rest).takeWhile isDigit = [] := by
    cases after with
    | nil => rfl
    | cons a after =>
        rw [List.cons_append, List.takeWhile_cons_of_neg]
        rw [not_isDigit_of_isSpace (hafter a List.mem_cons_self)]
        exact Bool.false_ne_true
  have hsplit : before ++ d :: ds ++ after ++ cr :: lf :: rest
      = before ++ (d :: (ds ++ (after ++ cr :: lf :: rest))) := by
    simp
  rw [hsplit, List.dropWhile_append_of_pos hbefore, List.dropWhile_cons_of_neg hd, ← List.cons_append,
    List.takeWhile_append_of_pos hdigits, hstop, List.append_nil]

/-- The value mentions the chunked coding. -/
def Mentions (value : List UInt8) : Prop :=
  ∃ before word after, value = before ++ word ++ after ∧ word.map lower = chunked

/-- A value that ends with `chunked` mentions it. -/
theorem EndsChunked.mentions {value : List UInt8} (h : EndsChunked value) :
  Mentions value
  := by
  obtain ⟨before, word, after, heq, hword, -⟩ := h
  exact ⟨before, word, after, heq, hword⟩

/-- A word at the beginning of a line lies within its text. -/
theorem hasPrefix_chunked_iff (v rest : List UInt8) :
  hasPrefix chunked (v ++ cr :: rest) = true ↔ ∃ word after, v = word ++ after ∧ word.map lower = chunked
  := by
  have hcr : ∀ c ∈ chunked, c ≠ cr := by decide +kernel
  have hlower : lower cr = cr := rfl
  rw [hasPrefix, decide_eq_true_iff]
  generalize chunked = name at *
  induction name generalizing v with
  | nil => simp
  | cons d name ih =>
      cases v with
      | nil =>
          simp only [List.nil_append, List.length_cons, List.take_succ_cons, List.map_cons, hlower,
            List.cons.injEq]
          constructor
          · rintro ⟨hd, -⟩
            exact absurd hd.symm (hcr d List.mem_cons_self)
          · rintro ⟨word, after, hnil, hword⟩
            obtain ⟨rfl, -⟩ := List.append_eq_nil_iff.mp hnil.symm
            cases hword
      | cons c v =>
          have hrest := ih (v := v) (fun e he => hcr e (List.mem_cons_of_mem d he))
          simp only [List.cons_append, List.length_cons, List.take_succ_cons, List.map_cons,
            List.cons.injEq]
          constructor
          · rintro ⟨hc, hword⟩
            obtain ⟨word, after, rfl, hword'⟩ := hrest.mp hword
            exact ⟨c :: word, after, rfl, by rw [List.map_cons, hc, hword']⟩
          · rintro ⟨word, after, heq, hword⟩
            cases word with
            | nil => cases hword
            | cons c' word =>
                obtain ⟨rfl, rfl⟩ := List.cons.inj heq
                obtain ⟨hc, hword⟩ := List.cons.inj hword
                exact ⟨hc, hrest.mpr ⟨word, after, rfl, hword⟩⟩

/-- The loop over a field line finds what the value mentions. -/
theorem findChunked_iff {v : List UInt8} (rest : List UInt8) (hv : ∀ c ∈ v, c ≠ cr ∧ c ≠ lf) :
  findChunked (v ++ cr :: rest) = true ↔ Mentions v
  := by
  induction v with
  | nil =>
      rw [List.nil_append, findChunked, if_neg (by simp)]
      constructor
      · intro h
        cases h
      · rintro ⟨before, word, after, hnil, hword⟩
        have hlength : (before ++ word ++ after).length = 0 := by rw [← hnil]; rfl
        have hseven : word.length = 7 := by
          rw [← List.length_map (f := lower), hword]
          decide
        simp only [List.length_append] at hlength
        omega
  | cons c v ih =>
      have hrest := ih (fun d hd => hv d (List.mem_cons_of_mem c hd))
      have hprefix := hasPrefix_chunked_iff (c :: v) rest
      have hcons : Mentions (c :: v)
          ↔ (∃ word after, c :: v = word ++ after ∧ word.map lower = chunked) ∨ Mentions v := by
        constructor
        · rintro ⟨before, word, after, heq, hword⟩
          cases before with
          | nil => exact Or.inl ⟨word, after, heq, hword⟩
          | cons b before =>
              obtain ⟨-, hv'⟩ := List.cons.inj heq
              exact Or.inr ⟨before, word, after, hv', hword⟩
        · rintro (⟨word, after, heq, hword⟩ | ⟨before, word, after, heq, hword⟩)
          · exact ⟨[], word, after, heq, hword⟩
          · exact ⟨c :: before, word, after, by rw [heq]; rfl, hword⟩
      rw [List.cons_append] at hprefix ⊢
      rw [findChunked, hcons, ← hprefix, ← hrest]
      by_cases hlen : 7 ≤ (v ++ cr :: rest).length + 1
      · rw [if_pos ⟨hlen, hv c List.mem_cons_self⟩]
        split
        case isTrue h => simp [h]
        case isFalse h => simp [h]
      · rw [if_neg (fun h => hlen h.1)]
        -- less than seven bytes are left
        have hfirst : hasPrefix chunked (c :: (v ++ cr :: rest)) = false := by
          rw [hasPrefix, decide_eq_false_iff_not]
          intro heq
          have hseven : (((c :: (v ++ cr :: rest)).take chunked.length).map lower).length = 7 := by
            rw [heq]
            decide
          rw [List.length_map, List.length_take, List.length_cons] at hseven
          omega
        have hnext : findChunked (v ++ cr :: rest) = false := by
          cases hl : v ++ cr :: rest with
          | nil => rfl
          | cons d l =>
              rw [hl, List.length_cons] at hlen
              rw [findChunked, if_neg (by omega)]
        rw [hfirst, hnext]
        simp

/-! ### Responses -/

namespace Head

variable (h : Head)

theorem text_of_mem_values {name v : List UInt8} (hv : v ∈ h.values name) :
  ∀ c ∈ v, c ≠ cr ∧ c ≠ lf
  := by
  obtain ⟨f, -, rfl⟩ := List.mem_map.mp hv
  intro c hc
  obtain ⟨hcr, hlf, -⟩ := ne_of_isText (f.isText c hc)
  exact ⟨hcr, hlf⟩

theorem isName_contentLength :
  IsName contentLength
  := ⟨by decide, by decide +kernel⟩

theorem isName_transferEncoding :
  IsName transferEncoding
  := ⟨by decide, by decide +kernel⟩

/-- The length of a response is read in 32 bits. -/
theorem lengthOf_bytes {v : List UInt8} {n : Nat} (hv : h.values contentLength = [v])
    (hn : IsNumber v n) :
  ∃ w, lengthOf h.bytes = some w ∧ w.toNat = n % 2 ^ 32
  := by
  have hfield := h.findField_bytes isName_contentLength (by decide)
  rw [hv] at hfield
  obtain ⟨rest, hfield⟩ := hfield
  obtain ⟨digits, hdigits, hne, hdecimal⟩ := digits_of_number hn rest
  use decimalWord 0 digits
  rw [lengthOf, hfield]
  dsimp only
  rw [hdigits, if_neg hne, toNat_decimalWord]
  exact ⟨rfl, by rw [← hdecimal]; rfl⟩

theorem lengthOf_none (hv : h.values contentLength = []) :
  lengthOf h.bytes = none
  := by
  have hfield := h.findField_bytes isName_contentLength (by decide)
  rw [hv] at hfield
  rw [lengthOf, hfield]

/-- The first field `Transfer-Encoding` decides. -/
theorem isChunked_bytes :
  isChunked h.bytes = true ↔ ∃ v ∈ (h.values transferEncoding).head?, Mentions v
  := by
  have hfield := h.findField_bytes isName_transferEncoding (by decide)
  have htext (v : List UInt8) := @text_of_mem_values h transferEncoding v
  rw [isChunked]
  cases hvalues : h.values transferEncoding with
  | nil =>
      rw [hvalues] at hfield
      rw [hfield]
      simp
  | cons v vs =>
      rw [hvalues] at hfield
      obtain ⟨rest, hfield⟩ := hfield
      rw [hfield]
      dsimp only
      rw [findChunked_iff _ (htext v (by rw [hvalues]; exact List.mem_cons_self))]
      simp

theorem length_bytes :
  4 ≤ h.bytes.length
  := by
  simp [bytes, lines, unlines]
  omega

end Head

/-- The decision for the part of a response of a given length. -/
theorem check_take (h : Head) {body : List UInt8} {k : Nat} (hk : k ≤ (h.bytes ++ body).length) :
  checkHttpResponseComplete ((h.bytes ++ body).take k)
    = if h.bytes.length ≤ k ∧ h.bytes.length ≤ 8192 then
        match lengthOf h.bytes with
        | some clVal => decide (UInt32.ofNat h.bytes.length + clVal ≤ UInt32.ofNat k)
        | none =>
            if isChunked h.bytes then
              decide (h.bytes.length + 5 ≤ k
                ∧ (lastBytes 5 ((h.bytes ++ body).take k) = finalBytes
                  ∨ (h.bytes.length + 7 ≤ k
                    ∧ lastBytes 7 ((h.bytes ++ body).take k) = cr :: lf :: finalBytes)))
            else false
      else false
  := by
  have hfour := h.length_bytes
  have hlength : ((h.bytes ++ body).take k).length = k := by
    rw [List.length_take]
    omega
  rw [checkHttpResponseComplete, hlength]
  by_cases hwithin : h.bytes.length ≤ k ∧ h.bytes.length ≤ 8192
  · rw [if_neg (by omega), if_pos hwithin]
    have hscan : ((h.bytes ++ body).take k).take (if k < 8192 then k else 8192)
        = h.bytes ++ body.take ((if k < 8192 then k else 8192) - h.bytes.length) := by
      rw [List.take_take, List.take_append, List.take_of_length_le]
      · congr 2
        split <;> omega
      · split <;> omega
    have hhead : ((h.bytes ++ body).take k).take h.bytes.length = h.bytes := by
      rw [List.take_take, min_eq_left hwithin.1, List.take_left]
    rw [hscan, h.headerEnd_bytes]
    dsimp only
    rw [hhead]
  · rw [if_neg hwithin]
    split
    case isTrue => rfl
    case isFalse =>
      have hscan : ((h.bytes ++ body).take k).take (if k < 8192 then k else 8192)
          = h.bytes.take (if k < 8192 then k else 8192) := by
        rw [List.take_take, List.take_append_of_le_length]
        · congr 1
          split <;> omega
        · split <;> omega
      have hnone : headerEnd (h.bytes.take (if k < 8192 then k else 8192)) = none := by
        apply h.headerEnd_take
        split <;> omega
      rw [hscan, hnone]

/-- For every part of the response that has been received, the function says whether it is the whole
response. -/
def CompleteLaw (h : Head) (body : List UInt8) : Prop :=
  ∀ k ≤ (h.bytes ++ body).length, k < 2 ^ 32 →
    (checkHttpResponseComplete ((h.bytes ++ body).take k) = true ↔ k = (h.bytes ++ body).length)

/-- The function finds the end of the head and how the body is framed. -/
def Detected (h : Head) : Prop :=
  h.bytes.length ≤ 8192
    ∧ (h.values contentLength ≠ [] ∨ ∃ v ∈ (h.values transferEncoding).head?, Mentions v)

/-- Of the parts of a chunked body that can have been received, the whole body ends with the five
bytes, and no other part does. -/
def EndsOnce (h : Head) (body : List UInt8) : Prop :=
  ∀ k ≤ body.length, h.bytes.length + k < 2 ^ 32 →
    (5 ≤ k ∧ lastBytes 5 (body.take k) = finalBytes ↔ k = body.length)

/-- When the function is right for a response. -/
structure CompleteWhen (h : Head) (body : List UInt8) : Prop where
  /-- a response with a length has less than 4 GiB -/
  length : Detected h → h.values contentLength ≠ [] → (h.bytes ++ body).length < 2 ^ 32
  chunked : Detected h → h.values contentLength = [] → EndsOnce h body
  /-- any other response cannot be received as a whole -/
  undetected : ¬ Detected h → 2 ^ 32 ≤ (h.bytes ++ body).length

section

variable {h : Head} {body : List UInt8}

/-- A function that never reports a whole response is right when none can be received. -/
theorem completeLaw_of_false (hfalse : ∀ k ≤ (h.bytes ++ body).length,
      checkHttpResponseComplete ((h.bytes ++ body).take k) = false) :
  CompleteLaw h body ↔ 2 ^ 32 ≤ (h.bytes ++ body).length
  := by
  constructor
  · intro hlaw
    by_contra hlt
    have hwhole := (hlaw _ le_rfl (Nat.lt_of_not_le hlt)).mpr rfl
    rw [hfalse _ le_rfl] at hwhole
    cases hwhole
  · intro hle k hk hlt
    rw [hfalse k hk]
    constructor
    · intro h
      cases h
    · intro heq
      omega

/-- A response with a length. -/
theorem completeLaw_length {v : List UInt8} (hhead : h.bytes.length ≤ 8192)
    (hv : h.values contentLength = [v]) (hn : IsNumber v body.length) :
  CompleteLaw h body ↔ (h.bytes ++ body).length < 2 ^ 32
  := by
  obtain ⟨w, hw, hmod⟩ := h.lengthOf_bytes hv hn
  have hcheck (k : Nat) (hk : k ≤ (h.bytes ++ body).length) (hlt : k < 2 ^ 32) :
      checkHttpResponseComplete ((h.bytes ++ body).take k) = true
        ↔ h.bytes.length ≤ k ∧ (h.bytes ++ body).length % 2 ^ 32 ≤ k := by
    rw [check_take h hk, hw]
    by_cases hle : h.bytes.length ≤ k
    · rw [if_pos ⟨hle, hhead⟩, decide_eq_true_iff, UInt32.le_iff_toNat_le, UInt32.toNat_add, hmod,
        UInt32.toNat_ofNat_of_lt' hlt, UInt32.toNat_ofNat_of_lt' (hle.trans_lt hlt), List.length_append]
      omega
    · rw [if_neg (fun h => hle h.1)]
      simp [hle]
  constructor
  · intro hlaw
    by_contra hlarge
    -- a part that the wrapped length admits
    have hk := hlaw (max h.bytes.length ((h.bytes ++ body).length % 2 ^ 32)) (by omega) (by omega)
    rw [hcheck _ (by omega) (by omega)] at hk
    have heq := hk.mp ⟨le_max_left _ _, le_max_right _ _⟩
    omega
  · intro hlt k hk hk'
    rw [hcheck k hk hk', Nat.mod_eq_of_lt hlt]
    rw [List.length_append] at *
    omega

/-- The last bytes of a part of a response that ends in the body are those of the part of the
body. -/
theorem lastBytes_append (n : Nat) (a : List UInt8) {b : List UInt8} (hn : n ≤ b.length) :
  lastBytes n (a ++ b) = lastBytes n b
  := by
  have hlength : (a ++ b).length - n = a.length + (b.length - n) := by
    rw [List.length_append]
    omega
  rw [lastBytes, lastBytes, hlength, List.drop_append, List.drop_eq_nil_of_le (by omega)]
  simp

/-- The second test of the function adds nothing to the first. -/
theorem lastBytes_seven {l : List UInt8} (h : lastBytes 7 l = cr :: lf :: finalBytes) :
  lastBytes 5 l = finalBytes
  := by
  have hdrop : (lastBytes 7 l).drop 2 = finalBytes := by
    rw [h]
    rfl
  have hlength : (lastBytes 7 l).length = 7 := by
    rw [h]
    rfl
  rw [lastBytes, List.length_drop] at hlength
  rw [lastBytes, List.drop_drop] at hdrop
  rw [← hdrop, lastBytes]
  congr 1
  omega

/-- A response in chunked coding that is found to be so. -/
theorem completeLaw_chunked (hhead : h.bytes.length ≤ 8192) (hv : h.values contentLength = [])
    (hmentions : ∃ v ∈ (h.values transferEncoding).head?, Mentions v) (hfive : 5 ≤ body.length) :
  CompleteLaw h body ↔ EndsOnce h body
  := by
  have hcheck (k : Nat) (hk : k ≤ body.length) :
      checkHttpResponseComplete ((h.bytes ++ body).take (h.bytes.length + k)) = true
        ↔ 5 ≤ k ∧ lastBytes 5 (body.take k) = finalBytes := by
    have htake : (h.bytes ++ body).take (h.bytes.length + k) = h.bytes ++ body.take k :=
      List.take_length_add_append k
    rw [check_take h (by rw [List.length_append]; omega), h.lengthOf_none hv,
      if_pos ⟨Nat.le_add_right _ _, hhead⟩, if_pos (h.isChunked_bytes.mpr hmentions), htake,
      decide_eq_true_iff]
    constructor
    · rintro ⟨hle, hfinal⟩
      have hk' : 5 ≤ (body.take k).length := by
        rw [List.length_take]
        omega
      use by omega
      rw [← lastBytes_append 5 h.bytes hk']
      rcases hfinal with hfinal | ⟨-, hfinal⟩
      · exact hfinal
      · exact lastBytes_seven hfinal
    · rintro ⟨hle, hfinal⟩
      have hk' : 5 ≤ (body.take k).length := by
        rw [List.length_take]
        omega
      use by omega
      left
      rw [lastBytes_append 5 h.bytes hk', hfinal]
  constructor
  · intro hlaw k hk hlt
    rw [← hcheck k hk, hlaw _ (by rw [List.length_append]; omega) hlt, List.length_append]
    omega
  · intro hends k hk hlt
    by_cases hle : h.bytes.length ≤ k
    · obtain ⟨j, rfl⟩ := Nat.exists_eq_add_of_le hle
      rw [List.length_append] at hk ⊢
      rw [hcheck j (by omega), hends j (by omega) hlt]
      omega
    · rw [check_take h hk, if_neg (fun h => hle h.1), List.length_append]
      constructor
      · intro h
        cases h
      · intro heq
        omega

theorem length_of_isChunkedBody {b : ChunkedBody} (hbody : IsChunkedBody body b) :
  5 ≤ body.length
  := by
  obtain ⟨rfl, fields, htrailer⟩ := hbody
  have hpos := List.length_pos_iff.mpr b.last.ne_nil
  rw [ChunkedBody.bytes, htrailer, SizeLine.bytes]
  simp only [List.length_append, List.length_cons, List.length_nil]
  omega

/-- The function is right about every part of a response exactly when `CompleteWhen` holds. -/
theorem completeLaw_iff (hframing : Framing h body)
    (hdeclared : h.values contentLength ≠ [] ∨ h.values transferEncoding ≠ []) :
  CompleteLaw h body ↔ CompleteWhen h body
  := by
  by_cases hdetected : Detected h
  · have hwhen : CompleteWhen h body ↔ (h.values contentLength ≠ [] → (h.bytes ++ body).length < 2 ^ 32)
        ∧ (h.values contentLength = [] → EndsOnce h body) :=
      ⟨fun hw => ⟨hw.length hdetected, hw.chunked hdetected⟩,
        fun hw => ⟨fun _ => hw.1, fun _ => hw.2, fun hnot => (hnot hdetected).elim⟩⟩
    rw [hwhen]
    obtain ⟨hhead, hfound⟩ := hdetected
    cases hframing with
    | length v hv hn hnone =>
        rw [completeLaw_length hhead hv hn, hv]
        simp
    | chunked b v hlast hends hnone hbody =>
        have hmentions := hfound.resolve_left (fun hne => hne hnone)
        rw [completeLaw_chunked hhead hnone hmentions (length_of_isChunkedBody hbody), hnone]
        simp
    | close hnone hnone' => exact absurd hdeclared (by simp [hnone, hnone'])
  · have hwhen : CompleteWhen h body ↔ 2 ^ 32 ≤ (h.bytes ++ body).length :=
      ⟨fun hw => hw.undetected hdetected,
        fun hle => ⟨fun hd => (hdetected hd).elim, fun hd => (hdetected hd).elim, fun _ => hle⟩⟩
    rw [hwhen]
    apply completeLaw_of_false
    intro k hk
    rw [check_take h hk]
    split
    case isFalse => rfl
    case isTrue hle =>
      -- the head is within the limit, so that the coding is not found
      have hnot : ¬ (h.values contentLength ≠ [] ∨ ∃ v ∈ (h.values transferEncoding).head?, Mentions v) :=
        fun hfound => hdetected ⟨hle.2, hfound⟩
      have hnone : h.values contentLength = [] := by
        by_contra hne
        exact hnot (Or.inl hne)
      rw [h.lengthOf_none hnone]
      dsimp only
      rw [if_neg]
      intro hchunked
      exact hnot (Or.inr (h.isChunked_bytes.mp hchunked))

end

/-- A head with one field. -/
def headWith (name value : List UInt8) (hne : name ≠ []) (hname : ∀ c ∈ name, isToken c = true)
    (hvalue : ∀ c ∈ value, isText c = true) : Head where
  status := text "200"
  reason := text "OK"
  fields := [⟨name, value, hne, hname, hvalue⟩]
  length := by decide
  isDigit := by decide +kernel
  isText := by decide +kernel

theorem contentLength_ne_nil :
  text "Content-Length" ≠ []
  := by
  decide

theorem contentLength_isToken :
  ∀ c ∈ text "Content-Length", isToken c = true
  := by
  decide +kernel

/-- A head with the length 1. -/
def oneByteHead : Head :=
  headWith (text "Content-Length") (text " 1") contentLength_ne_nil contentLength_isToken
    (by decide +kernel)

theorem oneByteHead_framing :
  Framing oneByteHead [65]
  := by
  apply Framing.length (text " 1")
  · decide +kernel
  · exact ⟨[32], [49], [], rfl, by decide +kernel, by decide +kernel, by decide +kernel, by decide,
      by decide⟩
  · decide +kernel

/-- The case of a body of one byte. -/
theorem completeLaw_iff_one :
  CompleteLaw oneByteHead [65] ↔ CompleteWhen oneByteHead [65]
  := completeLaw_iff oneByteHead_framing (Or.inl (by decide +kernel))

/-- A head that declares chunked coding. -/
def chunkedHead : Head :=
  headWith (text "Transfer-Encoding") (text " chunked") (by decide) (by decide +kernel)
    (by decide +kernel)

/-- A chunk whose data are the five bytes that the function looks for. -/
def finalChunk : ChunkedBody where
  chunks :=
    [{ line := ⟨[53], [], by decide +kernel, by decide, SizeLine.line_nil, SizeLine.separate_nil⟩
       data := finalBytes
       size := by decide
       ne_nil := by decide }]
  last := SizeLine.zero
  trailer := [cr, lf]
  size := SizeLine.size_zero

/-- The response with that chunk is reported to be complete when the chunk has been received. -/
theorem not_completeLaw :
  Framing chunkedHead finalChunk.bytes ∧ ¬ CompleteLaw chunkedHead finalChunk.bytes
  := by
  constructor
  · apply Framing.chunked finalChunk (text " chunked")
    · decide +kernel
    · exact ⟨[32], text "chunked", [], rfl, rfl, by decide +kernel, by decide +kernel⟩
    · decide +kernel
    · exact ⟨rfl, [], rfl⟩
  · intro h
    have hearly := h (chunkedHead.bytes.length + 8) (by decide +kernel) (by decide +kernel)
    exact absurd (hearly.mp (by decide +kernel)) (by decide +kernel)

end Http
