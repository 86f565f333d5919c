import Woos.Browser.Parser

/-!
# The parser stays within the page

A round of the loop reads the text no further than its NUL, writes within the buffers and the tables,
and moves the pointer on, but for two kinds of rounds.  One copies a character whose last bytes the
NUL cuts off: the pointer stops at the NUL, and the end of the round takes it behind.  The other
evaluates a script that does not come back.  A page without such rounds is parsed, and no other.
-/

namespace Browser

variable {env : Env} {t : List UInt8}

/-! ### Buffers -/

theorem put_of_lt {size : Nat} {buf : List UInt8} (h : buf.length < size) (c : UInt8) :
  put size buf c = some (buf ++ [c])
  := if_pos h

theorem terminate_of_lt {size : Nat} {buf : List UInt8} (h : buf.length < size) :
  terminate size buf = some buf
  := if_pos h

theorem putAll_of_le {size : Nat} {buf s : List UInt8} (h : buf.length + s.length ≤ size) :
  putAll size buf s = some (buf ++ s)
  := by
  induction s generalizing buf with
  | nil => rw [putAll, List.append_nil]
  | cons c s ih =>
      rw [List.length_cons] at h
      rw [putAll, put_of_lt (by omega), Option.bind_some, ih]
      · rw [List.append_assoc, List.singleton_append]
      · rw [List.length_append, List.length_singleton]
        omega

/-- A byte that is put into a buffer when the buffer stays below a limit. -/
theorem put_room {size limit bound : Nat} (hsize : limit ≤ size) (hlimit : limit ≤ bound)
    {buf : List UInt8} (h : buf.length < bound) (c : UInt8) :
  ∃ buf', (if buf.length + 1 < limit then put size buf c else some buf) = some buf' ∧
    buf'.length < bound
  := by
  split
  · use buf ++ [c], put_of_lt (by omega) c
    rw [List.length_append, List.length_singleton]
    omega
  · exact ⟨buf, rfl, h⟩

/-- Bytes that are put into a buffer when the buffer stays below a limit. -/
theorem putAll_room {size limit bound : Nat} (hsize : limit ≤ size) (hlimit : limit ≤ bound)
    {buf s : List UInt8} (h : buf.length < bound) :
  ∃ buf', (if s.length > 0 ∧ buf.length + s.length < limit then putAll size buf s
      else some buf) = some buf' ∧ buf'.length < bound
  := by
  split
  · use buf ++ s, putAll_of_le (by omega)
    rw [List.length_append]
    omega
  · exact ⟨buf, rfl, h⟩

/-! ### Searches -/

/-- The closing tag of an element is in front of the NUL. -/
theorem closesAt_of_le {p : Nat} (h : p ≤ t.length) (name : List UInt8) :
  ∃ b, closesAt t p name = some b ∧ (b = true → p + 2 + name.length ≤ t.length)
  := by
  have hno : ∃ b, some false = some b ∧ (b = true → p + 2 + name.length ≤ t.length) :=
    ⟨false, rfl, fun hfalse => nomatch hfalse⟩
  obtain ⟨opens, hopens, hle⟩ := matchAt_of_le id rfl h (ascii "</")
  rw [closesAt, hopens, Option.bind_some]
  split
  · have hopen : p + 2 ≤ t.length := hle ‹_›
    obtain ⟨same, hsame, hle⟩ := matchAt_of_le lower rfl hopen name
    rw [hsame, Option.bind_some]
    split
    · rw [get_of_le (hle ‹_›), Option.map_some]
      exact ⟨_, rfl, fun _ => hle ‹_›⟩
    · exact hno
  · exact hno

theorem afterClose_of_le {p : Nat} {name : List UInt8} (h : p + 2 + name.length ≤ t.length) :
  ∃ q, afterClose t p name = some q ∧ p < q ∧ q ≤ t.length
  := by
  obtain ⟨r, hr, hbound⟩ := findByte_of_le (t := t) (i := p) (by omega) 62
  rw [afterClose, hr, Option.map_some]
  refine ⟨_, rfl, ?_⟩
  cases r with
  | none =>
      dsimp only
      omega
  | some q =>
      obtain ⟨hle, hlt⟩ := hbound q rfl
      dsimp only
      omega

/-- The text behind a character that is given by its number. -/
theorem numericEntity_of_lt {p : Nat} (h : p < t.length) :
  ∃ r, numericEntity t p = some r ∧ ∀ cp q, r = some (cp, q) → p < q ∧ q ≤ t.length
  := by
  have hno : ∃ r : Option (UInt32 × Nat),
      some none = some r ∧ ∀ cp q, r = some (cp, q) → p < q ∧ q ≤ t.length :=
    ⟨none, rfl, fun _ _ hnone => nomatch hnone⟩
  rw [numericEntity, get_of_le h, Option.bind_some]
  split
  · rename_i hhash
    have hget : get t (p + 1) = some 35 := by rw [get_of_le h, hhash]
    obtain ⟨r, hr, hbound⟩ := findByte_of_le (Nat.le_of_lt h) 59
    rw [hr, Option.bind_some]
    cases r with
    | none => exact hno
    | some semi =>
        dsimp only
        split
        · rw [get_of_le (lt_of_get hget (by decide)), Option.map_some]
          refine ⟨_, rfl, ?_⟩
          intro cp q hq
          obtain ⟨hle, hlt⟩ := hbound semi rfl
          have hnext : semi + 1 = q := by
            split at hq
            all_goals exact congrArg Prod.snd (Option.some.inj hq)
          omega
        · exact hno
  · exact hno

/-- An entity that has a name is in front of the NUL. -/
theorem namedEntity_of_le {p : Nat} (h : p ≤ t.length) {list : List (String × UInt8)}
    (hlist : ∀ e ∈ list, 0 < (ascii e.1).length) :
  ∃ r, namedEntity t p list = some r ∧
    ∀ len c, r = some (len, c) → 0 < len ∧ p + len ≤ t.length
  := by
  induction list with
  | nil => exact ⟨none, rfl, fun _ _ hnone => nomatch hnone⟩
  | cons e list ih =>
      obtain ⟨same, hsame, hle⟩ := matchAt_of_le id rfl h (ascii e.1)
      rw [namedEntity, hsame, Option.bind_some]
      split
      · refine ⟨_, rfl, ?_⟩
        intro len c hlen
        have : (ascii e.1).length = len := congrArg Prod.fst (Option.some.inj hlen)
        rw [← this]
        exact ⟨hlist e (List.mem_cons_self ..), hle ‹_›⟩
      · apply ih
        intro e he
        exact hlist e (List.mem_cons_of_mem _ he)

theorem entities_length :
  ∀ e ∈ entities, 0 < (ascii e.1).length
  := by decide

/-! ### Characters -/

theorem charLen_pos (c : UInt8) :
  0 < charLen c
  := by
  rw [charLen]
  split_ifs
  all_goals decide

theorem charLen_of_lt {c : UInt8} (h : c < 0xC0) :
  charLen c = 1
  := by
  have hc : c.toNat < 192 := h
  have hno {a b : UInt8} (ha : 192 ≤ a.toNat) : ¬ (c ≥ a ∧ c ≤ b) := by
    rintro ⟨hac, -⟩
    have : a.toNat ≤ c.toNat := hac
    omega
  rw [charLen, if_neg (hno (by decide)), if_neg (hno (by decide)), if_neg (hno (by decide))]

/-- No byte of the text is a NUL. -/
theorem get_ne_zero (ht : ∀ b ∈ t, b ≠ 0) {p : Nat} (h : p < t.length) :
  t.getD p 0 ≠ 0
  := by
  rw [List.getD_eq_getElem _ _ h]
  exact ht _ (List.getElem_mem h)

/-- A character in front of the NUL is copied, and the pointer stays at its last byte. -/
theorem copyChar_of_lt (ht : ∀ b ∈ t, b ≠ 0) {left p : Nat} (h : p + left < t.length)
    {word : List UInt8} (hroom : word.length + left < wordSize) :
  ∃ word', copyChar t (left + 1) p word = some (p + left, word') ∧
    word'.length = word.length + (left + 1)
  := by
  induction left generalizing p word with
  | zero =>
      rw [Nat.add_zero] at h hroom
      rw [copyChar, get_of_le (by omega), Option.bind_some, if_pos (get_ne_zero ht h),
        put_of_lt hroom, Option.bind_some, if_neg (Nat.lt_irrefl 0), copyChar]
      use word ++ [t.getD p 0], rfl
      rw [List.length_append, List.length_singleton]
  | succ left ih =>
      rw [copyChar, get_of_le (by omega), Option.bind_some,
        if_pos (get_ne_zero ht (by omega)), put_of_lt (by omega), Option.bind_some,
        if_pos (Nat.succ_pos left)]
      have hnext : (word ++ [t.getD p 0]).length + left < wordSize := by
        rw [List.length_append, List.length_singleton]
        omega
      obtain ⟨word', hword', hlen⟩ := ih (show p + 1 + left < t.length by omega) hnext
      rw [List.length_append, List.length_singleton] at hlen
      rw [hword']
      refine ⟨word', ?_, by omega⟩
      rw [Nat.add_right_comm, Nat.add_assoc]

/-- A character that the NUL cuts off leaves the pointer at the NUL. -/
theorem copyChar_cut (ht : ∀ b ∈ t, b ≠ 0) {left p : Nat} (hle : p ≤ t.length)
    (hcut : t.length < p + left) {word : List UInt8} (hroom : word.length + left < wordSize) :
  ∃ word', copyChar t left p word = some (t.length, word')
  := by
  induction left generalizing p word with
  | zero => omega
  | succ left ih =>
      rw [copyChar, get_of_le hle, Option.bind_some]
      split
      · rename_i hne
        have hlt := lt_of_get (get_of_le hle) hne
        rw [put_of_lt (by omega), Option.bind_some, if_pos (by omega)]
        apply ih hlt (by omega)
        rw [List.length_append, List.length_singleton]
        omega
      · rename_i hzero
        have : ¬ p < t.length := fun hlt => hzero (get_ne_zero ht hlt)
        have : p = t.length := by omega
        use word
        rw [this]

/-! ### A round -/

/-- The pointer is within the text, and the buffers and the tables are within their sizes. -/
structure Ok (t : List UInt8) (s : Parser) : Prop where
  p : s.p ≤ t.length
  script : s.scriptBuf.length < scriptSize
  tag : s.tagBuf.length < tagSize
  title : s.titleBuf.length < titleSize
  word : s.wordBuf.length < wordSize - 1
  page : s.doc.page.Ok

/-- A round that reads no further than the NUL, writes within the buffers and the tables, and leads
on in the text, or out of the loop, or to a script that does not come back. -/
def Good (env : Env) (t : List UInt8) (s : Parser) : (round : Option Step) → Prop
  | none => False
  | some (.next s') => Ok t s' ∧ s.p < s'.p
  | some (.stop s') => Ok t s'
  | some (.script code) => env.script s.scripts code = false

variable {s : Parser}

theorem good_next {f : Parser} (h : Ok t f) (hlt : s.p < f.p) :
  Good env t s (some (.next f))
  := ⟨h, hlt⟩

theorem stepScript_good (h : Ok t s) (hlt : s.p < t.length) :
  Good env t s (stepScript env t s)
  := by
  obtain ⟨closes, hcloses, hle⟩ := closesAt_of_le h.p (ascii "script")
  rw [stepScript, hcloses, Option.bind_some]
  split
  · have hcode : (if s.scriptBuf.length > 0 then terminate scriptSize s.scriptBuf
        else some s.scriptBuf) = some s.scriptBuf := by
      rw [terminate_of_lt h.script, ite_self]
    rw [hcode, Option.bind_some]
    dsimp only
    split
    · rename_i hleaves
      exact hleaves.2
    · obtain ⟨q, hq, hpq, hqt⟩ := afterClose_of_le (hle ‹_›)
      rw [hq, Option.map_some]
      apply good_next _ hpq
      exact { p := hqt, script := Nat.succ_pos _, tag := h.tag, title := h.title, word := h.word,
              page := h.page }
  · obtain ⟨buf, hbuf, hsize⟩ := put_room (Nat.le_refl _) (Nat.le_refl _) h.script (t.getD s.p 0)
    rw [get_of_le h.p, Option.bind_some, hbuf, Option.map_some]
    apply good_next _ (Nat.lt_succ_self s.p)
    exact { p := hlt, script := hsize, tag := h.tag, title := h.title, word := h.word,
            page := h.page }

theorem stepRaw_good (h : Ok t s) (hlt : s.p < t.length) (name : List UInt8)
    {leave : Parser → Nat → Parser}
    (hleave : ∀ p, s.p < p → p ≤ t.length → Ok t (leave s p) ∧ s.p < (leave s p).p) :
  Good env t s (stepRaw t s name leave)
  := by
  obtain ⟨closes, hcloses, hle⟩ := closesAt_of_le h.p name
  rw [stepRaw, hcloses, Option.bind_some]
  split
  · obtain ⟨q, hq, hpq, hqt⟩ := afterClose_of_le (hle ‹_›)
    rw [hq, Option.map_some]
    exact hleave q hpq hqt
  · apply good_next _ (Nat.lt_succ_self s.p)
    exact { h with p := hlt }

/-- The word that has been read goes to the page. -/
theorem flushWord_ok (h : Ok t s) (env : Env) :
  ∃ s', flushWord env s = some s' ∧ Ok t s' ∧ s'.p = s.p
  := by
  rw [flushWord]
  split
  · obtain ⟨doc, hdoc, hpage⟩ := Doc.addWord_safe h.page env s.wordBuf
    rw [terminate_of_lt (Nat.lt_of_lt_pred h.word), Option.bind_some, hdoc, Option.map_some]
    refine ⟨_, rfl, ?_, rfl⟩
    exact { p := h.p, script := h.script, tag := h.tag, title := h.title, word := Nat.succ_pos _,
            page := hpage }
  · exact ⟨s, rfl, h, rfl⟩

theorem stepOpen_good (h : Ok t s) (hlt : s.p < t.length) :
  Good env t s (stepOpen env s)
  := by
  obtain ⟨s', hs', hok, hp⟩ := flushWord_ok h env
  rw [stepOpen, hs', Option.map_some]
  apply good_next
  · exact { p := by rw [hp]; exact hlt, script := hok.script, tag := Nat.succ_pos _,
            title := hok.title, word := hok.word, page := hok.page }
  · rw [hp]
    apply Nat.lt_succ_self

/-- The end of a tag. -/
theorem closeTag_ok (h : Ok t s) (env : Env) :
  ∃ s', closeTag env s = some s' ∧ Ok t s' ∧ s'.p = s.p
  := by
  rw [closeTag, terminate_of_lt h.tag, Option.bind_some]
  extract_lets selfClosing doc s₁
  have hdoc : doc.page.Ok := by
    have hhide : doc.page = s.doc.page := by
      unfold doc
      split
      · rfl
      · rfl
    rw [hhide]
    exact h.page
  have h₁ : Ok t s₁ :=
    { p := h.p, script := h.script, tag := h.tag, title := h.title, word := h.word, page := hdoc }
  split
  · split
    · exact ⟨_, rfl, { h₁ with }, rfl⟩
    · exact ⟨_, rfl, { h₁ with script := Nat.succ_pos _ }, rfl⟩
  split
  · exact ⟨_, rfl, { h₁ with }, rfl⟩
  split
  · exact ⟨_, rfl, { h₁ with }, rfl⟩
  split
  · exact ⟨_, rfl, { h₁ with title := Nat.succ_pos _ }, rfl⟩
  split
  · rw [terminate_of_lt h₁.title, Option.map_some]
    refine ⟨_, rfl, { h₁ with page := ?_ }, rfl⟩
    exact ⟨hdoc.boxes, hdoc.links, hdoc.inputs, hdoc.images⟩
  · obtain ⟨doc', hdoc', hpage⟩ := Doc.tag_safe hdoc env s.tagBuf
    rw [hdoc', Option.map_some]
    exact ⟨_, rfl, { h₁ with page := hpage }, rfl⟩

theorem stepTag_good (h : Ok t s) (hlt : s.p < t.length) (c : UInt8) :
  Good env t s (stepTag env s c)
  := by
  unfold stepTag
  extract_lets quote
  split
  · obtain ⟨s', hs', hok, hp⟩ := closeTag_ok (show Ok t { s with tagQuote := quote } from { h with }) env
    change s'.p = s.p at hp
    rw [hs', Option.map_some]
    apply good_next
    · exact { hok with p := by rw [hp]; exact hlt }
    · rw [hp]
      apply Nat.lt_succ_self
  · obtain ⟨buf, hbuf, hsize⟩ := put_room (Nat.le_refl _) (Nat.le_refl _) h.tag c
    rw [hbuf, Option.map_some]
    apply good_next _ (Nat.lt_succ_self s.p)
    exact { h with p := hlt, tag := hsize }

theorem stepTitle_good (h : Ok t s) (hlt : s.p < t.length) (c : UInt8) :
  Good env t s (stepTitle t s c)
  := by
  have hplain : Good env t s
      ((if s.titleBuf.length + 1 < titleSize then put titleSize s.titleBuf c
        else some s.titleBuf).map fun buf =>
          .next { s with titleBuf := buf, p := s.p + 1 }) := by
    obtain ⟨buf, hbuf, hsize⟩ := put_room (Nat.le_refl _) (Nat.le_refl _) h.title c
    rw [hbuf, Option.map_some]
    apply good_next _ (Nat.lt_succ_self s.p)
    exact { h with p := hlt, title := hsize }
  rw [stepTitle]
  split
  · obtain ⟨r, hr, hbound⟩ := numericEntity_of_lt hlt
    rw [hr, Option.bind_some]
    cases r with
    | none => exact hplain
    | some r =>
        obtain ⟨cp, q⟩ := r
        obtain ⟨hpq, hqt⟩ := hbound cp q rfl
        dsimp only
        obtain ⟨buf, hbuf, hsize⟩ := putAll_room (s := Utf8.encodeCodepoint cp)
          (Nat.sub_le titleSize 1) (Nat.sub_le titleSize 1) h.title
        rw [hbuf, Option.map_some]
        apply good_next _ hpq
        exact { h with p := hqt, title := hsize }
  · exact hplain

theorem stepWord_good (ht : ∀ b ∈ t, b ≠ 0) (h : Ok t s) (hlt : s.p < t.length)
    (hcut : s.p + charLen (t.getD s.p 0) ≤ t.length ∨
      127 ≤ s.wordBuf.length + charLen (t.getD s.p 0)) :
  Good env t s (stepWord env t s (t.getD s.p 0))
  := by
  rw [stepWord]
  split
  · obtain ⟨s', hs', hok, hp⟩ := flushWord_ok h env
    rw [hs', Option.map_some]
    apply good_next
    · exact { hok with p := by rw [hp]; exact hlt }
    · rw [hp]
      apply Nat.lt_succ_self
  split
  · rename_i hroom
    obtain ⟨left, hleft⟩ := Nat.exists_eq_add_one.mpr (charLen_pos (t.getD s.p 0))
    have hwhole : s.p + left < t.length := by omega
    have hfits : s.wordBuf.length + left < wordSize := show _ < 128 by omega
    obtain ⟨word, hword, hlen⟩ := copyChar_of_lt ht hwhole hfits
    rw [hleft, hword, Option.map_some]
    apply good_next
    · exact { h with p := hwhole, word := show word.length < 127 by omega }
    · change s.p < s.p + left + 1
      omega
  · apply good_next _ (Nat.lt_succ_self s.p)
    exact { h with p := hlt }

/-- What the text or an entity puts for itself, or else a byte of a word. -/
theorem stepText_good (ht : ∀ b ∈ t, b ≠ 0) (h : Ok t s) (hlt : s.p < t.length)
    (hcut : s.p + charLen (t.getD s.p 0) ≤ t.length ∨
      127 ≤ s.wordBuf.length + charLen (t.getD s.p 0)) :
  Good env t s (stepText env t s (t.getD s.p 0))
  := by
  rw [stepText]
  split
  · obtain ⟨r, hr, hbound⟩ := numericEntity_of_lt hlt
    rw [hr, Option.bind_some]
    cases r with
    | some r =>
        obtain ⟨cp, q⟩ := r
        obtain ⟨hpq, hqt⟩ := hbound cp q rfl
        dsimp only
        obtain ⟨word, hword, hsize⟩ := putAll_room (s := Utf8.encodeCodepoint cp)
          (show 127 ≤ wordSize by decide) (Nat.le_refl 127) h.word
        rw [hword, Option.map_some]
        apply good_next _ hpq
        exact { h with p := hqt, word := hsize }
    | none =>
        obtain ⟨e, he, hbound⟩ := namedEntity_of_le (Nat.le_of_lt hlt) entities_length
        dsimp only
        rw [he, Option.bind_some]
        cases e with
        | some e =>
            obtain ⟨len, c⟩ := e
            obtain ⟨hlen, hle⟩ := hbound len c rfl
            dsimp only
            obtain ⟨word, hword, hsize⟩ := put_room
              (show 127 ≤ wordSize by decide) (Nat.le_refl 127) h.word c
            rw [hword, Option.map_some]
            apply good_next
            · exact { h with p := hle, word := hsize }
            · exact Nat.lt_add_of_pos_right hlen
        | none => exact stepWord_good ht h hlt hcut
  · exact stepWord_good ht h hlt hcut

theorem stepComment_good (h : Ok t s) (hle : s.p + 4 ≤ t.length) :
  Good env t s (stepComment t s)
  := by
  obtain ⟨r, hr, hbound⟩ := findString_of_le hle (ascii "-->")
  rw [stepComment, hr, Option.map_some]
  cases r with
  | none => exact h
  | some q =>
      obtain ⟨hq, hqt⟩ := hbound q rfl
      apply good_next
      · exact { h with p := hqt }
      · change s.p < q + 3
        omega

/-- The round copies a character that the NUL cuts off. -/
def Cut (t : List UInt8) (s : Parser) : Prop :=
  (s.inScript = false ∧ s.inStyle = false ∧ s.inNoscript = false ∧ s.inTag = false ∧
    s.inTitle = false) ∧
  (s.p < t.length ∧ t.length < s.p + charLen (t.getD s.p 0)) ∧
  s.wordBuf.length + charLen (t.getD s.p 0) < 127

/-- A round does well, unless it copies a character that the NUL cuts off. -/
theorem step_good (env : Env) (ht : ∀ b ∈ t, b ≠ 0) (h : Ok t s) (hlt : s.p < t.length) (hcut : ¬ Cut t s) :
  Good env t s (step env t s)
  := by
  rw [step]
  split
  · exact stepScript_good h hlt
  split
  · apply stepRaw_good h hlt
    intro p hsp hpt
    exact ⟨{ h with p := hpt }, hsp⟩
  split
  · apply stepRaw_good h hlt
    intro p hsp hpt
    exact ⟨{ h with p := hpt }, hsp⟩
  obtain ⟨comment, hcomment, hle⟩ := matchAt_of_le id rfl h.p (ascii "<!--")
  rw [hcomment, Option.bind_some]
  split
  · exact stepComment_good h (hle ‹_›)
  rw [get_of_le h.p, Option.bind_some]
  split
  · exact stepOpen_good h hlt
  split
  · exact stepTag_good h hlt _
  split
  · exact stepTitle_good h hlt _
  · apply stepText_good ht h hlt
    by_contra hno
    obtain ⟨hlong, hroom⟩ := not_or.mp hno
    apply hcut
    simp only [Bool.not_eq_true] at *
    exact ⟨⟨‹_›, ‹_›, ‹_›, ‹_›, ‹_›⟩, ⟨hlt, Nat.lt_of_not_le hlong⟩, Nat.lt_of_not_le hroom⟩

/-- A round that copies a character that the NUL cuts off takes the pointer behind the NUL. -/
theorem step_cut (env : Env) (ht : ∀ b ∈ t, b ≠ 0) (hcut : Cut t s) :
  ∃ s', step env t s = some (.next s') ∧ t.length < s'.p
  := by
  obtain ⟨⟨hscript, hstyle, hnoscript, htag, htitle⟩, ⟨hlt, hlong⟩, hroom⟩ := hcut
  have hlead : t.getD s.p 0 ≥ 0xC0 := by
    by_contra hsmall
    rw [charLen_of_lt (UInt8.not_le.mp hsmall)] at hlong
    omega
  have hne {c : UInt8} (hc : c < 0xC0) : t.getD s.p 0 ≠ c := by
    rintro rfl
    exact UInt8.not_le.mpr hc hlead
  have hget := get_of_le (Nat.le_of_lt hlt)
  have hcomment : matchAt id t s.p (ascii "<!--") = some false := by
    change (get t s.p).bind _ = some false
    rw [hget, Option.bind_some]
    exact if_pos (Or.inl (hne (by decide)))
  have hspace : ¬ (t.getD s.p 0 = 32 ∨ t.getD s.p 0 = 9 ∨ t.getD s.p 0 = 13 ∨ t.getD s.p 0 = 10) := by
    rintro (h | h | h | h)
    all_goals exact hne (by decide) h
  have hfits : s.wordBuf.length + charLen (t.getD s.p 0) < wordSize := Nat.lt_succ_of_lt hroom
  obtain ⟨word, hword⟩ := copyChar_cut ht (Nat.le_of_lt hlt) hlong hfits
  have hstep : stepText env t s (t.getD s.p 0) =
      some (.next { s with wordBuf := word, p := t.length + 1 }) := by
    rw [stepText, if_neg (hne (by decide)), stepWord, if_neg hspace, if_pos hroom, hword]
    rfl
  have htext : step env t s = stepText env t s (t.getD s.p 0) := by
    simp only [step, hscript, hstyle, hnoscript, htag, htitle, hcomment, hget, Option.bind_some,
      Bool.false_eq_true, if_false]
    apply if_neg (hne (by decide))
  exact ⟨_, htext.trans hstep, Nat.lt_succ_self t.length⟩

/-- A round that leads on moves the pointer on, and only a character that is cut off takes it behind
the NUL. -/
theorem step_next (ht : ∀ b ∈ t, b ≠ 0) (h : Ok t s) (hlt : s.p < t.length) {s' : Parser}
    (hstep : step env t s = some (.next s')) :
  s.p < s'.p ∧ (Ok t s' ∨ t.length < s'.p)
  := by
  by_cases hcut : Cut t s
  · obtain ⟨s₁, hs₁, hbehind⟩ := step_cut env ht hcut
    cases hs₁.symm.trans hstep
    exact ⟨Nat.lt_trans hlt hbehind, Or.inr hbehind⟩
  · have hgood := step_good env ht h hlt hcut
    rw [hstep] at hgood
    exact ⟨hgood.2, Or.inl hgood.1⟩

/-! ### The loop -/

/-- A later state of the loop. -/
inductive Reaches (env : Env) (t : List UInt8) : Parser → Parser → Prop where
  | refl (s : Parser) : Reaches env t s s
  | next {s s' s'' : Parser} : s.p < t.length → step env t s = some (.next s') →
      Reaches env t s' s'' → Reaches env t s s''

/-- A character of a word is cut off by the NUL. -/
def CutsOff (env : Env) (t : List UInt8) (s : Parser) : Prop :=
  ∃ s', Reaches env t s s' ∧ Cut t s'

/-- A script is evaluated that does not come back to the page. -/
def Leaves (env : Env) (t : List UInt8) (s : Parser) : Prop :=
  ∃ s' code, Reaches env t s s' ∧ s'.p < t.length ∧ step env t s' = some (.script code)

theorem loop_next (ht : ∀ b ∈ t, b ≠ 0) (hlt : s.p < t.length) {s' : Parser}
    (hstep : step env t s = some (.next s')) (fuel : Nat) :
  loop env t (fuel + 1) s = loop env t fuel s'
  := by
  rw [loop, get_of_le (Nat.le_of_lt hlt)]
  dsimp only
  rw [if_neg (get_ne_zero ht hlt), hstep]

/-- The rounds that are left suffice for the bytes that are left. -/
theorem loop_of_reaches (ht : ∀ b ∈ t, b ≠ 0) {s' : Parser} (hreaches : Reaches env t s s')
    (h : Ok t s) {fuel : Nat} (hfuel : t.length < s.p + fuel) :
  ∃ fuel', t.length < s'.p + fuel' ∧ 0 < fuel' ∧ loop env t fuel s = loop env t fuel' s'
  := by
  induction hreaches generalizing fuel with
  | refl s =>
      have := h.p
      exact ⟨fuel, hfuel, by omega, rfl⟩
  | next hlt hstep hrest ih =>
      obtain ⟨hp, hok⟩ := step_next ht h hlt hstep
      cases fuel with
      | zero => omega
      | succ fuel =>
          rw [loop_next ht hlt hstep]
          rcases hok with hok | hbehind
          · exact ih hok (by omega)
          · cases hrest with
            | refl => exact ⟨fuel, by omega, by omega, rfl⟩
            | next hlt' => omega

/-- A page on which no round goes wrong comes to its end. -/
theorem loop_of_good (ht : ∀ b ∈ t, b ≠ 0) {fuel : Nat} (h : Ok t s)
    (hfuel : t.length < s.p + fuel) (hcut : ¬ CutsOff env t s) (hleaves : ¬ Leaves env t s) :
  ∃ s', loop env t fuel s = .done s' ∧ Ok t s'
  := by
  induction fuel generalizing s with
  | zero =>
      have := h.p
      omega
  | succ fuel ih =>
      rcases Nat.lt_or_eq_of_le h.p with hlt | hend
      · have hgood := step_good env ht h hlt fun hc => hcut ⟨s, .refl s, hc⟩
        cases hstep : step env t s with
        | none =>
            rw [hstep] at hgood
            exact hgood.elim
        | some round =>
            rw [hstep] at hgood
            cases round with
            | next s' =>
                rw [loop_next ht hlt hstep]
                have := hgood.2
                apply ih hgood.1 (by omega)
                · rintro ⟨s'', hreaches, hc⟩
                  exact hcut ⟨s'', .next hlt hstep hreaches, hc⟩
                · rintro ⟨s'', code, hreaches, hl⟩
                  exact hleaves ⟨s'', code, .next hlt hstep hreaches, hl⟩
            | stop s' =>
                use s'
                rw [loop, get_of_le h.p]
                dsimp only
                rw [if_neg (get_ne_zero ht hlt), hstep]
                exact ⟨rfl, hgood⟩
            | script code => exact (hleaves ⟨s, code, .refl s, hlt, hstep⟩).elim
      · use s
        rw [loop, get_of_le h.p, hend, List.getD_eq_default _ _ (Nat.le_refl _)]
        exact ⟨rfl, h⟩

/-- What follows the loop writes within the tables. -/
theorem finish_ok (h : Ok t s) :
  ∃ page, finish s = some page ∧ page.Ok
  := by
  have hlast : Doc.Safe (if s.wordBuf.length > 0 then
      (terminate wordSize s.wordBuf).bind fun word => s.doc.addLastWord word
    else some s.doc) := by
    apply Doc.safe_ite
    · rw [terminate_of_lt (Nat.lt_of_lt_pred h.word), Option.bind_some]
      apply Doc.addLastWord_safe h.page
    · exact ⟨_, rfl, h.page⟩
  obtain ⟨doc, hdoc, hpage⟩ := hlast
  rw [finish, hdoc, Option.bind_some]
  split
  · rename_i hempty
    obtain ⟨page, hpage, hok⟩ := hpage.pushBox (by rw [hempty]; decide)
      { type := .text, x := 20, y := 20, w := 120, h := 18, text := some (ascii "Empty page."),
        isBold := none, isCode := none, isHeader := none, linkIdx := some (-1),
        elemIdx := some (-1) }
    rw [hpage, Option.map_some]
    exact ⟨_, rfl, hok.boxes, hok.links, hok.inputs, hok.images⟩
  · exact ⟨_, rfl, hpage⟩

theorem start_ok (env : Env) (t : List UInt8) {page : Page} (h : page.Ok) :
  Ok t (start env page)
  := by
  have himages : (emptyPage env page).numImages ≤ maxImages := by
    change (if env.fetchImages then 0 else page.numImages) ≤ maxImages
    split
    · apply Nat.zero_le
    · exact h.images
  exact { p := Nat.zero_le _, script := Nat.succ_pos _, tag := Nat.succ_pos _,
          title := Nat.succ_pos _, word := Nat.succ_pos _,
          page := ⟨Nat.zero_le _, Nat.zero_le _, Nat.zero_le _, himages⟩ }

/-- A page that the NUL cuts off within a character is read behind the NUL. -/
theorem parse_of_cutsOff (ht : ∀ b ∈ t, b ≠ 0) {page : Page} (hpage : page.Ok) {fuel : Nat}
    (hfuel : t.length < fuel) (hcut : CutsOff env t (start env page)) :
  parseHtmlToBoxes env t page fuel = .outOfBounds
  := by
  obtain ⟨s, hreaches, hs⟩ := hcut
  obtain ⟨fuel', hleft, hpos, hloop⟩ := loop_of_reaches ht hreaches (start_ok env t hpage)
    (show t.length < 0 + fuel by omega)
  obtain ⟨s', hstep, hbehind⟩ := step_cut env ht hs
  have hlt : s.p < t.length := hs.2.1.1
  obtain ⟨more, rfl⟩ : ∃ more, fuel' = more + 1 + 1 := ⟨fuel' - 2, by omega⟩
  have hout : loop env t (more + 1) s' = .outOfBounds := by
    rw [loop, get_of_lt hbehind]
  rw [parseHtmlToBoxes, hloop, loop_next ht hlt hstep, hout]

/-- A page with a script that does not come back is left in it. -/
theorem parse_of_leaves (ht : ∀ b ∈ t, b ≠ 0) {page : Page} (hpage : page.Ok) {fuel : Nat}
    (hfuel : t.length < fuel) (hleaves : Leaves env t (start env page)) :
  ∃ code, parseHtmlToBoxes env t page fuel = .script code
  := by
  obtain ⟨s, code, hreaches, hlt, hstep⟩ := hleaves
  obtain ⟨fuel', hleft, hpos, hloop⟩ := loop_of_reaches ht hreaches (start_ok env t hpage)
    (show t.length < 0 + fuel by omega)
  obtain ⟨more, rfl⟩ := Nat.exists_eq_add_one.mpr hpos
  have hout : loop env t (more + 1) s = .script code := by
    rw [loop, get_of_le (Nat.le_of_lt hlt)]
    dsimp only
    rw [if_neg (get_ne_zero ht hlt), hstep]
  use code
  rw [parseHtmlToBoxes, hloop, hout]

/-- The parser comes to the end of a page of `n` bytes in at most `n + 1` rounds, reads no further
than the NUL and writes within its tables, if and only if the NUL cuts off no character of a word and
every script that is evaluated comes back to the page. -/
theorem parse_safe_iff (env : Env) {t : List UInt8} (ht : ∀ b ∈ t, b ≠ 0) {page : Page}
    (hpage : page.Ok) {fuel : Nat} (hfuel : t.length < fuel) :
  (∃ page', parseHtmlToBoxes env t page fuel = .done page' ∧ page'.Ok) ↔
    ¬ CutsOff env t (start env page) ∧ ¬ Leaves env t (start env page)
  := by
  constructor
  · rintro ⟨page', hdone, -⟩
    constructor
    · intro hcut
      rw [parse_of_cutsOff ht hpage hfuel hcut] at hdone
      cases hdone
    · intro hleaves
      obtain ⟨code, hcode⟩ := parse_of_leaves ht hpage hfuel hleaves
      rw [hcode] at hdone
      cases hdone
  · rintro ⟨hcut, hleaves⟩
    obtain ⟨s, hs, hok⟩ := loop_of_good ht (start_ok env t hpage)
      (show t.length < 0 + fuel by omega) hcut hleaves
    obtain ⟨page', hpage', hok'⟩ := finish_ok hok
    use page'
    rw [parseHtmlToBoxes, hs]
    dsimp only
    rw [hpage']
    exact ⟨rfl, hok'⟩

theorem ne_zero_of_all (h : t.all (· != 0) = true) :
  ∀ b ∈ t, b ≠ 0
  := by
  intro b hb
  exact ne_of_beq_false (Bool.not_eq_true' _ ▸ List.all_eq_true.mp h b hb)

/-- A window in which every script comes back. -/
def plainEnv : Env where
  winW := 640
  url := []
  fetchImages := true
  image := fun _ => none
  script := fun _ _ => true

/-- The tables of a browser that has shown no page. -/
def noPage : Page where
  boxes := []
  links := []
  inputs := []
  images := fun _ => { url := [], loaded := 0, dispW := 0, dispH := 0 }
  numImages := 0
  docHeight := 0
  title := ascii "Web Browser"

theorem noPage_ok :
  noPage.Ok
  := ⟨Nat.zero_le _, Nat.zero_le _, Nat.zero_le _, Nat.zero_le _⟩

theorem parse_safe_iff_br :
  ¬ CutsOff plainEnv (ascii "<br>") (start plainEnv noPage) ∧
    ¬ Leaves plainEnv (ascii "<br>") (start plainEnv noPage)
  := by
  apply (parse_safe_iff plainEnv (ne_zero_of_all rfl) noPage_ok (show (ascii "<br>").length < 5 by decide)).mp
  refine ⟨_, rfl, ?_, ?_, ?_, ?_⟩
  all_goals decide

/-- The text that is the first byte of a character of two is read behind its NUL, in a window in which
every script comes back. -/
theorem not_parse_safe :
  ¬ ∀ (t : List UInt8) (page : Page), (∀ b ∈ t, b ≠ 0) → page.Ok → ∀ fuel, t.length < fuel →
    ∃ page', parseHtmlToBoxes plainEnv t page fuel = .done page' ∧ page'.Ok
  := by
  intro hsafe
  obtain ⟨page', hdone, -⟩ := hsafe [0xC3] noPage (ne_zero_of_all rfl) noPage_ok 2 (by decide)
  have hout : parseHtmlToBoxes plainEnv [0xC3] noPage 2 = .outOfBounds := rfl
  rw [hout] at hdone
  cases hdone

end Browser
