import Woos.Browser.Encoding
import Woos.Lib.Run
import Woos.Lib.Visits

/-!
# The history of the browser

The buttons Back and Forward, and `navigate_to` with the array `g_history`.  An address is made normal
each time it is navigated to, so that Back shows a page again when its address is normal already: that is
so when it does not end with the end of a line (`pageOf_page`).  Then the browser behaves like a
history of `Visits`, as long as the array has room.
-/

namespace Browser.Address

/-- The address of a page. -/
abbrev Page := StringBuffer 512

/-- What the reader does. -/
inductive Move where
  | visit (a : Answers) (target : CString)
  | back (a : Answers)
  | forward (a : Answers)

/-- The button Back in `handle_click` -/
def State.goBack (a : Answers) (s : State) : Option State :=
  if h : 0 < s.historyIdx then
    navigateTo a (s.history (s.historyIdx - 1).toNat).string false
      { s with
        historyIdx := s.historyIdx - 1
        le_historyIdx := by omega }
  else some s

/-- The button Forward in `handle_click` -/
def State.goForward (a : Answers) (s : State) : Option State :=
  if s.historyIdx < s.historyCount - 1 then
    navigateTo a (s.history (s.historyIdx + 1).toNat).string false
      { s with
        historyIdx := s.historyIdx + 1
        le_historyIdx := s.le_next }
  else some s

/-- The browser after a move. -/
def State.move (s : State) : Move → Option State
  | .visit a target => navigateTo a target true s
  | .back a => s.goBack a
  | .forward a => s.goForward a

/-! ### Pages -/

/-- The page that an address leads to: none when it is empty, or the address of a download. -/
def pageOf (target : CString) : Option Page :=
  if target.bytes = [] then none else (normUrl target).filter (fun url => !isDownloadable url.string)

/-- The address ends with the end of a line. -/
def EndsLine (p : Page) : Prop := p.string.bytes.getLast? = some 13 ∨ p.string.bytes.getLast? = some 10

/-- The history of the pages after a move. -/
def moved (h : Visits Page) : Move → Visits Page
  | .visit _ target => ((pageOf target).map h.visit).getD h
  | .back _ => h.back
  | .forward _ => h.forward

/-- The messages about the address have room, the array has room for a new page, and the address of a
page that is shown again does not end with the end of a line. -/
def Allowed (h : Visits Page) : Move → Prop
  | .visit a target =>
      NavigateFits a target ∧ ((pageOf target).isSome = true → h.shown.length < maxHistory)
  | .back a => ∀ x p rest, h.shown = x :: p :: rest → NavigateFits a p.string ∧ ¬ EndsLine p
  | .forward a => ∀ p rest, h.after = p :: rest → NavigateFits a p.string ∧ ¬ EndsLine p

/-- The browser shows the page of the history, and its array holds the history, whose entries are
pages. -/
structure State.Holds (s : State) (h : Visits Page) : Prop where
  shows : ∀ p, h.current = some p → s.url = p
  stored : Visits.Stored s.history s.historyIdx s.historyCount h
  pages : ∀ p ∈ h.shown ++ h.after, ∃ target, pageOf target = some p

/-! ### Normal addresses -/

/-- An address that is not completed. -/
def IsComplete (url : CString) : Prop := url.bytes.head? = some 47 ∨ isAbsolute url.bytes = true

theorem completeUrl_of_complete {url : Page} (h : IsComplete url.string) :
  completeUrl url = some url
  := by
  rw [completeUrl, if_neg]
  rintro ⟨hhead, habs⟩
  rcases h with h | h
  · exact hhead h
  · rw [h] at habs
    cases habs

theorem isComplete_append {url : CString} (h : IsComplete url) (s : CString) :
  IsComplete (url.append s)
  := by
  rcases h with h | h
  · left
    rw [CString.bytes_append, List.head?_append, h]
    rfl
  · right
    have hpre (scheme : List UInt8) (hscheme : scheme.isPrefixOf url.bytes = true) :
        scheme.isPrefixOf (url.append s).bytes = true := by
      rw [List.isPrefixOf_iff_prefix] at hscheme ⊢
      exact hscheme.trans (List.prefix_append _ _)
    rw [isAbsolute, Bool.or_eq_true, Bool.or_eq_true] at h ⊢
    exact h.imp (Or.imp (hpre _) (hpre _)) (hpre _)

/-- The first byte is neither a space nor a tab. -/
theorem head_of_complete {url : CString} (h : IsComplete url) :
  ∃ c rest, url.bytes = c :: rest ∧ isLeading c = false
  := by
  rcases h with h | h
  · obtain ⟨rest, hrest⟩ := List.head?_eq_some_iff.mp h
    exact ⟨47, rest, hrest, by decide⟩
  · rw [isAbsolute, Bool.or_eq_true, Bool.or_eq_true] at h
    simp only [List.isPrefixOf_iff_prefix] at h
    rcases h with (⟨rest, hrest⟩ | ⟨rest, hrest⟩) | ⟨rest, hrest⟩
    · exact ⟨104, _, hrest.symm, by decide⟩
    · exact ⟨104, _, hrest.symm, by decide⟩
    · exact ⟨102, _, hrest.symm, by decide⟩

/-- A byte that is not removed at the end of an address. -/
theorem dropWhile_of_head {P : UInt8 → Bool} {l : List UInt8} (h : ∀ c, l.head? = some c → P c = false) :
  l.dropWhile P = l
  := by
  cases l with
  | nil => rfl
  | cons c l => exact List.dropWhile_cons_of_neg (Bool.not_eq_true _ ▸ h c rfl)

/-- An address without spaces at its ends is not trimmed. -/
theorem trimmed_eq {p : Page} (hhead : ∀ c, p.string.bytes.head? = some c → isLeading c = false)
    (hlast : ∀ c, p.string.bytes.getLast? = some c → isTrailing c = false) :
  trimmed p.string = p.string
  := by
  have hlen : p.string.bytes.length ≤ 511 := Nat.le_of_lt_succ p.length_lt
  have hreverse (c : UInt8) (hc : p.string.bytes.reverse.head? = some c) : isTrailing c = false := by
    rw [List.head?_reverse] at hc
    exact hlast c hc
  rw [trimmed, dropWhile_of_head hhead, List.take_of_length_le hlen, dropWhile_of_head hreverse,
    List.reverse_reverse, CString.ofBytes_bytes]

/-- A trimmed address does not end with a space. -/
theorem getLast?_trimmed (target : CString) :
  (trimmed target).bytes.getLast? ≠ some 32
  := by
  have hbytes : (trimmed target).bytes
      = (((target.bytes.dropWhile isLeading).take 511).reverse.dropWhile isTrailing).reverse := by
    rw [trimmed, CString.ofBytes, List.takeWhile_eq_self_iff]
    intro b hb
    have hmem := List.mem_of_mem_take (List.mem_reverse.mp
      ((List.dropWhile_sublist _).mem (List.mem_reverse.mp hb)))
    exact bne_iff_ne.mpr (target.ne_zero b ((List.dropWhile_sublist _).mem hmem))
  rw [hbytes, List.getLast?_reverse]
  intro hhead
  have hnot := List.head?_dropWhile_not isTrailing ((target.bytes.dropWhile isLeading).take 511).reverse
  rw [hhead] at hnot
  exact absurd hnot (by decide)

/-- An address that has been put behind a scheme and cut. -/
theorem isComplete_scheme {s : CString} {k : Nat} (hk : 8 ≤ k) (hs : ascii "https://" <+: s.bytes) :
  IsComplete (s.truncate k)
  := by
  right
  have hpre : ascii "https://" <+: (s.truncate k).bytes := List.prefix_take_iff.mpr ⟨hs, hk⟩
  rw [isAbsolute, List.isPrefixOf_iff_prefix.mpr hpre, Bool.or_true, Bool.true_or]

theorem getLast?_ne_space {l : List UInt8} (h : ∀ b ∈ l, b ≠ 32) :
  l.getLast? ≠ some 32
  := by
  intro hlast
  exact h 32 (List.mem_of_getLast? hlast) rfl

/-- A completed address. -/
theorem completeUrl_spec {norm url : Page} (hlast : norm.string.bytes.getLast? ≠ some 32)
    (h : completeUrl norm = some url) :
  IsComplete url.string ∧ url.string.bytes.getLast? ≠ some 32
  := by
  have henc : (urlEncode norm.string 256).length < 256 := length_urlEncode_lt _ (by decide)
  have hscheme : (str "https://").length < 512 := by decide
  have hfull : ((str "https://").append (norm.string.truncate 503)).length < 512 := by
    have hlength : (str "https://").length = 8 := rfl
    rw [CString.length_append, CString.length_truncate, hlength]
    omega
  rw [completeUrl] at h
  split at h
  · split at h
    · rw [StringBuffer.strcpy_eq_some henc, Option.bind_eq_bind, Option.bind_some,
        StringBuffer.strncpyZero_eq_some _ (by decide), Option.bind_eq_bind, Option.bind_some,
        StringBuffer.strncat_rest, Option.bind_some, StringBuffer.strncpyZero_eq_some _ (by decide)] at h
      cases h
      constructor
      · apply isComplete_scheme (by decide)
        apply List.prefix_take_iff.mpr
        refine ⟨?_, by decide⟩
        exact List.IsPrefix.trans (by decide) (List.prefix_append _ _)
      · apply getLast?_ne_space
        intro b hb
        have hparts := List.mem_append.mp (List.mem_of_mem_take (List.mem_of_mem_take hb))
        rcases hparts with hsearch | hword
        · have hnot : 32 ∉ searchUrl.bytes := by decide
          exact ne_of_mem_of_not_mem (List.mem_of_mem_take hsearch) hnot
        · exact ne_space_of_mem_urlEncode hword
    · rename_i hword
      rw [StringBuffer.strcpy_eq_some hscheme, Option.bind_eq_bind, Option.bind_some,
        StringBuffer.strncat, StringBuffer.strcat, StringBuffer.strcpy_eq_some hfull,
        Option.bind_some, StringBuffer.strncpyZero_eq_some _ (by decide)] at h
      cases h
      constructor
      · exact isComplete_scheme (by decide) (List.prefix_append _ _)
      · apply getLast?_ne_space
        intro b hb
        rcases List.mem_append.mp (List.mem_of_mem_take hb) with hhttps | hrest
        · have hnot : 32 ∉ (str "https://").bytes := by decide
          exact ne_of_mem_of_not_mem hhttps hnot
        · rintro rfl
          exact hword (Or.inl (List.mem_of_mem_take hrest))
  · rename_i hnot
    cases h
    refine ⟨?_, hlast⟩
    by_contra hno
    rw [IsComplete, not_or, Bool.not_eq_true] at hno
    apply hnot
    rw [hno.2]
    exact ⟨hno.1, rfl⟩

/-- What is added for the mode without scripts. -/
theorem pureHtml_added {url : Page} (hcond : contains url.string.bytes (ascii "google.") = true
    ∧ (!contains url.string.bytes (ascii "gbv=")) = true) :
  ∃ s, (∀ b ∈ s.bytes, b ≠ 32) ∧ ascii "gbv=1" <:+ s.bytes
    ∧ pureHtml url = some (.cut (url.string.append s) (by decide))
  := by
  rw [pureHtml, if_pos hcond]
  by_cases hquery : 63 ∈ url.string.bytes
  · refine ⟨str "&gbv=1", fun b hb => ne_of_mem_of_not_mem hb (by decide), by decide, ?_⟩
    rw [if_pos hquery, StringBuffer.strncat_rest]
  · refine ⟨str "?gbv=1", fun b hb => ne_of_mem_of_not_mem hb (by decide), by decide, ?_⟩
    rw [if_neg hquery, StringBuffer.strncat_rest]

theorem pureHtml_full {url : Page} (h : url.string.length = 511) :
  pureHtml url = some url
  := by
  rw [pureHtml]
  split
  · rw [h, StringBuffer.strncat, StringBuffer.strcat, StringBuffer.strcpy_eq_some_iff]
    ext1
    exact (List.append_nil _).symm
  · rfl

/-- Nothing is added twice. -/
theorem pureHtml_spec {norm url : Page} (hcomplete : IsComplete norm.string)
    (hlast : norm.string.bytes.getLast? ≠ some 32) (h : pureHtml norm = some url) :
  IsComplete url.string ∧ url.string.bytes.getLast? ≠ some 32 ∧ pureHtml url = some url
  := by
  by_cases hcond : contains norm.string.bytes (ascii "google.") = true
      ∧ (!contains norm.string.bytes (ascii "gbv=")) = true
  · obtain ⟨s, hspace, hgbv, hadded⟩ := pureHtml_added hcond
    rw [hadded] at h
    cases h
    have hnorm : norm.string.bytes.length ≤ 511 := Nat.le_of_lt_succ norm.length_lt
    have hbytes : ((norm.string.append s).truncate 511).bytes
        = norm.string.bytes ++ s.bytes.take (511 - norm.string.bytes.length) := by
      rw [CString.bytes_truncate, CString.bytes_append, List.take_append, List.take_of_length_le hnorm]
    have happend : (norm.string.append s).truncate 511
        = norm.string.append (s.truncate (511 - norm.string.bytes.length)) := by
      ext1
      exact hbytes
    refine ⟨?_, ?_, ?_⟩
    · rw [StringBuffer.string_cut, happend]
      exact isComplete_append hcomplete _
    · rw [StringBuffer.string_cut, happend, CString.bytes_append, List.getLast?_append]
      intro hend
      rcases Option.or_eq_some_iff.mp hend with hadded | ⟨-, hbefore⟩
      · exact hspace 32 (List.mem_of_mem_take (List.mem_of_getLast? hadded)) rfl
      · exact hlast hbefore
    · by_cases hroom : norm.string.bytes.length + s.bytes.length ≤ 511
      · rw [pureHtml, if_neg]
        rintro ⟨-, hnot⟩
        have hin : contains ((norm.string.append s).truncate 511).bytes (ascii "gbv=") = true := by
          rw [contains_iff, hbytes, List.take_of_length_le (by omega)]
          have hpart : ascii "gbv=" <:+: ascii "gbv=1" := by decide
          exact (hpart.trans hgbv.isInfix).trans (List.suffix_append _ _).isInfix
        rw [StringBuffer.string_cut, hin] at hnot
        cases hnot
      · apply pureHtml_full
        rw [StringBuffer.string_cut, CString.length_truncate, CString.length_append]
        exact Nat.min_eq_left (Nat.le_of_lt (Nat.lt_of_not_le hroom))
  · rw [pureHtml, if_neg hcond] at h
    cases h
    use hcomplete, hlast
    rw [pureHtml, if_neg hcond]

/-- The address of a page is normal, unless it ends with the end of a line. -/
theorem pageOf_page {target : CString} {p : Page} (h : pageOf target = some p) (hline : ¬ EndsLine p) :
  pageOf p.string = some p
  := by
  rw [pageOf] at h
  split at h
  · cases h
  · obtain ⟨hnorm, hdownload⟩ := Option.filter_eq_some_iff.mp h
    rw [normUrl, StringBuffer.strcpy_eq_some (length_trimmed_lt target), Option.bind_eq_bind,
      Option.bind_some] at hnorm
    obtain ⟨norm, hnorm, hpure⟩ := Option.bind_eq_some_iff.mp hnorm
    obtain ⟨hcomplete, hlast⟩ := completeUrl_spec (getLast?_trimmed target) hnorm
    obtain ⟨hcomplete, hlast, hpure⟩ := pureHtml_spec hcomplete hlast hpure
    obtain ⟨c, rest, hbytes, hlead⟩ := head_of_complete hcomplete
    have hne : p.string.bytes ≠ [] := by
      rw [hbytes]
      exact List.cons_ne_nil c rest
    have htrimmed : trimmed p.string = p.string := by
      apply trimmed_eq
      · intro d hd
        rw [hbytes] at hd
        cases hd
        exact hlead
      · intro d hd
        rw [isTrailing, decide_eq_false_iff_not]
        rintro (rfl | rfl | rfl)
        · exact hlast hd
        · exact hline (Or.inl hd)
        · exact hline (Or.inr hd)
    have hself : normUrl p.string = some p := by
      rw [normUrl, htrimmed, StringBuffer.strcpy_eq_some p.length_lt, Option.bind_eq_bind,
        Option.bind_some, completeUrl_of_complete hcomplete, Option.bind_some, hpure]
    rw [pageOf, if_neg hne, hself, Option.filter_some, if_pos hdownload]

/-! ### The variables of the history -/

/-- The page that is shown and the history are those of the other state. -/
structure Same (s t : State) : Prop where
  url_eq : s.url = t.url
  history_eq : s.history = t.history
  historyIdx_eq : s.historyIdx = t.historyIdx
  historyCount_eq : s.historyCount = t.historyCount

theorem loadLocal_same {bytes : List UInt8} {s s' : State} (h : loadLocal bytes s = some s') :
  Same s' s
  := by
  rw [loadLocal] at h
  simp only [Option.bind_eq_bind, Option.bind_eq_some_iff, Option.some.injEq] at h
  obtain ⟨html, -, sbuf, -, sbuf', -, rfl⟩ := h
  exact ⟨rfl, rfl, rfl, rfl⟩

theorem loadNetwork_same {a : Answers} {s s' : State} (h : loadNetwork a s = some s') :
  Same s' s
  := by
  rw [loadNetwork] at h
  simp only [Option.bind_eq_bind, Option.bind_eq_some_iff] at h
  obtain ⟨stat, -, stat', -, stat'', -, h⟩ := h
  split at h
  · simp only [Option.bind_eq_some_iff, Option.some.injEq] at h
    obtain ⟨errMsg, -, html, -, html', -, html'', -, rfl⟩ := h
    exact ⟨rfl, rfl, rfl, rfl⟩
  · simp only [Option.bind_eq_some_iff, Option.some.injEq] at h
    obtain ⟨html, -, nbuf, -, sbuf, -, sbuf', -, sbuf'', -, rfl⟩ := h
    exact ⟨rfl, rfl, rfl, rfl⟩

theorem doDownload_same {a : Answers} {url : CString} {s s' : State} (h : doDownload a url s = some s') :
  Same s' s
  := by
  rw [doDownload] at h
  split at h
  · cases h
    exact ⟨rfl, rfl, rfl, rfl⟩
  · simp only [Option.bind_eq_bind, Option.bind_eq_some_iff] at h
    obtain ⟨destPath, -, destPath', -, stat, -, stat', -, stat'', -, h⟩ := h
    split at h
    · simp only [Option.bind_eq_some_iff, Option.some.injEq] at h
      obtain ⟨msg, -, msg', -, msg'', -, nbuf, -, msg₃, -, msg₄, -, rfl⟩ := h
      exact ⟨rfl, rfl, rfl, rfl⟩
    · cases h
      exact ⟨rfl, rfl, rfl, rfl⟩

/-- An address that leads to no page changes neither the page nor the history. -/
theorem navigateTo_none {a : Answers} {target : CString} {addHistory : Bool} {s s' : State}
    (hpage : pageOf target = none) (h : navigateTo a target addHistory s = some s') :
  Same s' s
  := by
  rw [pageOf] at hpage
  rw [navigateTo] at h
  split at h
  · cases h
    exact ⟨rfl, rfl, rfl, rfl⟩
  · rename_i hne
    obtain ⟨url, hurl⟩ := normUrl_eq_some target
    rw [if_neg hne, hurl, Option.filter_some] at hpage
    have hdownload : isDownloadable url.string = true := by
      by_contra hno
      rw [if_pos (by simpa using hno)] at hpage
      cases hpage
    rw [hurl, Option.bind_eq_bind, Option.bind_some, if_pos hdownload] at h
    exact doDownload_same h

/-- A page is shown, and remembered when that is wanted. -/
theorem navigateTo_some {a : Answers} {target : CString} {addHistory : Bool} {s s' : State} {p : Page}
    (hpage : pageOf target = some p) (h : navigateTo a target addHistory s = some s') :
  Same s' (if addHistory then State.remember { s with url := p } else { s with url := p })
  := by
  rw [pageOf] at hpage
  rw [navigateTo] at h
  split at hpage
  · cases hpage
  · rename_i hne
    obtain ⟨hurl, hdownload⟩ := Option.filter_eq_some_iff.mp hpage
    have hself : (StringBuffer.strncpyZero p.string 511 : Option (StringBuffer 512)) = some p :=
      p.strncpyZero_string
    rw [if_neg hne, hurl, Option.bind_eq_bind, Option.bind_some, if_neg (by simpa using hdownload),
      hself, Option.bind_some] at h
    cases hfile : a.file with
    | none =>
        rw [hfile] at h
        exact loadNetwork_same h
    | some bytes =>
        rw [hfile] at h
        cases hlocal : isLocal p.string with
        | true =>
            rw [hlocal] at h
            exact loadLocal_same h
        | false =>
            rw [hlocal] at h
            exact loadNetwork_same h

/-- A page of the history is shown again. -/
theorem navigateTo_again {a : Answers} {p : Page} (s : State) (hpage : pageOf p.string = some p)
    (hfits : NavigateFits a p.string) :
  ∃ s', navigateTo a p.string false s = some s' ∧ Same s' { s with url := p }
  := by
  obtain ⟨s', hs'⟩ := Option.isSome_iff_exists.mp ((navigateTo_isSome_iff a p.string false s).mpr hfits)
  exact ⟨s', hs', navigateTo_some hpage hs'⟩

/-! ### Runs -/

theorem holds_of_same {s t : State} {h : Visits Page} (hsame : Same s t) (ht : t.Holds h) :
  s.Holds h
  := by
  constructor
  · rw [hsame.url_eq]
    exact ht.shows
  · rw [hsame.history_eq, hsame.historyIdx_eq, hsame.historyCount_eq]
    exact ht.stored
  · exact ht.pages

/-- A move that is allowed keeps the history. -/
theorem move_holds {s : State} {h : Visits Page} {m : Move} (hs : s.Holds h) (hallowed : Allowed h m) :
  ∃ s', s.move m = some s' ∧ s'.Holds (moved h m)
  := by
  cases m with
  | visit a target =>
      obtain ⟨hfits, hroom⟩ := hallowed
      obtain ⟨s', hs'⟩ := Option.isSome_iff_exists.mp ((navigateTo_isSome_iff a target true s).mpr hfits)
      use s', hs'
      rw [moved]
      cases hpage : pageOf target with
      | none => exact holds_of_same (navigateTo_none hpage hs') hs
      | some p =>
          have hlt : s.historyIdx < maxHistory - 1 := by
            have hlen : h.shown.length < maxHistory := hroom (by rw [hpage]; rfl)
            have hidx := hs.stored.idx_eq
            omega
          have hsame := navigateTo_some hpage hs'
          rw [if_pos rfl, State.remember, dif_pos hlt] at hsame
          apply holds_of_same hsame
          refine ⟨fun q hq => Option.some.inj hq, hs.stored.visit p, ?_⟩
          intro q hq
          rcases List.mem_cons.mp hq with rfl | hq
          · exact ⟨target, hpage⟩
          · exact hs.pages q (List.mem_append_left _ (List.append_nil h.shown ▸ hq))
  | back a =>
      rw [State.move, State.goBack, moved]
      by_cases hpos : 0 < s.historyIdx
      · obtain ⟨x, p, rest, hshown, hentry, hstored⟩ := hs.stored.back hpos
        obtain ⟨hfits, hline⟩ := hallowed x p rest hshown
        obtain ⟨target, htarget⟩ := hs.pages p (by simp [hshown])
        rw [dif_pos hpos, hentry]
        obtain ⟨s', hs', hsame⟩ := navigateTo_again _ (pageOf_page htarget hline) hfits
        have hback := Visits.back_eq hshown
        refine ⟨s', hs', holds_of_same hsame ⟨?_, hstored, ?_⟩⟩
        · intro q hq
          rw [hback] at hq
          exact Option.some.inj hq
        · intro q hq
          apply hs.pages
          rw [hback] at hq
          rw [hshown]
          simp only [List.mem_append, List.mem_cons] at hq ⊢
          tauto
      · rw [dif_neg hpos, hs.stored.back_eq hpos]
        exact ⟨s, rfl, hs⟩
  | forward a =>
      rw [State.move, State.goForward, moved]
      by_cases hlt : s.historyIdx < s.historyCount - 1
      · obtain ⟨p, rest, hafter, hentry, hstored⟩ := hs.stored.forward hlt
        obtain ⟨hfits, hline⟩ := hallowed p rest hafter
        obtain ⟨target, htarget⟩ := hs.pages p (by simp [hafter])
        rw [if_pos hlt, hentry]
        obtain ⟨s', hs', hsame⟩ := navigateTo_again _ (pageOf_page htarget hline) hfits
        have hforward := Visits.forward_eq hafter
        refine ⟨s', hs', holds_of_same hsame ⟨?_, hstored, ?_⟩⟩
        · intro q hq
          rw [hforward] at hq
          exact Option.some.inj hq
        · intro q hq
          apply hs.pages
          rw [hforward] at hq
          rw [hafter]
          simp only [List.mem_append, List.mem_cons] at hq ⊢
          tauto
      · rw [if_neg hlt, hs.stored.forward_eq hlt]
        exact ⟨s, rfl, hs⟩

/-- In a run of moves that are allowed the browser behaves like its history, from the start on. -/
theorem run_holds {s : State} (hidx : s.historyIdx = -1) (hcount : s.historyCount = 0)
    {moves : List Move} (hallowed : Run.Guarded (fun h m => some (moved h m)) Allowed .empty moves) :
  ∃ s', Run.exec State.move s moves = some s' ∧ s'.Holds (moves.foldl moved .empty)
  := by
  have hstart : s.Holds .empty := by
    refine ⟨fun p hp => (nomatch hp), ?_, fun p hp => (nomatch hp)⟩
    rw [hidx, hcount]
    exact Visits.stored_empty _
  have hstep (s : State) (h : Visits Page) (m : Move) (hs : s.Holds h) (hm : Allowed h m) :=
    move_holds hs hm
  exact Run.exec_related hstep hstart hallowed

/-- No file can be opened and nothing can be loaded. -/
def offline : Answers := ⟨none, 0, [], -1, by simp, by decide, by decide⟩

/-- The browser before its first page. -/
def start : State :=
  ⟨⟨.empty, by decide⟩, fun _ => ⟨.empty, by decide⟩, -1, 0, ⟨.empty, by decide⟩, ⟨.empty, by decide⟩,
    by decide⟩

/-- Two pages, and back to the first one. -/
theorem run_holds_back :
  ∃ s', Run.exec State.move start [.visit offline (str "/a"), .visit offline (str "/b"), .back offline]
      = some s'
    ∧ s'.url.string = str "/a"
  := by
  have hfits {target : CString} (h : (navigateTo offline target true start).isSome = true) :
      NavigateFits offline target := (navigateTo_isSome_iff offline target true start).mp h
  have hallowed : Run.Guarded (fun h m => some (moved h m)) Allowed .empty
      [.visit offline (str "/a"), .visit offline (str "/b"), .back offline] := by
    refine ⟨⟨hfits (by decide +kernel), fun _ => by decide⟩, fun h₁ hh₁ => ?_⟩
    cases hh₁
    refine ⟨⟨hfits (by decide +kernel), fun _ => by decide +kernel⟩, fun h₂ hh₂ => ?_⟩
    cases hh₂
    refine ⟨?_, fun _ _ => trivial⟩
    intro x p rest hshown
    have hall := congrArg (List.map StringBuffer.string) hshown
    have hpages : (moved (moved .empty (.visit offline (str "/a"))) (.visit offline (str "/b"))).shown.map
        StringBuffer.string = [str "/b", str "/a"] := by decide +kernel
    rw [hpages] at hall
    simp only [List.map_cons, List.cons.injEq] at hall
    rw [EndsLine, ← hall.2.1]
    exact ⟨hfits (by decide +kernel), by decide⟩
  obtain ⟨s', hs', hholds⟩ := run_holds (s := start) rfl rfl hallowed
  use s', hs'
  have hpage : ([.visit offline (str "/a"), .visit offline (str "/b"), .back offline].foldl moved
      Visits.empty).current.map StringBuffer.string = some (str "/a") := by decide +kernel
  obtain ⟨p, hp, hstring⟩ := Option.map_eq_some_iff.mp hpage
  rw [hholds.shows p hp, hstring]

/-- One page more than the array has room for, and back to the one before it. -/
def longRun : List Move :=
  List.replicate 31 (.visit offline (str "/a"))
    ++ [.visit offline (str "/b"), .visit offline (str "/c"), .back offline]

/-- Back skips the page that the array had no room for. -/
theorem not_run_holds :
  ¬ ∀ (s s' : State) (moves : List Move) (p : Page), s.historyIdx = -1 → s.historyCount = 0 →
    Run.exec State.move s moves = some s' → (moves.foldl moved .empty).current = some p → s'.url = p
  := by
  intro hall
  have hcode : (Run.exec State.move start longRun).map (fun s => s.url.string) = some (str "/a") := by
    decide +kernel
  have hspec : (longRun.foldl moved .empty).current.map StringBuffer.string = some (str "/b") := by
    decide +kernel
  obtain ⟨s', hs', hurl⟩ := Option.map_eq_some_iff.mp hcode
  obtain ⟨p, hp, hstring⟩ := Option.map_eq_some_iff.mp hspec
  have hsame := hall start s' longRun p rfl rfl hs' hp
  rw [← hsame, hurl] at hstring
  exact absurd hstring (by decide)

end Browser.Address
