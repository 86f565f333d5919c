import Woos.Http.Url

/-!
# Requests

`net_http_fetch_single` and `net_http_download` assemble a request with `str_cat` in a buffer of 2048
bytes.  A `Request` is a target and header fields, and `RequestLaw` says that the bytes assembled
for a URL are a request for it, with no fields but those of the function; `requestLaw_iff` says for
which URLs this is so.
-/

namespace Http

/-! ### The functions -/

/-- `str_cat` on C strings, for a buffer of a size. -/
def strCat (dst src : List UInt8) (maxLen : Nat) : List UInt8 :=
  dst ++ src.take (maxLen - 1 - dst.length)

/-- The size of `req`. -/
def reqSize : Nat := 2048

/-- The functions that send a request. -/
inductive Sender where
  | fetch
  | download

namespace Sender

/-- What is appended to the host. -/
def fixed : Sender → List UInt8
  | fetch => text ("\r\n"
      ++ ("User-Agent" ++ ":" ++ " Mozilla/5.0 (X11; Linux x86_64; rv:109.0) Gecko/20100101 Firefox/115.0" ++ "\r\n")
      ++ ("Accept" ++ ":" ++ " text/html,application/xhtml+xml,*/*" ++ "\r\n")
      ++ ("Accept-Encoding" ++ ":" ++ " identity" ++ "\r\n")
      ++ ("Connection" ++ ":" ++ " close" ++ "\r\n") ++ "\r\n")
  | download => text ("\r\n"
      ++ ("User-Agent" ++ ":" ++ " Mozilla/5.0 (X11; Linux x86_64; rv:109.0) Gecko/20100101 Firefox/115.0" ++ "\r\n")
      ++ ("Accept" ++ ":" ++ " */*" ++ "\r\n")
      ++ ("Connection" ++ ":" ++ " close" ++ "\r\n") ++ "\r\n")

/-- The bytes that are sent. -/
def request (s : Sender) (t : Target) : List UInt8 :=
  let req := strCat [] (text "GET ") reqSize
  let req := strCat req t.path reqSize
  let req := strCat req (text " HTTP/1.1\r\nHost: ") reqSize
  let req := strCat req t.host reqSize
  strCat req s.fixed reqSize

end Sender

/-! ### What a request is -/

/-- A visible ASCII character. -/
def isVisible (c : UInt8) : Bool := 32 < c ∧ c < 127

/-- A request: a path and a query of visible characters, and header fields. -/
structure Request where
  target : List UInt8
  fields : List Field
  head : target.head? = some 47
  isVisible : ∀ c ∈ target, isVisible c = true
  noFragment : ∀ c ∈ target, c ≠ 35

/-- The bytes of a request. -/
def Request.bytes (r : Request) : List UInt8 :=
  text "GET " ++ r.target ++ text " HTTP/1.1\r\n" ++ unlines (r.fields.map Field.line) ++ [cr, lf]

/-- A header field, its name and what follows the colon. -/
def field (name value : String) (hne : text name ≠ [])
    (hname : ∀ c ∈ text name, isToken c = true) (hvalue : ∀ c ∈ text value, isText c = true) : Field :=
  ⟨text name, text value, hne, hname, hvalue⟩

/-- The fields of a function behind the field `Host`. -/
def Sender.header : Sender → List Field
  | .fetch =>
      [field "User-Agent" " Mozilla/5.0 (X11; Linux x86_64; rv:109.0) Gecko/20100101 Firefox/115.0"
          (by decide) (by decide +kernel) (by decide +kernel),
        field "Accept" " text/html,application/xhtml+xml,*/*" (by decide) (by decide +kernel)
          (by decide +kernel),
        field "Accept-Encoding" " identity" (by decide) (by decide +kernel) (by decide +kernel),
        field "Connection" " close" (by decide) (by decide +kernel) (by decide +kernel)]
  | .download =>
      [field "User-Agent" " Mozilla/5.0 (X11; Linux x86_64; rv:109.0) Gecko/20100101 Firefox/115.0"
          (by decide) (by decide +kernel) (by decide +kernel),
        field "Accept" " */*" (by decide) (by decide +kernel) (by decide +kernel),
        field "Connection" " close" (by decide) (by decide +kernel) (by decide +kernel)]

namespace Url

/-- The path and the query. -/
def target (u : Url) : List UInt8 := u.path.takeWhile (· ≠ 35)

/-- The host, with its port when this is not the one of the scheme. -/
def hostValue (u : Url) : List UInt8 :=
  if u.portNumber = some u.defaultPort then u.host else u.host ++ u.portText

/-- A request is one for a URL with some fields: the URL is one of HTTP, so that no user comes before
its host; the target is its path and query; and the field `Host` names its host. -/
structure RequestedBy (u : Url) (fields : List Field) (r : Request) : Prop where
  scheme : ∃ isHttps, u.schemeName = Http.schemeName isHttps
  host : ∀ c ∈ u.hostValue, isVisible c = true ∧ c ≠ 64
  target : r.target = u.target
  fields : ∃ f : Field, f.name = text "Host" ∧ f.value = 32 :: u.hostValue ∧ r.fields = f :: fields

/-- The tail is empty, or begins with a path and has no fragment, or is a fragment which the host does
not run into: it follows a port, or the host fills the buffer. -/
def TargetOk (u : Url) : Prop :=
  u.tail = [] ∨ (u.tail.head? = some 47 ∧ ∀ c ∈ u.tail, c ≠ 35)
    ∨ (u.tail.head? = some 35 ∧ (u.port ≠ none ∨ u.host.length = hostSz - 1))

/-- When the bytes are a request for the URL: the scheme and the host are those that the function
parses, the port is that of the scheme, there is no fragment in the path, all bytes are visible, and
all fit into the buffer. -/
structure Requestable (u : Url) (s : Sender) : Prop where
  scheme : u.SchemeOk
  host : u.HostOk
  port : u.portNumber = some u.defaultPort
  tail : u.TargetOk
  isVisible : ∀ c ∈ u.host, isVisible c = true ∧ c ≠ 64
  isVisible' : ∀ c ∈ u.target, Http.isVisible c = true
  length : 21 + u.target.length + u.host.length + s.fixed.length < reqSize

end Url

/-- The request with nothing cut off. -/
def Sender.whole (s : Sender) (t : Target) : List UInt8 :=
  text "GET " ++ t.path ++ text " HTTP/1.1\r\nHost: " ++ t.host ++ s.fixed

/-- When the URL is accepted, the bytes that are sent are a request for it, of which nothing is cut
off. -/
def RequestLaw (s : Sender) (url : List UInt8) : Prop :=
  ∀ t, parseUrl hostSz url = some t →
    (∃ r, (readUrl url).RequestedBy s.header r ∧ s.request t = r.bytes) ∧ s.request t = s.whole t

/-! ### The bytes -/

theorem text_append (a b : String) :
  text (a ++ b) = text a ++ text b
  := by
  simp [text]

/-- What has been cut off stays cut off. -/
theorem strCat_take (l src : List UInt8) (n : Nat) :
  strCat (l.take n) src (n + 1) = (l ++ src).take n
  := by
  rw [strCat, List.take_append, List.length_take, Nat.add_sub_cancel]
  congr 2
  omega

namespace Sender

variable {s : Sender} {t : Target} {u : Url} {r : Request}

/-- The bytes that are sent are those of the whole request that fit into the buffer. -/
theorem request_eq (s : Sender) (t : Target) :
  s.request t = (s.whole t).take (reqSize - 1)
  := by
  have hfirst : strCat [] (text "GET ") reqSize = (text "GET ").take (reqSize - 1) := by
    exact strCat_take [] (text "GET ") (reqSize - 1)
  rw [request, whole, hfirst]
  have hsize : reqSize = reqSize - 1 + 1 := rfl
  rw [hsize, Nat.add_sub_cancel, strCat_take, strCat_take, strCat_take, strCat_take]

theorem request_eq_whole_iff (s : Sender) (t : Target) :
  s.request t = s.whole t ↔ 21 + t.path.length + t.host.length + s.fixed.length < reqSize
  := by
  have hget : (text "GET ").length = 4 := by decide
  have hhost : (text " HTTP/1.1\r\nHost: ").length = 17 := by decide
  have hlength : (s.whole t).length = 21 + t.path.length + t.host.length + s.fixed.length := by
    rw [whole]
    simp only [List.length_append, hget, hhost]
    omega
  have hsize : 0 < reqSize := by decide
  rw [request_eq, ← hlength]
  constructor
  · intro htake
    have hle := congrArg List.length htake
    rw [List.length_take] at hle
    omega
  · intro hlt
    apply List.take_of_length_le
    omega

/-- The fixed text is the end of the line of the host, and the fields. -/
theorem fixed_eq (s : Sender) :
  s.fixed = [cr, lf] ++ (unlines (s.header.map Field.line) ++ [cr, lf])
  := by
  have hline : text "\r\n" = [cr, lf] := by decide
  have hcolon : text ":" = [58] := by decide
  cases s <;> simp only [fixed, header, field, Field.line, unlines, text_append, hline, hcolon,
    List.map_cons, List.map_nil, List.flatMap_cons, List.flatMap_nil, List.append_assoc,
    List.cons_append, List.nil_append, List.append_nil]

/-- The bytes of a request for a URL. -/
theorem bytes_requestedBy (h : u.RequestedBy s.header r) :
  r.bytes = text "GET " ++ u.target ++ text " HTTP/1.1\r\nHost: " ++ u.hostValue ++ s.fixed
  := by
  obtain ⟨f, hname, hvalue, hfields⟩ := h.fields
  have hhost : text " HTTP/1.1\r\nHost: " = text " HTTP/1.1\r\n" ++ text "Host" ++ [58, 32] := rfl
  rw [Request.bytes, h.target, hfields, fixed_eq, hhost, List.map_cons, Field.line, hname, hvalue]
  simp [unlines]

/-- What comes before the last blank, and what comes after it. -/
theorem append_blank_inj {x x' y y' : List UInt8} (hy : ∀ c ∈ y, c ≠ 32) (hy' : ∀ c ∈ y', c ≠ 32)
    (h : x ++ 32 :: y = x' ++ 32 :: y') :
  x = x' ∧ y = y'
  := by
  rcases List.append_eq_append_iff.mp h with ⟨w, hw, hrest⟩ | ⟨w, hw, hrest⟩
  · cases w with
    | nil =>
        rw [List.append_nil] at hw
        exact ⟨hw.symm, (List.cons.inj hrest).2⟩
    | cons d w =>
        obtain ⟨-, rfl⟩ := List.cons.inj hrest
        exact absurd rfl (hy 32 (by simp))
  · cases w with
    | nil =>
        rw [List.append_nil] at hw
        exact ⟨hw, (List.cons.inj hrest).2.symm⟩
    | cons d w =>
        obtain ⟨-, rfl⟩ := List.cons.inj hrest
        exact absurd rfl (hy' 32 (by simp))

/-- A request with a path and a host without blanks is a request for no others. -/
theorem whole_injective {target host : List UInt8} (hhost : ∀ c ∈ t.host, c ≠ 32)
    (hhost' : ∀ c ∈ host, c ≠ 32)
    (h : s.whole t = text "GET " ++ target ++ text " HTTP/1.1\r\nHost: " ++ host ++ s.fixed) :
  t.path = target ∧ t.host = host
  := by
  have hline : text " HTTP/1.1\r\nHost: " = text " HTTP/1.1\r\nHost:" ++ [32] := by decide +kernel
  rw [whole, List.append_left_inj, hline] at h
  have hsplit : text "GET " ++ t.path ++ text " HTTP/1.1\r\nHost:" ++ 32 :: t.host
      = text "GET " ++ target ++ text " HTTP/1.1\r\nHost:" ++ 32 :: host := by
    simpa using h
  obtain ⟨hpath, heq⟩ := append_blank_inj hhost hhost' hsplit
  rw [List.append_left_inj, List.append_right_inj] at hpath
  exact ⟨hpath, heq⟩

end Sender

/-! ### Whether the request is one for the URL -/

section

variable {u : Url} {t : Target}

theorem target_of_head (h : u.tail.head? = some 47) :
  u.target = u.tail.takeWhile (· ≠ 35)
  := by
  rw [Url.target, Url.path, if_pos h]

theorem target_of_not_head (h : ¬ u.tail.head? = some 47) :
  u.target = 47 :: u.tail.takeWhile (· ≠ 35)
  := by
  rw [Url.target, Url.path, if_neg h, List.takeWhile_cons_of_pos (by decide)]

theorem ne_of_mem_target {c : UInt8} (hc : c ∈ u.target) :
  c ≠ 35
  := by
  rw [Url.target] at hc
  simpa using List.mem_takeWhile_imp hc

/-- The path that is found is the target of the URL exactly when its tail is of a kind. -/
theorem target_eq_iff :
  u.target = (if u.tail.head? = some 47 then u.tail else [47])
    ↔ u.tail = [] ∨ (u.tail.head? = some 47 ∧ ∀ c ∈ u.tail, c ≠ 35) ∨ u.tail.head? = some 35
  := by
  by_cases hhead : u.tail.head? = some 47
  · have hne : u.tail ≠ [] := by
      intro hnil
      rw [hnil] at hhead
      cases hhead
    rw [target_of_head hhead, if_pos hhead, List.takeWhile_eq_self_iff]
    simp [hhead, hne]
  · rw [target_of_not_head hhead, if_neg hhead]
    cases htail : u.tail with
    | nil => simp
    | cons c tail =>
        have hc : c ≠ 47 := by
          rintro rfl
          exact hhead (by rw [htail]; rfl)
        simp [hc]

theorem Url.length_target (u : Url) :
  (u.tail.takeWhile (· ≠ 35)).length ≤ u.target.length
    ∧ u.target.length ≤ (u.tail.takeWhile (· ≠ 35)).length + 1
  := by
  by_cases hhead : u.tail.head? = some 47
  · rw [target_of_head hhead]
    exact ⟨le_rfl, Nat.le_succ _⟩
  · rw [target_of_not_head hhead]
    exact ⟨Nat.le_succ _, le_rfl⟩

/-- The host goes no further than it should when the tail is of a kind. -/
theorem hstop_of_targetOk (h : u.TargetOk) :
  u.host.length = hostSz - 1 ∨ ∀ c ∈ (u.portText ++ u.tail).head?, isHostByte c = false
  := by
  rw [Url.portText]
  cases hport : u.port with
  | none =>
      rw [List.nil_append]
      rcases h with hnil | ⟨hslash, -⟩ | ⟨-, hsome | hfull⟩
      · rw [hnil]
        exact Or.inr (by simp)
      · rw [hslash]
        right
        rintro c ⟨⟩
        decide
      · exact absurd hport hsome
      · exact Or.inl hfull
  | some digits =>
      right
      rintro c ⟨⟩
      decide

/-- The host and the target of a URL with the port of its scheme are found exactly when its scheme, its
host and its tail are of a kind. -/
theorem found_target_iff (h : Found u t) (hweb : ∃ b, u.schemeName = schemeName b)
    (hport : u.portNumber = some u.defaultPort) :
  u.host = t.host ∧ u.target = t.path ↔ u.SchemeOk ∧ u.HostOk ∧ u.TargetOk
  := by
  have hsome : u.portNumber.isSome := by
    rw [hport]
    rfl
  cases h with
  | rest b hadScheme p hscheme hname hreads hparse =>
      have hpath : (target b hadScheme u.host (u.portText ++ u.tail)).path = _ :=
        target_path_eq u.host hname hreads.tail hsome
      rw [← hreads.bytes] at hparse
      constructor
      · rintro ⟨hhost, htarget⟩
        obtain ⟨rest, hp, ht, -, hlength, hbytes⟩ := parseRest_some hparse
        rw [← hhost] at hp ht hlength hbytes
        have hrest := List.append_cancel_left hp
        rw [ht, ← hrest, hpath, target_eq_iff] at htarget
        refine ⟨hscheme, ⟨hlength, hbytes⟩, ?_⟩
        rcases htarget with hnil | hslash | hfragment
        · exact Or.inl hnil
        · exact Or.inr (Or.inl hslash)
        · right
          right
          use hfragment
          rcases parseRest_stop hparse hhost.symm with hfull | hstop
          · exact Or.inr hfull
          · left
            intro hnone
            rw [Url.portText, hnone, List.nil_append] at hstop
            cases hstop 35 hfragment
      · rintro ⟨-, hhostOk, htail⟩
        have hstop := hstop_of_targetOk htail
        have hne : u.host ≠ [] := by
          rcases hstop with hfull | hstop
          · rintro hnil
            rw [hnil] at hfull
            cases hfull
          · exact ne_nil_of_parseRest hparse hstop
        have heq : parseRest hostSz b hadScheme (u.host ++ (u.portText ++ u.tail)) = some _ :=
          parseRest_eq hne hhostOk.1 hhostOk.2 hstop
        rw [hparse] at heq
        rw [Option.some.inj heq, hpath, target_eq_iff]
        refine ⟨rfl, ?_⟩
        rcases htail with hnil | hslash | hfragment
        · exact Or.inl hnil
        · exact Or.inr (Or.inl hslash)
        · exact Or.inr (Or.inr hfragment.1)
  | separators b hnot hhost =>
      constructor
      · rintro ⟨hsame, htarget⟩
        obtain ⟨skipped, behind, hne, hskipped, htail, ht⟩ := hhost hsame hsome
        obtain ⟨hle, -⟩ := u.length_target
        have hpos := List.length_pos_iff.mpr hne
        have hname : 4 ≤ (schemeName b).length := by
          cases b <;> decide
        have hskipped' : ∀ c ∈ skipped, decide (c ≠ 35) = true := by
          intro c hc
          apply decide_eq_true
          rintro rfl
          cases hskipped 35 hc
        rw [htail, List.takeWhile_append_of_pos hskipped',
          List.takeWhile_append_of_pos (fun c hc => decide_eq_true (isSchemeByte_schemeName hc).2.2.1),
          List.length_append, List.length_append, htarget] at hle
        rcases target_path b true (schemeName b) behind with hroot | ⟨dropped, hdropped, hbehind⟩
        · rw [ht, hroot, List.length_singleton] at hle
          omega
        · rw [← ht] at hbehind
          have hall : ∀ c ∈ behind, decide (c ≠ 35) = true := by
            intro c hc
            rw [hbehind] at hc
            rcases List.mem_append.mp hc with hc | hc
            · exact decide_eq_true (hdropped c hc)
            · rw [← htarget] at hc
              exact decide_eq_true (ne_of_mem_target hc)
          rw [List.takeWhile_eq_self_iff.mpr hall] at hle
          have hlength := congrArg List.length hbehind
          rw [List.length_append] at hlength
          omega
      · rintro ⟨hscheme, hhostOk, -⟩
        exact absurd hscheme (hnot hhostOk)
  | scheme hnot hpath =>
      constructor
      · rintro ⟨-, htarget⟩
        obtain ⟨b, hname⟩ := hweb
        obtain ⟨rest, hsuffix, hrest⟩ := hpath b hname
        obtain ⟨-, hle⟩ := u.length_target
        have hshort := hsuffix.length_le
        have htake := (List.takeWhile_sublist (· ≠ 35) (l := u.tail)).length_le
        rw [htarget, hrest, List.length_cons, List.length_cons] at hle
        omega
      · rintro ⟨hscheme, -⟩
        exact absurd hscheme hnot

theorem Url.head_target (u : Url) :
  u.target.head? = some 47
  := by
  by_cases hhead : u.tail.head? = some 47
  · obtain ⟨tail, htail⟩ := List.head?_eq_some_iff.mp hhead
    rw [target_of_head hhead, htail, List.takeWhile_cons_of_pos (by decide)]
    rfl
  · rw [target_of_not_head hhead]
    rfl

theorem Url.SchemeOk.isHttps (h : u.SchemeOk) :
  ∃ b, u.schemeName = Http.schemeName b
  := by
  rw [SchemeOk] at h
  rw [Url.schemeName]
  cases hscheme : u.scheme with
  | none => exact ⟨true, rfl⟩
  | some scheme =>
      rw [hscheme] at h
      obtain ⟨b, rfl⟩ := h
      use b
      cases b <;> decide

/-- A host that the function finds has no port in it. -/
theorem portNumber_of_hostValue (h : ∀ c ∈ u.hostValue, c ≠ 58) :
  u.portNumber = some u.defaultPort
  := by
  by_contra hnot
  rw [Url.hostValue, if_neg hnot, Url.portText] at h
  cases hport : u.port with
  | none =>
      apply hnot
      rw [Url.portNumber, hport]
  | some digits =>
      rw [hport] at h
      exact h 58 (by simp) rfl

/-- The request for a URL. -/
def requestFor (u : Url) (s : Sender) (h : u.Requestable s) : Request where
  target := u.target
  fields :=
    { name := text "Host"
      value := 32 :: u.host
      name_ne_nil := by decide
      isToken := by decide +kernel
      isText := by
        intro c hc
        rcases List.mem_cons.mp hc with rfl | hc
        · rfl
        · have hvisible := (h.isVisible c hc).1
          rw [Http.isVisible] at hvisible
          rw [Http.isText]
          grind } :: s.header
  head := u.head_target
  isVisible := h.isVisible'
  noFragment := fun _ hc => ne_of_mem_target hc

/-- The bytes that are sent are a request for the URL exactly when the string is refused or the URL is
of a kind. -/
theorem requestLaw_iff (s : Sender) (url : List UInt8) :
  RequestLaw s url ↔ Refused (url.dropWhile isSpace) ∨ (readUrl url).Requestable s
  := by
  rw [← parseUrl_eq_none_iff, RequestLaw]
  cases hparse : parseUrl hostSz url with
  | none => simp
  | some t =>
      have hfound := found hparse
      obtain ⟨-, -, hhost⟩ := parseUrl_host hparse
      generalize readUrl url = u at *
      have hends (c : UInt8) (hc : c ∈ t.host) : c ≠ 58 ∧ c ≠ 32 := by
        obtain ⟨hcolon, -, hblank⟩ := of_decide_eq_true (hhost c hc)
        exact ⟨hcolon, hblank⟩
      constructor
      · intro hlaw
        right
        obtain ⟨⟨r, hr, hbytes⟩, hwhole⟩ := hlaw t rfl
        have hblank (c : UInt8) (hc : c ∈ u.hostValue) : c ≠ 32 := by
          rintro rfl
          exact absurd (hr.host 32 hc).1 (by decide)
        obtain ⟨hpath, hvalue⟩ := Sender.whole_injective (fun c hc => (hends c hc).2) hblank
          (hwhole.symm.trans (hbytes.trans (Sender.bytes_requestedBy hr)))
        have hport : u.portNumber = some u.defaultPort := by
          apply portNumber_of_hostValue
          rw [← hvalue]
          exact fun c hc => (hends c hc).1
        have hvisible := hr.host
        rw [Url.hostValue, if_pos hport] at hvalue hvisible
        obtain ⟨hscheme, hhostOk, htail⟩ :=
          (found_target_iff hfound hr.scheme hport).mp ⟨hvalue.symm, hpath.symm⟩
        rw [Sender.request_eq_whole_iff, hpath, hvalue] at hwhole
        refine ⟨hscheme, hhostOk, hport, htail, hvisible, ?_, hwhole⟩
        rw [← hr.target]
        exact r.isVisible
      · rintro (hnone | hrequestable) t' ht'
        · cases hnone
        · rw [← Option.some.inj ht']
          have hweb := hrequestable.scheme.isHttps
          obtain ⟨hsame, htarget⟩ := (found_target_iff hfound hweb hrequestable.port).mpr
            ⟨hrequestable.scheme, hrequestable.host, hrequestable.tail⟩
          have hvalue : u.hostValue = u.host := if_pos hrequestable.port
          have hwhole : s.request t = s.whole t := by
            rw [Sender.request_eq_whole_iff, ← htarget, ← hsame]
            exact hrequestable.length
          have hr : u.RequestedBy s.header (requestFor u s hrequestable) := by
            refine ⟨hweb, ?_, rfl, _, rfl, ?_, rfl⟩
            · rw [hvalue]
              exact hrequestable.isVisible
            · rw [hvalue]
          refine ⟨⟨_, hr, ?_⟩, hwhole⟩
          rw [hwhole, Sender.bytes_requestedBy hr, Sender.whole, hvalue, ← htarget, ← hsame]

/-- The port is missing behind the host. -/
theorem not_requestLaw :
  ¬ RequestLaw .fetch (text "http://a:8080/")
  := by
  intro hlaw
  obtain ⟨⟨r, hr, hbytes⟩, hwhole⟩ := hlaw _ rfl
  obtain ⟨-, hhost⟩ := Sender.whole_injective (by decide +kernel) (by decide +kernel)
    (hwhole.symm.trans (hbytes.trans (Sender.bytes_requestedBy hr)))
  revert hhost
  decide +kernel

end

end Http
