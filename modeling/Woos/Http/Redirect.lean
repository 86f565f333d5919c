import Woos.Http.Request

/-!
# Redirects

When a response is a redirect, `net_http_fetch_single` writes the next URL to a buffer of 512 bytes.  A
location that begins with a slash is put behind the scheme and the host, without the port.
`KeepsOrigin` says that the next URL is then parsed as one of the same origin with that path, and
that two slashes name another host; `keepsOrigin_iff` says when this is so.
-/

namespace Http

/-! ### The next URL -/

/-- `next_sz` -/
def nextSz : Nat := 512

/-- The next URL for a location, which more of the response follows. -/
def nextUrl (isHttps : Bool) (host loc : List UInt8) : List UInt8 :=
  let base :=
    if loc.head? = some 47 then
      strCat (strCat [] (if isHttps then text "https://" else text "http://") nextSz) host nextSz
    else []
  base ++ (loc.takeWhile (fun c => c ≠ cr ∧ c ≠ lf)).take (nextSz - 1 - base.length)

/-- Where a response comes from: the scheme, the host and the port that have been found; or, when there
was no scheme and no connection, `http` and its port. -/
inductive Served (t : Target) : Target → Prop where
  | direct : Served t t
  | fallback (hscheme : t.hadScheme = false) (hhttps : t.isHttps = true) :
      Served t { t with isHttps := false, port := 80 }

/-- The value of a field without the blanks around it. -/
def Field.content (f : Field) : List UInt8 := (f.value.dropWhile isSpace).rdropWhile isSpace

/-- The next URL for a field `Location`, when `rest` follows its line in the response. -/
def Target.next (o : Target) (f : Field) (rest : List UInt8) : List UInt8 :=
  nextUrl o.isHttps o.host ((f.value ++ cr :: lf :: rest).dropWhile isSpace)

/-- A path: it begins with a single slash. -/
def IsPath (loc : List UInt8) : Prop := loc.head? = some 47 ∧ loc.tail.head? ≠ some 47

/-- A location that begins with two slashes. -/
def NamesHost (loc : List UInt8) : Prop := loc.head? = some 47 ∧ loc.tail.head? = some 47

/-- The URL that a location with two slashes is. -/
def Target.resolve (o : Target) (loc : List UInt8) : Url := readUrl (schemeName o.isHttps ++ 58 :: loc)

/-- The next URL is parsed as one of the same origin with the path, and for two slashes as the URL that
the location is. -/
structure KeepsOrigin (o : Target) (f : Field) (rest : List UInt8) : Prop where
  path : IsPath f.content → ∃ t, parseUrl hostSz (o.next f rest) = some t
    ∧ t.isHttps = o.isHttps ∧ t.host = o.host ∧ t.port = o.port ∧ t.path = f.content
  other : NamesHost f.content → ∃ t, parseUrl hostSz (o.next f rest) = some t
    ∧ (o.resolve f.content).Denotes t

/-- The number of bytes that are left for the location. -/
def Target.room (o : Target) : Nat := nextSz - 1 - ((schemeName o.isHttps).length + 3 + o.host.length)

/-- When the origin is kept: the port is that of the scheme, and the path fits into the buffer, with no
blanks behind it that do.  A location with two slashes has to be cut off, and to name the same host,
with the port of the scheme, and a path that is what the buffer holds of the location. -/
structure KeepsWhen (o : Target) (f : Field) : Prop where
  path : IsPath f.content → o.port = defaultPort o.isHttps ∧ f.content.length ≤ o.room
    ∧ (f.content.length = o.room ∨ f.value.dropWhile isSpace = f.content)
  other : NamesHost f.content → o.room < (f.value.dropWhile isSpace).length
    ∧ (o.resolve f.content).host = o.host
    ∧ (o.resolve f.content).portNumber = some (defaultPort o.isHttps).toNat
    ∧ (o.resolve f.content).path = (f.value.dropWhile isSpace).take o.room

/-! ### The next URL is parsed -/

section

variable {t o : Target} {f : Field} {rest : List UInt8}

theorem takeScheme_slashes (b : Bool) (p : List UInt8) :
  takeScheme (schemeName b ++ text "://" ++ p) = (b, true, p)
  := by
  cases b
  · rfl
  · rfl

/-- A URL with a scheme, a host that fits, and a path behind it is parsed. -/
theorem parseUrl_slashes (b : Bool) {host path : List UInt8} (hne : host ≠ [])
    (hlength : host.length < hostSz) (hbytes : ∀ c ∈ host, isHostByte c = true)
    (hpath : path.head? = some 47) :
  parseUrl hostSz (schemeName b ++ text "://" ++ (host ++ path))
    = some { isHttps := b, hadScheme := true, host, port := defaultPort b, path }
  := by
  obtain ⟨p, rfl⟩ := List.head?_eq_some_iff.mp hpath
  have hstart : (schemeName b ++ text "://" ++ (host ++ 47 :: p)).dropWhile isSpace
      = schemeName b ++ text "://" ++ (host ++ 47 :: p) := by
    cases b <;> rfl
  have hslash : ∀ c ∈ (47 :: p).head?, isHostByte c = false := by
    rintro c ⟨⟩
    decide
  have hcons : schemeName b ++ text "://" ++ (host ++ 47 :: p) ≠ [] := by
    cases b <;> simp [schemeName, text]
  rw [parseUrl, if_neg (by decide), hstart, if_neg hcons, takeScheme_slashes]
  dsimp only
  rw [parseRest_eq hne hlength hbytes (Or.inr hslash)]
  rfl

/-- The bytes of a value do not end its line. -/
theorem takeWhile_value (f : Field) (rest : List UInt8) :
  ((f.value.dropWhile isSpace) ++ cr :: lf :: rest).takeWhile (fun c => c ≠ cr ∧ c ≠ lf)
    = f.value.dropWhile isSpace
  := by
  have htext : ∀ c ∈ f.value.dropWhile isSpace, decide (c ≠ cr ∧ c ≠ lf) = true := by
    intro c hc
    obtain ⟨hcr, hlf, -⟩ := ne_of_isText (f.isText c ((List.dropWhile_sublist _).mem hc))
    exact decide_eq_true ⟨hcr, hlf⟩
  rw [List.takeWhile_append_of_pos htext, List.takeWhile_cons_of_neg (by decide), List.append_nil]

theorem content_initial (f : Field) :
  f.content <+: f.value.dropWhile isSpace
  := List.rdropWhile_prefix isSpace _

theorem head_value (hslash : f.content.head? = some 47) :
  (f.value.dropWhile isSpace).head? = some 47
  := by
  obtain ⟨p, hp⟩ := List.head?_eq_some_iff.mp hslash
  obtain ⟨blanks, hblanks⟩ := content_initial f
  rw [← hblanks, hp]
  rfl

/-- The scheme and the host fit into the buffer. -/
theorem strCat_scheme_host (b : Bool) {host : List UInt8} (hlength : host.length < hostSz) :
  strCat (strCat [] (if b then text "https://" else text "http://") nextSz) host nextSz
    = schemeName b ++ text "://" ++ host
  := by
  have hscheme : strCat [] (if b then text "https://" else text "http://") nextSz
      = schemeName b ++ text "://" := by
    cases b <;> rfl
  have hsize : (schemeName b ++ text "://").length ≤ 8 := by
    cases b <;> decide
  have hhost : hostSz = 64 := rfl
  have hnext : nextSz = 512 := rfl
  rw [hscheme, strCat, List.take_of_length_le]
  omega

/-- The next URL for a location that begins with a slash. -/
theorem next_eq (hlength : o.host.length < hostSz) (hslash : f.content.head? = some 47) :
  o.next f rest = schemeName o.isHttps ++ text "://"
    ++ (o.host ++ (f.value.dropWhile isSpace).take o.room)
  := by
  have hhead := head_value hslash
  have hdrop : (f.value ++ cr :: lf :: rest).dropWhile isSpace
      = f.value.dropWhile isSpace ++ cr :: lf :: rest := by
    rw [List.dropWhile_append, if_neg]
    intro hnil
    rw [List.isEmpty_iff.mp hnil] at hhead
    cases hhead
  have hhead' : (f.value.dropWhile isSpace ++ cr :: lf :: rest).head? = some 47 := by
    rw [List.head?_append, hhead]
    rfl
  have hroom : nextSz - 1 - (schemeName o.isHttps ++ text "://" ++ o.host).length = o.room := by
    have hslashes : (text "://").length = 3 := by decide
    rw [Target.room, List.length_append, List.length_append, hslashes]
  rw [Target.next, nextUrl, hdrop, takeWhile_value, if_pos hhead', strCat_scheme_host _ hlength, hroom]
  simp

theorem room_pos (hlength : o.host.length < hostSz) :
  0 < o.room
  := by
  have hscheme : (schemeName o.isHttps).length ≤ 5 := by
    cases o.isHttps <;> decide
  have hhost : hostSz = 64 := rfl
  have hnext : nextSz = 512 := rfl
  rw [Target.room]
  omega

/-- The next URL for a location that begins with a slash is parsed as one of the same host, with the
default port. -/
theorem parseUrl_next (hne : o.host ≠ []) (hlength : o.host.length < hostSz)
    (hbytes : ∀ c ∈ o.host, isHostByte c = true) (hslash : f.content.head? = some 47) :
  parseUrl hostSz (o.next f rest)
    = some { isHttps := o.isHttps, hadScheme := true, host := o.host, port := defaultPort o.isHttps,
             path := (f.value.dropWhile isSpace).take o.room }
  := by
  have hpath : ((f.value.dropWhile isSpace).take o.room).head? = some 47 := by
    rw [List.head?_take, if_neg (room_pos hlength).ne']
    exact head_value hslash
  rw [next_eq hlength hslash, parseUrl_slashes _ hne hlength hbytes hpath]

/-- What the buffer holds of a value is its content exactly when that fits. -/
theorem take_value_iff (f : Field) (n : Nat) :
  (f.value.dropWhile isSpace).take n = f.content
    ↔ f.content.length ≤ n ∧ (f.content.length = n ∨ f.value.dropWhile isSpace = f.content)
  := by
  obtain ⟨blanks, hblanks⟩ := content_initial f
  generalize f.value.dropWhile isSpace = v at *
  constructor
  · intro htake
    have hlength := congrArg List.length htake
    rw [List.length_take] at hlength
    by_cases hfull : f.content.length = n
    · exact ⟨hfull.le, Or.inl hfull⟩
    · have hshort : v.length ≤ n := by omega
      rw [List.take_of_length_le hshort] at htake
      exact ⟨by omega, Or.inr htake⟩
  · rintro ⟨hle, hfull | hsame⟩
    · rw [← hblanks, ← hfull, List.take_left]
    · rw [hsame, List.take_of_length_le hle]

theorem Served.host (h : Served t o) :
  o.host = t.host
  := by
  cases h <;> rfl

/-- The parts of a location with two slashes are those behind the slashes. -/
theorem resolve_eq (hother : NamesHost f.content) :
  ∃ p, f.content = 47 :: 47 :: p
    ∧ o.resolve f.content = readAuthority (some (schemeName o.isHttps)) p
  := by
  obtain ⟨p, hp⟩ := List.head?_eq_some_iff.mp hother.1
  have hother' := hother.2
  rw [hp, List.tail_cons] at hother'
  obtain ⟨p', rfl⟩ := List.head?_eq_some_iff.mp hother'
  have hcolon : 58 :: 47 :: 47 :: p' = text "://" ++ p' := rfl
  have hstart (l : List UInt8) :
      (schemeName o.isHttps ++ l).dropWhile isSpace = schemeName o.isHttps ++ l := by
    cases o.isHttps <;> rfl
  refine ⟨p', hp, ?_⟩
  rw [Target.resolve, hp, readUrl, hstart, hcolon, ← List.append_assoc, readScheme_slashes]

/-- The path that a location with two slashes names is shorter than the location. -/
theorem length_path_resolve (hother : NamesHost f.content) :
  (o.resolve f.content).path.length < (f.value.dropWhile isSpace).length
  := by
  obtain ⟨p, hp, hresolve⟩ := resolve_eq (o := o) hother
  have hle := (content_initial f).length_le
  have hbytes := congrArg List.length
    (readAuthority_reads (some (schemeName o.isHttps)) p).bytes
  obtain ⟨-, hpath⟩ := (o.resolve f.content).length_path
  rw [hp, List.length_cons, List.length_cons] at hle
  rw [List.length_append, List.length_append, ← hresolve] at hbytes
  omega

/-- The origin of a response is kept exactly when `KeepsWhen` holds. -/
theorem keepsOrigin_iff {url : List UInt8} (hparse : parseUrl hostSz url = some t)
    (hserved : Served t o) :
  KeepsOrigin o f rest ↔ KeepsWhen o f
  := by
  obtain ⟨hne, hlength, hbytes⟩ := parseUrl_host hparse
  rw [← hserved.host] at hne hlength hbytes
  have hnext (hslash : f.content.head? = some 47) : parseUrl hostSz (o.next f rest) = some _ :=
    parseUrl_next hne hlength hbytes hslash
  constructor
  · intro hkeeps
    constructor
    · intro hpath
      obtain ⟨t', ht', -, -, hport, hloc⟩ := hkeeps.path hpath
      rw [hnext hpath.1] at ht'
      obtain rfl := Option.some.inj ht'
      exact ⟨hport.symm, (take_value_iff f o.room).mp hloc⟩
    · intro hother
      obtain ⟨t', ht', hdenotes⟩ := hkeeps.other hother
      rw [hnext hother.1] at ht'
      obtain rfl := Option.some.inj ht'
      refine ⟨?_, hdenotes.host, hdenotes.port, hdenotes.path⟩
      -- a location that is not cut off is longer than the path that it names
      by_contra hfits
      have hshort := length_path_resolve (o := o) hother
      rw [hdenotes.path, List.take_of_length_le (Nat.le_of_not_lt hfits)] at hshort
      exact Nat.lt_irrefl _ hshort
  · intro hwhen
    constructor
    · intro hpath
      obtain ⟨hport, hfits⟩ := hwhen.path hpath
      exact ⟨_, hnext hpath.1, rfl, rfl, hport.symm, (take_value_iff f o.room).mpr hfits⟩
    · intro hother
      obtain ⟨-, hhost, hport, hpath⟩ := hwhen.other hother
      obtain ⟨p, -, hresolve⟩ := resolve_eq (o := o) hother
      refine ⟨_, hnext hother.1, ?_, hhost, hport, hpath⟩
      rw [hresolve, schemeName_readAuthority]

end

/-- A field `Location` with the path `/x`. -/
def pathField : Field :=
  field "Location" " /x" (by decide) (by decide +kernel) (by decide +kernel)

/-- What is found for a URL with a port. -/
def portTarget : Target := ⟨false, true, text "a", 8080, text "/"⟩

theorem parseUrl_portTarget :
  parseUrl hostSz (text "http://a:8080/") = some portTarget
  := rfl

/-- The case of that field and that URL. -/
theorem keepsOrigin_iff_portTarget :
  KeepsOrigin portTarget pathField [] ↔ KeepsWhen portTarget pathField
  := keepsOrigin_iff parseUrl_portTarget Served.direct

/-- The port is lost. -/
theorem not_keepsOrigin :
  parseUrl hostSz (text "http://a:8080/") = some portTarget ∧ Served portTarget portTarget
    ∧ ¬ KeepsOrigin portTarget pathField []
  := by
  refine ⟨rfl, Served.direct, ?_⟩
  intro hkeeps
  obtain ⟨t, ht, -, -, hport, -⟩ := hkeeps.path ⟨by decide +kernel, by decide +kernel⟩
  have hdefault : t.port = 80 := by
    rw [← Option.some.inj ht]
    rfl
  rw [hdefault] at hport
  exact absurd hport (by decide)

end Http
