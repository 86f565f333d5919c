import Mathlib.Data.List.DropRight
import Mathlib.Data.FinEnum
import Woos.Http.Complete

/-!
# URLs

`parse_url` takes a URL apart by a few loops.  `readUrl` says what the parts of a URL are, for every
string: the scheme before `://`, the host and the port up to the first of the bytes `/`, `?` and
`#`, and the rest.  `faithful_iff` says for which strings the function finds these parts, or fails.
-/

namespace Http

/-! ### The function -/

/-- The names of the two schemes. -/
def schemeName (isHttps : Bool) : List UInt8 := if isHttps then text "https" else text "http"

/-- The ports of the two schemes. -/
def defaultPort (isHttps : Bool) : UInt16 := if isHttps then 443 else 80

/-- A byte that is skipped behind a scheme that `://` does not follow. -/
def isSeparator (c : UInt8) : Bool := c = 32 ∨ c = 47 ∨ c = 58

/-- A byte that does not end the host: it is neither `:`, nor `/`, nor a blank. -/
def isHostByte (c : UInt8) : Bool := c ≠ 58 ∧ c ≠ 47 ∧ c ≠ 32

/-- What `parse_url` finds. -/
structure Target where
  isHttps : Bool
  hadScheme : Bool
  host : List UInt8
  port : UInt16
  path : List UInt8

/-- The scheme: `is_https`, `had_scheme`, and what follows. -/
def takeScheme (p : List UInt8) : Bool × Bool × List UInt8 :=
  if p.take 8 = text "https://" then (true, true, p.drop 8)
  else if p.take 7 = text "http://" then (false, true, p.drop 7)
  else if p.take 5 = text "https" ∧ (p[5]? = some 32 ∨ p[5]? = some 58) then
    (true, true, (p.drop 5).dropWhile isSeparator)
  else if p.take 4 = text "http" ∧ (p[4]? = some 32 ∨ p[4]? = some 58) then
    (false, true, (p.drop 4).dropWhile isSeparator)
  else (true, false, p)

/-- The port, and what follows. -/
def takePort (port : UInt16) : List UInt8 → UInt16 × List UInt8
  | [] => (port, [])
  | c :: cs =>
      if c = 58 then
        let pVal := decimalWord 0 (cs.takeWhile isDigit)
        (if 0 < pVal ∧ pVal ≤ 65535 then pVal.toUInt16 else port, cs.dropWhile isDigit)
      else (port, c :: cs)

/-- The port and the path behind a host. -/
def target (isHttps hadScheme : Bool) (host p : List UInt8) : Target :=
  let port := takePort (defaultPort isHttps) p
  let p := port.2.dropWhile (· = 32)
  { isHttps, hadScheme, host, port := port.1, path := if p.head? = some 47 then p else [47] }

/-- The end of `parse_url`, behind the scheme. -/
def parseRest (hostSz : Nat) (isHttps hadScheme : Bool) (p : List UInt8) : Option Target :=
  let host := (p.takeWhile isHostByte).take (hostSz - 1)
  if host = [] then none else some (target isHttps hadScheme host (p.drop host.length))

/-- `parse_url` -/
def parseUrl (hostSz : Nat) (url : List UInt8) : Option Target :=
  if hostSz < 4 then none
  else
    let p := url.dropWhile isSpace
    if p = [] then none
    else
      let (isHttps, hadScheme, p) := takeScheme p
      parseRest hostSz isHttps hadScheme p

/-- `sizeof(host_buf)` -/
def hostSz : Nat := 64

/-! ### What a URL says -/

/-- The parts of a URL: the tail is the path, the query and the fragment. -/
structure Url where
  scheme : Option (List UInt8)
  host : List UInt8
  port : Option (List UInt8)
  tail : List UInt8

/-- A letter, a digit, or one of the bytes `+`, `-` and `.`. -/
def isSchemeByte (c : UInt8) : Bool :=
  (97 ≤ lower c ∧ lower c ≤ 122) ∨ isDigit c ∨ c = 43 ∨ c = 45 ∨ c = 46

/-- One of the bytes `/`, `?` and `#`. -/
def endsAuthority (c : UInt8) : Bool := c = 47 ∨ c = 63 ∨ c = 35

/-- A byte that does not come before a port: the last `:` does, if it is not in brackets nor before a
`@`. -/
def isPortByte (c : UInt8) : Bool := c ≠ 58 ∧ c ≠ 93 ∧ c ≠ 64

/-- The parts of a URL behind its scheme. -/
def readAuthority (scheme : Option (List UInt8)) (l : List UInt8) : Url :=
  let authority := l.takeWhile (!endsAuthority ·)
  let tail := l.dropWhile (!endsAuthority ·)
  let before := authority.rdropWhile isPortByte
  if before.getLast? = some 58 then
    { scheme, host := before.dropLast, port := some (authority.rtakeWhile isPortByte), tail }
  else { scheme, host := authority, port := none, tail }

/-- The parts of a URL. -/
def readScheme (l : List UInt8) : Url :=
  let scheme := l.takeWhile isSchemeByte
  let rest := l.dropWhile isSchemeByte
  if scheme ≠ [] ∧ rest.take 3 = text "://" then readAuthority (some scheme) (rest.drop 3)
  else readAuthority none l

/-- The parts of a URL, which blanks may come before. -/
def readUrl (url : List UInt8) : Url := readScheme (url.dropWhile isSpace)

namespace Url

/-- The scheme in lower case, which is `https` when there is none. -/
def schemeName (u : Url) : List UInt8 :=
  match u.scheme with
  | none => text "https"
  | some scheme => scheme.map lower

/-- The port of the scheme. -/
def defaultPort (u : Url) : Nat := if u.schemeName = text "http" then 80 else 443

/-- The port as a number, which is that of the scheme when there is none. -/
def portNumber (u : Url) : Option Nat :=
  match u.port with
  | none | some [] => some u.defaultPort
  | some digits => if ∀ c ∈ digits, isDigit c = true then some (decimal 0 digits) else none

/-- The path, the query and the fragment, where the root is made explicit. -/
def path (u : Url) : List UInt8 := if u.tail.head? = some 47 then u.tail else 47 :: u.tail

/-- The URL is the one that has been found. -/
structure Denotes (u : Url) (t : Target) : Prop where
  scheme : u.schemeName = Http.schemeName t.isHttps
  host : u.host = t.host
  port : u.portNumber = some t.port.toNat
  path : u.path = t.path

/-- The host is one that the function finds. -/
def HostOk (u : Url) : Prop := u.host.length < hostSz ∧ ∀ c ∈ u.host, isHostByte c = true

/-- The port is absent, or a number that a port can have. -/
def PortOk (u : Url) : Prop :=
  ∀ digits, u.port = some digits → digits ≠ [] →
    (∀ c ∈ digits, isDigit c = true) ∧ 0 < decimal 0 digits ∧ decimal 0 digits ≤ 65535

/-- The tail is empty or begins with a path. -/
def TailOk (u : Url) : Prop := u.tail = [] ∨ u.tail.head? = some 47

/-- The scheme is absent, or `http` or `https` in lower case; a host without a scheme in front and
with a port behind is not called `http` or `https`. -/
def SchemeOk (u : Url) : Prop :=
  match u.scheme with
  | none => u.port = none ∨ ∀ isHttps, u.host ≠ Http.schemeName isHttps
  | some scheme => ∃ isHttps, scheme = Http.schemeName isHttps

/-- The URL is one of the kind that the function parses. -/
structure Plain (u : Url) : Prop where
  scheme : u.SchemeOk
  host : u.HostOk
  port : u.PortOk
  tail : u.TailOk

end Url

/-- A string without a host for the function: it is empty or begins with `:` or `/`; or this is so, or a
blank follows, behind `http://` or `https://`; or only blanks and the bytes `:` and `/` follow `http`
or `https`. -/
inductive Refused : List UInt8 → Prop where
  | start (l : List UInt8) (h : ∀ c ∈ l.head?, c = 58 ∨ c = 47) : Refused l
  | scheme (isHttps : Bool) (l : List UInt8) (h : ∀ c ∈ l.head?, isSeparator c = true) :
      Refused (schemeName isHttps ++ text "://" ++ l)
  | separators (isHttps : Bool) (l : List UInt8) (hne : l ≠ [])
      (h : ∀ c ∈ l, isSeparator c = true) (hfirst : l.head? ≠ some 47) :
      Refused (schemeName isHttps ++ l)

/-- When the function succeeds, it finds the URL that the string is. -/
def FaithfulLaw (url : List UInt8) : Prop :=
  ∀ t, parseUrl hostSz url = some t → (readUrl url).Denotes t

/-! ### The parts of a URL -/

namespace Url

/-- The port with the byte before it. -/
def portText (u : Url) : List UInt8 :=
  match u.port with
  | none => []
  | some digits => 58 :: digits

/-- The parts of a URL make up a string, and the tail begins with a byte that ends the authority. -/
structure Reads (u : Url) (l : List UInt8) : Prop where
  bytes : u.host ++ (u.portText ++ u.tail) = l
  tail : ∀ c ∈ u.tail.head?, endsAuthority c = true

end Url

theorem readAuthority_scheme (scheme : Option (List UInt8)) (l : List UInt8) :
  (readAuthority scheme l).scheme = scheme
  := by
  rw [readAuthority]
  split <;> rfl

/-- Nothing of a string is lost. -/
theorem readAuthority_reads (scheme : Option (List UInt8)) (l : List UInt8) :
  (readAuthority scheme l).Reads l
  := by
  have htail : ∀ c ∈ (l.dropWhile (!endsAuthority ·)).head?, endsAuthority c = true := by
    intro c hc
    have hnot := List.head?_dropWhile_not (!endsAuthority ·) l
    rw [Option.mem_def.mp hc] at hnot
    simpa using hnot
  have hsplit := List.takeWhile_append_dropWhile (p := (!endsAuthority ·)) (l := l)
  rw [readAuthority]
  generalize l.takeWhile (!endsAuthority ·) = authority at *
  generalize l.dropWhile (!endsAuthority ·) = tail at *
  split
  case isTrue hlast =>
    constructor
    · have hport : authority.rdropWhile isPortByte ++ authority.rtakeWhile isPortByte = authority :=
        List.rdropWhile_append_rtakeWhile
      have hcolon := List.dropLast_append_getLast? 58 hlast
      rw [Url.portText, ← hsplit]
      calc (authority.rdropWhile isPortByte).dropLast
            ++ (58 :: authority.rtakeWhile isPortByte ++ tail)
          = (authority.rdropWhile isPortByte).dropLast ++ [58]
            ++ authority.rtakeWhile isPortByte ++ tail := by simp
        _ = authority ++ tail := by rw [hcolon, hport]
    · exact htail
  case isFalse => exact ⟨hsplit, htail⟩

section

variable {u : Url} {isHttps hadScheme : Bool}

theorem Url.defaultPort_eq (hname : u.schemeName = Http.schemeName isHttps) :
  u.defaultPort = (Http.defaultPort isHttps).toNat
  := by
  rw [defaultPort, hname]
  cases isHttps <;> decide

theorem not_isDigit_of_endsAuthority {c : UInt8} (h : endsAuthority c = true) :
  c ≠ 58 ∧ c ≠ 32 ∧ isDigit c = false
  := by
  rcases of_decide_eq_true h with rfl | rfl | rfl <;> decide

theorem takeWhile_digits {digits tail : List UInt8} (hdigits : ∀ c ∈ digits, isDigit c = true)
    (htail : ∀ c ∈ tail.head?, endsAuthority c = true) :
  (digits ++ tail).takeWhile isDigit = digits ∧ (digits ++ tail).dropWhile isDigit = tail
  := by
  rw [List.takeWhile_append_of_pos hdigits, List.dropWhile_append_of_pos hdigits]
  cases tail with
  | nil => simp
  | cons c tail =>
      obtain ⟨-, -, hnot⟩ := not_isDigit_of_endsAuthority (htail c rfl)
      rw [List.takeWhile_cons_of_neg (by simp [hnot]), List.dropWhile_cons_of_neg (by simp [hnot]),
        List.append_nil]
      exact ⟨rfl, rfl⟩

/-- The number of a port is found exactly when it is one that a port can have. -/
theorem toNat_pVal (digits : List UInt8) :
  decimal 0 digits = (if 0 < decimalWord 0 digits ∧ decimalWord 0 digits ≤ 65535 then
      (decimalWord 0 digits).toUInt16 else defaultPort isHttps).toNat
    ↔ 0 < decimal 0 digits ∧ decimal 0 digits ≤ 65535
  := by
  have hword := toNat_decimalWord 0 digits
  rw [UInt32.toNat_zero] at hword
  have hmax : (65535 : UInt32).toNat = 65535 := rfl
  split
  case isTrue hrange =>
    rw [UInt32.lt_iff_toNat_lt, UInt32.le_iff_toNat_le, UInt32.toNat_zero, hmax] at hrange
    rw [UInt32.toNat_toUInt16]
    omega
  case isFalse hrange =>
    rw [UInt32.lt_iff_toNat_lt, UInt32.le_iff_toNat_le, UInt32.toNat_zero, hmax] at hrange
    have hdefault : (defaultPort isHttps).toNat = 443 ∨ (defaultPort isHttps).toNat = 80 := by
      cases isHttps
      · exact Or.inr rfl
      · exact Or.inl rfl
    omega

/-- The port that is found is the number in the URL exactly when a port can have it, and then the tail
is left. -/
theorem takePort_portText (hname : u.schemeName = schemeName isHttps)
    (htail : ∀ c ∈ u.tail.head?, endsAuthority c = true) :
  (u.portNumber = some (takePort (defaultPort isHttps) (u.portText ++ u.tail)).1.toNat ↔ u.PortOk)
    ∧ (u.portNumber.isSome →
      (takePort (defaultPort isHttps) (u.portText ++ u.tail)).2 = u.tail)
  := by
  have hdefault := Url.defaultPort_eq hname
  rw [Url.portNumber, Url.portText, Url.PortOk]
  cases hport : u.port with
  | none =>
      have htake : takePort (defaultPort isHttps) u.tail = (defaultPort isHttps, u.tail) := by
        cases hcases : u.tail with
        | nil => rfl
        | cons c tail =>
            rw [hcases] at htail
            exact if_neg (not_isDigit_of_endsAuthority (htail c rfl)).1
      rw [List.nil_append, htake]
      simp [hdefault]
  | some digits =>
      cases digits with
      | nil =>
          obtain ⟨htakeWhile, hdropWhile⟩ :=
            @takeWhile_digits [] u.tail (fun _ h => (List.not_mem_nil h).elim) htail
          rw [List.nil_append] at htakeWhile hdropWhile
          rw [List.cons_append, List.nil_append, takePort, if_pos rfl, htakeWhile, hdropWhile,
            decimalWord]
          simp [hdefault]
      | cons c cs =>
          by_cases hdigits : ∀ d ∈ c :: cs, isDigit d = true
          · obtain ⟨htakeWhile, hdropWhile⟩ := takeWhile_digits hdigits htail
            rw [List.cons_append, takePort, if_pos rfl, htakeWhile, hdropWhile]
            dsimp only
            rw [if_pos hdigits, Option.some.injEq, toNat_pVal]
            constructor
            · constructor
              · rintro hrange digits hsome -
                obtain rfl := Option.some.inj hsome
                exact ⟨hdigits, hrange⟩
              · intro hok
                exact (hok _ rfl (List.cons_ne_nil c cs)).2
            · intro _
              rfl
          · dsimp only
            rw [if_neg hdigits]
            constructor
            · constructor
              · intro hnone
                cases hnone
              · intro hok
                exact absurd (hok _ rfl (List.cons_ne_nil c cs)).1 hdigits
            · intro hnone
              cases hnone

/-- The path that is found behind a host and a port. -/
theorem target_path_eq (host : List UInt8) (hname : u.schemeName = schemeName isHttps)
    (htail : ∀ c ∈ u.tail.head?, endsAuthority c = true) (hsome : u.portNumber.isSome) :
  (target isHttps hadScheme host (u.portText ++ u.tail)).path
    = if u.tail.head? = some 47 then u.tail else [47]
  := by
  obtain ⟨-, hrest⟩ := takePort_portText hname htail
  have hblank : u.tail.dropWhile (· = 32) = u.tail := by
    cases hcases : u.tail with
    | nil => rfl
    | cons c tail =>
        rw [hcases] at htail
        exact List.dropWhile_cons_of_neg (by simp [(not_isDigit_of_endsAuthority (htail c rfl)).2.1])
  rw [target]
  dsimp only
  rw [hrest hsome, hblank]

/-- The port and the path that are found are those in the URL exactly when they are of the kind that
the function parses. -/
theorem target_denotes_iff (hname : u.schemeName = schemeName isHttps)
    (htail : ∀ c ∈ u.tail.head?, endsAuthority c = true) :
  u.Denotes (target isHttps hadScheme u.host (u.portText ++ u.tail)) ↔ u.PortOk ∧ u.TailOk
  := by
  obtain ⟨hport, -⟩ := takePort_portText hname htail
  have hpath (hsome : u.portNumber.isSome) :
      u.path = (target isHttps hadScheme u.host (u.portText ++ u.tail)).path ↔ u.TailOk := by
    rw [target_path_eq u.host hname htail hsome, Url.path, Url.TailOk]
    split
    case isTrue hslash => simp [hslash]
    case isFalse hnot => simp [hnot]
  constructor
  · intro hdenotes
    have hsome : u.portNumber.isSome := by
      rw [hdenotes.port]
      rfl
    exact ⟨hport.mp hdenotes.port, (hpath hsome).mp hdenotes.path⟩
  · rintro ⟨hportOk, htailOk⟩
    have hnumber := hport.mpr hportOk
    have hsome : u.portNumber.isSome := by
      rw [hnumber]
      rfl
    exact ⟨hname, rfl, hnumber, (hpath hsome).mpr htailOk⟩

end

/-! ### The host -/

section

variable {isHttps hadScheme : Bool} {p host rest : List UInt8} {t : Target}

/-- The host that is found is what the string begins with. -/
theorem parseRest_some (h : parseRest hostSz isHttps hadScheme p = some t) :
  ∃ rest, p = t.host ++ rest ∧ t = target isHttps hadScheme t.host rest ∧ t.host ≠ []
    ∧ t.host.length < hostSz ∧ ∀ c ∈ t.host, isHostByte c = true
  := by
  rw [parseRest] at h
  split at h
  case isTrue => cases h
  case isFalse hne =>
    obtain rfl := Option.some.inj h
    have hprefix : (p.takeWhile isHostByte).take (hostSz - 1) <+: p :=
      (List.take_prefix _ _).trans (List.takeWhile_prefix _)
    use p.drop ((p.takeWhile isHostByte).take (hostSz - 1)).length
    refine ⟨?_, rfl, hne, ?_, ?_⟩
    · exact (List.prefix_iff_eq_append.mp hprefix).symm
    · apply Nat.lt_of_le_of_lt (List.length_take_le _ _)
      decide
    · intro c hc
      exact List.mem_takeWhile_imp (List.mem_of_mem_take hc)

/-- The host goes on to the byte that ends it, or up to the size of the buffer. -/
theorem parseRest_stop (h : parseRest hostSz isHttps hadScheme (host ++ rest) = some t)
    (hhost : t.host = host) :
  host.length = hostSz - 1 ∨ ∀ c ∈ rest.head?, isHostByte c = false
  := by
  obtain ⟨_, -, -, -, hlength, hbytes⟩ := parseRest_some h
  rw [hhost] at hlength hbytes
  by_contra hnot
  rw [not_or] at hnot
  obtain ⟨hshort, hbyte⟩ := hnot
  cases rest with
  | nil => simp at hbyte
  | cons c rest =>
      have hc : isHostByte c = true := by simpa using hbyte
      have hlonger : ((host ++ c :: rest).takeWhile isHostByte).take (hostSz - 1) = host := by
        rw [parseRest] at h
        split at h
        case isTrue => cases h
        case isFalse =>
          have hsame := congrArg Target.host (Option.some.inj h)
          exact hsame.trans hhost
      rw [List.takeWhile_append_of_pos hbytes, List.takeWhile_cons_of_pos hc] at hlonger
      have hlonger := congrArg List.length hlonger
      rw [List.length_take, List.length_append, List.length_cons] at hlonger
      omega

/-- A host is found up to the byte that ends it, or up to the size of the buffer. -/
theorem parseRest_eq (hne : host ≠ []) (hlength : host.length < hostSz)
    (hbytes : ∀ c ∈ host, isHostByte c = true)
    (hrest : host.length = hostSz - 1 ∨ ∀ c ∈ rest.head?, isHostByte c = false) :
  parseRest hostSz isHttps hadScheme (host ++ rest) = some (target isHttps hadScheme host rest)
  := by
  have hhost : ((host ++ rest).takeWhile isHostByte).take (hostSz - 1) = host := by
    rw [List.takeWhile_append_of_pos hbytes]
    rcases hrest with hfull | hend
    · rw [← hfull, List.take_left]
    · have hnil : rest.takeWhile isHostByte = [] := by
        cases rest with
        | nil => rfl
        | cons c rest => exact List.takeWhile_cons_of_neg (by simp [hend c rfl])
      rw [hnil, List.append_nil, List.take_of_length_le]
      exact Nat.le_sub_one_of_lt hlength
  rw [parseRest, hhost, if_neg hne, List.drop_left]

theorem ne_nil_of_parseRest (h : parseRest hostSz isHttps hadScheme (host ++ rest) = some t)
    (hrest : ∀ c ∈ rest.head?, isHostByte c = false) :
  host ≠ []
  := by
  rintro rfl
  obtain ⟨_, hp, -, hne, -, hbytes⟩ := parseRest_some h
  obtain ⟨c, l, hl⟩ := List.exists_cons_of_ne_nil hne
  rw [hl, List.nil_append] at hp
  have hc := hbytes c (by rw [hl]; exact List.mem_cons_self)
  rw [hrest c (by rw [hp]; rfl)] at hc
  cases hc

theorem parseRest_eq_none_iff :
  parseRest hostSz isHttps hadScheme p = none ↔ ∀ c ∈ p.head?, isSeparator c = true
  := by
  rw [parseRest]
  cases p with
  | nil => simp
  | cons c p =>
      have hbyte : isHostByte c = !isSeparator c := by
        rw [isHostByte, isSeparator]
        grind
      cases hcases : isSeparator c with
      | true => simp [hbyte, hcases]
      | false => simp [hbyte, hcases, hostSz]

/-- Behind the right scheme, the URL is found exactly when its parts are of the kind that the function
parses. -/
theorem parseRest_denotes_iff {u : Url} (h : parseRest hostSz isHttps hadScheme p = some t)
    (hreads : u.Reads p) (hname : u.schemeName = schemeName isHttps) :
  u.Denotes t ↔ u.HostOk ∧ u.PortOk ∧ u.TailOk
  := by
  obtain ⟨rest, hp, ht, hne, hlength, hbytes⟩ := parseRest_some h
  constructor
  · intro hdenotes
    have hhost := hdenotes.host
    have hrest : u.portText ++ u.tail = rest := by
      have hsame := hreads.bytes.trans hp
      rw [hhost] at hsame
      exact List.append_cancel_left hsame
    rw [ht, ← hhost, ← hrest, target_denotes_iff hname hreads.tail] at hdenotes
    rw [Url.HostOk, hhost]
    exact ⟨⟨hlength, hbytes⟩, hdenotes⟩
  · rintro ⟨hhostOk, hportOk, htailOk⟩
    have hend : ∀ c ∈ (u.portText ++ u.tail).head?, isHostByte c = false := by
      intro c hc
      rw [Url.portText] at hc
      cases hport : u.port with
      | none =>
          rw [hport, List.nil_append] at hc
          rcases htailOk with hnil | hslash
          · rw [hnil] at hc
            cases hc
          · rw [hslash] at hc
            cases hc
            decide
      | some digits =>
          rw [hport] at hc
          cases hc
          decide
    rw [← hreads.bytes] at h
    have heq : parseRest hostSz isHttps hadScheme (u.host ++ (u.portText ++ u.tail)) = some _ :=
      parseRest_eq (ne_nil_of_parseRest h hend) hhostOk.1 hhostOk.2 (Or.inr hend)
    rw [h] at heq
    rw [Option.some.inj heq, target_denotes_iff hname hreads.tail]
    exact ⟨hportOk, htailOk⟩

end

/-! ### The scheme -/

section

variable {b : Bool} {c : UInt8} {l rest : List UInt8}

theorem schemeName_cases (b : Bool) :
  (b = true ∧ schemeName b = text "https") ∨ (b = false ∧ schemeName b = text "http")
  := by
  cases b
  · exact Or.inr ⟨rfl, rfl⟩
  · exact Or.inl ⟨rfl, rfl⟩

theorem isSchemeByte_schemeName (hc : c ∈ schemeName b) :
  isSchemeByte c = true ∧ isHostByte c = true ∧ c ≠ 35 ∧ endsAuthority c = false
  := by
  have hall : ∀ b, ∀ c ∈ schemeName b, isSchemeByte c = true ∧ isHostByte c = true ∧ c ≠ 35
      ∧ endsAuthority c = false := by
    decide +kernel
  exact hall b c hc

theorem schemeName_head (b : Bool) :
  ∃ rest, schemeName b = 104 :: rest
  := by
  cases b
  · exact ⟨text "ttp", by decide⟩
  · exact ⟨text "ttps", by decide⟩

/-- A byte that can follow a scheme: a blank or `:`. -/
def EndsScheme (c : UInt8) : Prop := c = 32 ∨ c = 58

/-- The cases of `takeScheme`: a scheme with `://`, a scheme without, and none. -/
inductive SchemeCase (l : List UInt8) : Prop where
  | slashes (b : Bool) (rest : List UInt8) (hl : l = schemeName b ++ text "://" ++ rest)
      (htake : takeScheme l = (b, true, rest))
  | separators (b : Bool) (c : UInt8) (rest : List UInt8) (hl : l = schemeName b ++ c :: rest)
      (hc : EndsScheme c) (hnot : (c :: rest).take 3 ≠ text "://")
      (htake : takeScheme l = (b, true, (c :: rest).dropWhile isSeparator))
  | none (hnot : ∀ b c rest, EndsScheme c → l ≠ schemeName b ++ c :: rest)
      (htake : takeScheme l = (true, false, l))

theorem schemeCase_separators (hname : l.take (schemeName b).length = schemeName b)
    (hc : l[(schemeName b).length]? = some 32 ∨ l[(schemeName b).length]? = some 58)
    (hslashes : l.take ((schemeName b).length + 3) ≠ schemeName b ++ text "://")
    (htake : takeScheme l = (b, true, (l.drop (schemeName b).length).dropWhile isSeparator)) :
  SchemeCase l
  := by
  have hsplit := (List.take_append_drop (schemeName b).length l).symm
  rw [hname] at hsplit
  have hends : ∃ c, l[(schemeName b).length]? = some c ∧ EndsScheme c := by
    rcases hc with hc | hc
    · exact ⟨32, hc, Or.inl rfl⟩
    · exact ⟨58, hc, Or.inr rfl⟩
  obtain ⟨c, hget, hends⟩ := hends
  obtain ⟨hlt, hget⟩ := List.getElem?_eq_some_iff.mp hget
  have hdrop := List.drop_eq_getElem_cons hlt
  rw [hget] at hdrop
  rw [hdrop] at hsplit htake
  apply SchemeCase.separators b c _ hsplit hends _ htake
  intro hthree
  apply hslashes
  rw [hsplit, List.take_length_add_append, hthree]

theorem take_schemeName (hc : EndsScheme c) :
  (schemeName b ++ c :: rest).take (schemeName b).length = schemeName b
    ∧ ((schemeName b ++ c :: rest)[(schemeName b).length]? = some 32
      ∨ (schemeName b ++ c :: rest)[(schemeName b).length]? = some 58)
  := by
  constructor
  · exact List.take_left
  · rw [List.getElem?_append_right le_rfl, Nat.sub_self]
    rcases hc with rfl | rfl
    · exact Or.inl rfl
    · exact Or.inr rfl

theorem schemeCase (l : List UInt8) :
  SchemeCase l
  := by
  have hhttps : text "https://" = schemeName true ++ text "://" := by decide
  have hhttp : text "http://" = schemeName false ++ text "://" := by decide
  by_cases h₁ : l.take 8 = text "https://"
  · apply SchemeCase.slashes true (l.drop 8)
    · rw [← hhttps, ← h₁, List.take_append_drop]
    · rw [takeScheme, if_pos h₁]
  by_cases h₂ : l.take 7 = text "http://"
  · apply SchemeCase.slashes false (l.drop 7)
    · rw [← hhttp, ← h₂, List.take_append_drop]
    · rw [takeScheme, if_neg h₁, if_pos h₂]
  by_cases h₃ : l.take 5 = text "https" ∧ (l[5]? = some 32 ∨ l[5]? = some 58)
  · apply schemeCase_separators (b := true) h₃.1 h₃.2 h₁
    rw [takeScheme, if_neg h₁, if_neg h₂, if_pos h₃]
    rfl
  by_cases h₄ : l.take 4 = text "http" ∧ (l[4]? = some 32 ∨ l[4]? = some 58)
  · apply schemeCase_separators (b := false) h₄.1 h₄.2 h₂
    rw [takeScheme, if_neg h₁, if_neg h₂, if_neg h₃, if_pos h₄]
    rfl
  apply SchemeCase.none
  · rintro b c rest hc rfl
    cases b with
    | true => exact h₃ (take_schemeName (b := true) hc)
    | false => exact h₄ (take_schemeName (b := false) hc)
  · rw [takeScheme, if_neg h₁, if_neg h₂, if_neg h₃, if_neg h₄]

/-! ### The parts by the cases of the scheme -/

/-- A scheme is read up to the first byte that is not of a scheme. -/
theorem readScheme_append {w : List UInt8} (hw : ∀ c ∈ w, isSchemeByte c = true) (hne : w ≠ [])
    (hrest : ∀ c ∈ rest.head?, isSchemeByte c = false) :
  readScheme (w ++ rest) = if rest.take 3 = text "://" then readAuthority (some w) (rest.drop 3)
    else readAuthority none (w ++ rest)
  := by
  have htake : (w ++ rest).takeWhile isSchemeByte = w := by
    rw [List.takeWhile_append_of_pos hw]
    cases rest with
    | nil => exact List.append_nil w
    | cons c rest =>
        rw [List.takeWhile_cons_of_neg (by simp [hrest c rfl]), List.append_nil]
  have hdrop : (w ++ rest).dropWhile isSchemeByte = rest := by
    rw [List.dropWhile_append_of_pos hw]
    cases rest with
    | nil => rfl
    | cons c rest => exact List.dropWhile_cons_of_neg (by simp [hrest c rfl])
  rw [readScheme, htake, hdrop]
  simp [hne]

/-- A string is read as one without a scheme, or its scheme is what comes before `://`. -/
theorem readScheme_cases (l : List UInt8) :
  readScheme l = readAuthority none l
    ∨ ∃ w rest, w ≠ [] ∧ (∀ c ∈ w, isSchemeByte c = true) ∧ l = w ++ text "://" ++ rest
      ∧ readScheme l = readAuthority (some w) rest
  := by
  rw [readScheme]
  split
  case isTrue h =>
    right
    refine ⟨_, _, h.1, fun c hc => List.mem_takeWhile_imp hc, ?_, rfl⟩
    rw [← h.2, List.append_assoc, List.take_append_drop, List.takeWhile_append_dropWhile]
  case isFalse => exact Or.inl rfl

theorem readScheme_slashes (b : Bool) (rest : List UInt8) :
  readScheme (schemeName b ++ text "://" ++ rest) = readAuthority (some (schemeName b)) rest
  := by
  have hcolon : text "://" = [58, 47, 47] := by decide
  have hne : schemeName b ≠ [] := by
    obtain ⟨w, hw⟩ := schemeName_head b
    simp [hw]
  rw [List.append_assoc, readScheme_append (fun c hc => (isSchemeByte_schemeName hc).1) hne, hcolon]
  · simp
  · rw [hcolon]
    rintro c ⟨⟩
    decide

theorem readScheme_separators (hc : EndsScheme c) (hnot : (c :: rest).take 3 ≠ text "://") :
  readScheme (schemeName b ++ c :: rest) = readAuthority none (schemeName b ++ c :: rest)
  := by
  have hne : schemeName b ≠ [] := by
    obtain ⟨w, hw⟩ := schemeName_head b
    simp [hw]
  rw [readScheme_append (fun c hc => (isSchemeByte_schemeName hc).1) hne, if_neg hnot]
  rintro d ⟨⟩
  rcases hc with rfl | rfl <;> decide

end

/-! ### Whether the URL is found -/

section

variable {b hadScheme : Bool} {c : UInt8} {l p rest : List UInt8} {t : Target}

/-- What is behind the host when the path is looked for: no byte of a fragment has been skipped. -/
theorem target_path (b hadScheme : Bool) (host rest : List UInt8) :
  (target b hadScheme host rest).path = [47]
    ∨ ∃ skipped, (∀ c ∈ skipped, c ≠ 35) ∧ rest = skipped ++ (target b hadScheme host rest).path
  := by
  rw [target]
  dsimp only
  have hport : ∃ skipped, (∀ c ∈ skipped, c ≠ 35) ∧ rest = skipped ++ (takePort (defaultPort b) rest).2 := by
    cases rest with
    | nil => exact ⟨[], by simp, rfl⟩
    | cons c cs =>
        rw [takePort]
        split
        case isTrue hcolon =>
          refine ⟨c :: cs.takeWhile isDigit, ?_, ?_⟩
          · intro d hd
            rcases List.mem_cons.mp hd with rfl | hd
            · rw [hcolon]
              decide
            · rintro rfl
              exact absurd (List.mem_takeWhile_imp hd) (by decide)
          · rw [List.cons_append, List.takeWhile_append_dropWhile]
        case isFalse => exact ⟨[], by simp, rfl⟩
  obtain ⟨skipped, hskipped, hrest⟩ := hport
  split
  case isTrue =>
    right
    use skipped ++ (takePort (defaultPort b) rest).2.takeWhile (· = 32)
    constructor
    · intro d hd
      rcases List.mem_append.mp hd with hd | hd
      · exact hskipped d hd
      · rintro rfl
        exact absurd (List.mem_takeWhile_imp hd) (by decide)
    · rw [List.append_assoc, List.takeWhile_append_dropWhile]
      exact hrest
  case isFalse => exact Or.inl rfl

/-- Behind `https` and `http` without slashes, a host can only be that name, with a port behind. -/
theorem separators_name {u : Url} (hc : EndsScheme c) (hreads : u.Reads (schemeName b ++ c :: rest))
    (hhost : ∀ c ∈ u.host, isHostByte c = true) :
  u.host = schemeName b ∧ ∃ digits, u.port = some digits ∧ c = 58 ∧ rest = digits ++ u.tail
  := by
  have hstart : ∀ d ∈ (u.portText ++ u.tail).head?, d = 58 ∨ endsAuthority d = true := by
    intro d hd
    rw [Url.portText] at hd
    cases hport : u.port with
    | none =>
        rw [hport] at hd
        exact Or.inr (hreads.tail d hd)
    | some digits =>
        rw [hport] at hd
        cases hd
        exact Or.inl rfl
  have hname : u.host = schemeName b ∧ u.portText ++ u.tail = c :: rest := by
    rcases List.append_eq_append_iff.mp hreads.bytes with ⟨w, hw, hrest⟩ | ⟨w, hw, hrest⟩
    · cases w with
      | nil =>
          rw [List.append_nil] at hw
          exact ⟨hw.symm, hrest⟩
      | cons d w =>
          have hd : d ∈ schemeName b := by
            rw [hw]
            simp
          obtain ⟨-, hhostByte, -, hnot⟩ := isSchemeByte_schemeName hd
          rcases hstart d (by rw [hrest]; rfl) with rfl | hends
          · cases hhostByte
          · rw [hnot] at hends
            cases hends
    · cases w with
      | nil =>
          rw [List.append_nil] at hw
          exact ⟨hw, hrest.symm⟩
      | cons d w =>
          obtain ⟨rfl, -⟩ := List.cons.inj hrest
          have hd := hhost c (by rw [hw]; simp)
          rcases hc with rfl | rfl <;> cases hd
  obtain ⟨hname, hrest⟩ := hname
  use hname
  cases hport : u.port with
  | none =>
      rw [Url.portText, hport, List.nil_append] at hrest
      have hends := hreads.tail c (by rw [hrest]; rfl)
      rcases hc with rfl | rfl <;> cases hends
  | some digits =>
      rw [Url.portText, hport, List.cons_append, List.cons.injEq] at hrest
      exact ⟨digits, rfl, hrest.1.symm, hrest.2.symm⟩

/-- When that name is found as the host, it is another one, which the separators in front of it make a
part of the path. -/
theorem separators_host {u : Url} (hc : EndsScheme c) (hreads : u.Reads (schemeName b ++ c :: rest))
    (hparse : parseRest hostSz b hadScheme ((c :: rest).dropWhile isSeparator) = some t)
    (hhost : u.host = t.host) (hport : u.portNumber.isSome) :
  ∃ skipped behind, skipped ≠ [] ∧ (∀ c ∈ skipped, isSeparator c = true)
    ∧ u.tail = skipped ++ (schemeName b ++ behind)
    ∧ t = target b hadScheme (schemeName b) behind
  := by
  obtain ⟨behind, hp, ht, hne, hlength, hbytes⟩ := parseRest_some hparse
  rw [← hhost] at hp ht hbytes
  obtain ⟨hname, digits, hdigits, rfl, rfl⟩ := separators_name hc hreads hbytes
  obtain ⟨w, hw⟩ := schemeName_head b
  rw [hname, List.dropWhile_cons_of_pos (by decide)] at hp
  rw [hname] at ht
  rw [Url.portNumber, hdigits] at hport
  cases digits with
  | cons d digits =>
      have hall : ∀ e ∈ d :: digits, isDigit e = true := by
        by_contra hnot
        dsimp only at hport
        rw [if_neg hnot] at hport
        cases hport
      have hd := hall d List.mem_cons_self
      have hnot : ¬ isSeparator d = true := by
        rw [isDigit] at hd
        rw [isSeparator]
        grind
      rw [List.cons_append, List.dropWhile_cons_of_neg hnot, hw, List.cons_append] at hp
      obtain ⟨rfl, -⟩ := List.cons.inj hp
      cases hd
  | nil =>
      rw [List.nil_append] at hp
      have hsplit := List.takeWhile_append_dropWhile (p := isSeparator) (l := u.tail)
      rw [hp] at hsplit
      refine ⟨u.tail.takeWhile isSeparator, behind, ?_, ?_, hsplit.symm, ht⟩
      · intro hnil
        rw [hnil, hw, List.nil_append, List.cons_append] at hsplit
        have hends := hreads.tail 104 (by rw [← hsplit]; rfl)
        cases hends
      · intro d hd
        exact List.mem_takeWhile_imp hd

theorem isHostByte_of_isSchemeByte (h : isSchemeByte c = true) :
  isHostByte c = true
  := by
  have hall : ∀ n < 256, isSchemeByte (UInt8.ofNat n) = true → isHostByte (UInt8.ofNat n) = true := by
    decide +kernel
  have hc := hall c.toNat c.toNat_lt
  rw [UInt8.ofNat_toNat] at hc
  exact hc h

/-- Another scheme is taken for the host, and all that is behind it for the path. -/
theorem otherScheme_path {w : List UInt8} (hw : ∀ c ∈ w, isSchemeByte c = true) (hne : w ≠ [])
    (hlength : w.length < hostSz)
    (hparse : parseRest hostSz true false (w ++ text "://" ++ rest) = some t) :
  t.path = 47 :: 47 :: rest
  := by
  have hcolon : text "://" ++ rest = 58 :: 47 :: 47 :: rest := rfl
  have heq : parseRest hostSz true false (w ++ (text "://" ++ rest)) = some _ :=
    parseRest_eq hne hlength (fun c hc => isHostByte_of_isSchemeByte (hw c hc))
      (Or.inr (by rw [hcolon]; rintro c ⟨⟩; decide))
  rw [List.append_assoc, heq] at hparse
  rw [← Option.some.inj hparse, hcolon]
  rfl

theorem Url.length_path (u : Url) :
  u.tail.length ≤ u.path.length ∧ u.path.length ≤ u.tail.length + 1
  := by
  rw [path]
  split
  · exact ⟨le_rfl, Nat.le_succ _⟩
  · exact ⟨Nat.le_succ _, le_rfl⟩

theorem schemeName_readAuthority (b : Bool) (l : List UInt8) :
  (readAuthority (some (schemeName b)) l).schemeName = schemeName b
  := by
  rw [Url.schemeName, readAuthority_scheme]
  cases b <;> decide

theorem not_schemeOk_separators {u : Url} (hscheme : u.scheme = none) (hc : EndsScheme c)
    (hreads : u.Reads (schemeName b ++ c :: rest)) (hhost : u.HostOk) :
  ¬ u.SchemeOk
  := by
  obtain ⟨hname, digits, hport, -, -⟩ := separators_name hc hreads hhost.2
  rw [Url.SchemeOk, hscheme]
  rintro (hnone | hother)
  · rw [hport] at hnone
    cases hnone
  · exact hother b hname

/-- A string without a scheme in front is read with a host that is right. -/
theorem schemeOk_none (hnot : ∀ b c rest, EndsScheme c → l ≠ schemeName b ++ c :: rest) :
  (readAuthority none l).SchemeOk
  := by
  have hbytes := (readAuthority_reads none l).bytes
  rw [Url.SchemeOk, readAuthority_scheme]
  cases hport : (readAuthority none l).port with
  | none => exact Or.inl rfl
  | some digits =>
      right
      intro b hhost
      rw [hhost, Url.portText, hport] at hbytes
      exact hnot b 58 _ (Or.inr rfl) hbytes.symm

/-- How the result comes from the parts of a URL. -/
inductive Found (u : Url) (t : Target) : Prop where
  /-- the scheme is right, and the parts are looked for behind it -/
  | rest (b hadScheme : Bool) (p : List UInt8) (hscheme : u.SchemeOk)
      (hname : u.schemeName = schemeName b) (hreads : u.Reads p)
      (hparse : parseRest hostSz b hadScheme p = some t)
  /-- the host is taken for the scheme -/
  | separators (b : Bool) (hnot : u.HostOk → ¬ u.SchemeOk)
      (hhost : u.host = t.host → u.portNumber.isSome → ∃ skipped behind, skipped ≠ []
        ∧ (∀ c ∈ skipped, isSeparator c = true) ∧ u.tail = skipped ++ (schemeName b ++ behind)
        ∧ t = target b true (schemeName b) behind)
  /-- the scheme is taken for the host -/
  | scheme (hnot : ¬ u.SchemeOk)
      (hpath : ∀ b, u.schemeName = schemeName b → ∃ rest, u.tail <:+ rest ∧ t.path = 47 :: 47 :: rest)

theorem found {url : List UInt8} (hparse : parseUrl hostSz url = some t) :
  Found (readUrl url) t
  := by
  rw [parseUrl, if_neg (by decide)] at hparse
  dsimp only at hparse
  split at hparse
  case isTrue => cases hparse
  rw [readUrl]
  generalize url.dropWhile isSpace = l at *
  cases schemeCase l with
  | slashes b rest hl htake =>
      rw [htake] at hparse
      rw [hl, readScheme_slashes]
      apply Found.rest b true rest _ (schemeName_readAuthority b rest) (readAuthority_reads _ rest) hparse
      rw [Url.SchemeOk, readAuthority_scheme]
      exact ⟨b, rfl⟩
  | separators b c rest hl hc hnot htake =>
      have hreads := readAuthority_reads none (schemeName b ++ c :: rest)
      rw [htake] at hparse
      rw [hl, readScheme_separators hc hnot]
      apply Found.separators b
      · apply not_schemeOk_separators (readAuthority_scheme none _) hc hreads
      · apply separators_host hc hreads hparse
  | none hnot htake =>
      rw [htake] at hparse
      rcases readScheme_cases l with hread | ⟨w, rest, hne, hw, hl, hread⟩
      · rw [hread]
        apply Found.rest true false l (schemeOk_none hnot) _ (readAuthority_reads none l) hparse
        rw [Url.schemeName, readAuthority_scheme]
        rfl
      · rw [hread]
        apply Found.scheme
        · rw [Url.SchemeOk, readAuthority_scheme]
          rintro ⟨b, rfl⟩
          have hcolon : text "://" ++ rest = 58 :: 47 :: 47 :: rest := rfl
          rw [List.append_assoc, hcolon] at hl
          exact hnot b 58 _ (Or.inr rfl) hl
        · intro b hname
          rw [Url.schemeName, readAuthority_scheme] at hname
          have hlength : w.length < hostSz := by
            have hsame := congrArg List.length hname
            rw [List.length_map] at hsame
            rw [hsame]
            cases b <;> decide
          rw [hl] at hparse
          refine ⟨rest, ?_, otherScheme_path hw hne hlength hparse⟩
          use (readAuthority (some w) rest).host ++ (readAuthority (some w) rest).portText
          rw [List.append_assoc]
          exact (readAuthority_reads (some w) rest).bytes

/-- When the function succeeds, it finds the URL exactly when the URL is of its kind. -/
theorem denotes_iff {u : Url} (h : Found u t) :
  u.Denotes t ↔ u.Plain
  := by
  cases h with
  | rest b hadScheme p hscheme hname hreads hparse =>
      rw [parseRest_denotes_iff hparse hreads hname]
      constructor
      · rintro ⟨hhost, hport, htail⟩
        exact ⟨hscheme, hhost, hport, htail⟩
      · intro hplain
        exact ⟨hplain.host, hplain.port, hplain.tail⟩
  | separators b hnot hhost =>
      constructor
      · intro hdenotes
        obtain ⟨skipped, behind, hne, -, htail, ht⟩ := hhost hdenotes.host (by rw [hdenotes.port]; rfl)
        obtain ⟨hle, -⟩ := u.length_path
        have hpos := List.length_pos_iff.mpr hne
        have hname : 4 ≤ (schemeName b).length := by
          cases b <;> decide
        rw [hdenotes.path, htail, ht, List.length_append, List.length_append] at hle
        rcases target_path b true (schemeName b) behind with hroot | ⟨dropped, -, hbehind⟩
        · rw [hroot, List.length_singleton] at hle
          omega
        · have hlength := congrArg List.length hbehind
          rw [List.length_append] at hlength
          omega
      · intro hplain
        exact absurd hplain.scheme (hnot hplain.host)
  | scheme hnot hpath =>
      constructor
      · intro hdenotes
        obtain ⟨rest, hsuffix, hrest⟩ := hpath _ hdenotes.scheme
        have hle := hsuffix.length_le
        obtain ⟨-, hshort⟩ := u.length_path
        rw [hdenotes.path, hrest, List.length_cons, List.length_cons] at hshort
        omega
      · intro hplain
        exact absurd hplain.scheme hnot

/-- The host that is found is not empty, fits into the buffer, and has no byte that ends it. -/
theorem parseUrl_host {url : List UInt8} (hparse : parseUrl hostSz url = some t) :
  t.host ≠ [] ∧ t.host.length < hostSz ∧ ∀ c ∈ t.host, isHostByte c = true
  := by
  rw [parseUrl, if_neg (by decide)] at hparse
  dsimp only at hparse
  split at hparse
  case isTrue => cases hparse
  case isFalse =>
    obtain ⟨rest, -, -, hhost⟩ := parseRest_some hparse
    exact hhost

theorem schemeName_append {b b' : Bool} {c c' : UInt8} {rest rest' : List UInt8} (hc : EndsScheme c)
    (hc' : EndsScheme c') (h : schemeName b ++ c :: rest = schemeName b' ++ c' :: rest') :
  b = b' ∧ c :: rest = c' :: rest'
  := by
  have hhttps : schemeName true = schemeName false ++ [115] := by decide
  have hother (d : UInt8) (hd : EndsScheme d) : d ≠ 115 := by
    rcases hd with rfl | rfl <;> decide
  cases b <;> cases b'
  · exact ⟨rfl, List.append_cancel_left h⟩
  · rw [hhttps, List.append_assoc] at h
    obtain ⟨hd, -⟩ := List.cons.inj (List.append_cancel_left h)
    exact absurd hd (hother c hc)
  · rw [hhttps, List.append_assoc] at h
    obtain ⟨hd, -⟩ := List.cons.inj (List.append_cancel_left h)
    exact absurd hd.symm (hother c' hc')
  · exact ⟨rfl, List.append_cancel_left h⟩

/-- A string that is refused and begins with a scheme has nothing but separators behind it, or a
separator behind `://`. -/
theorem refused_scheme (hc : EndsScheme c) (h : Refused (schemeName b ++ c :: rest)) :
  (∃ l, c :: rest = text "://" ++ l ∧ ∀ d ∈ l.head?, isSeparator d = true)
    ∨ ∀ d ∈ c :: rest, isSeparator d = true
  := by
  generalize hl : schemeName b ++ c :: rest = l at h
  cases h with
  | start l hstart =>
      obtain ⟨w, hw⟩ := schemeName_head b
      rw [hw] at hl
      rcases hstart 104 (by rw [← hl]; rfl) with h | h <;> cases h
  | scheme b' l hseparator =>
      have hcolon : text "://" ++ l = 58 :: 47 :: 47 :: l := rfl
      rw [List.append_assoc, hcolon] at hl
      obtain ⟨-, hrest⟩ := schemeName_append hc (Or.inr rfl) hl
      exact Or.inl ⟨l, hrest, hseparator⟩
  | separators b' l hne hseparators hfirst =>
      obtain ⟨d, l, rfl⟩ := List.exists_cons_of_ne_nil hne
      have hd : EndsScheme d := by
        rcases of_decide_eq_true (hseparators d List.mem_cons_self) with h | h | h
        · exact Or.inl h
        · exact absurd (congrArg some h) hfirst
        · exact Or.inr h
      obtain ⟨-, hrest⟩ := schemeName_append hc hd hl
      rw [hrest]
      exact Or.inr hseparators

/-- The strings for which the function fails. -/
theorem parseUrl_eq_none_iff (url : List UInt8) :
  parseUrl hostSz url = none ↔ Refused (url.dropWhile isSpace)
  := by
  have hblank := List.head?_dropWhile_not isSpace url
  rw [parseUrl, if_neg (by decide)]
  dsimp only
  generalize url.dropWhile isSpace = l at *
  split
  case isTrue hnil =>
    rw [hnil]
    exact iff_of_true rfl (Refused.start [] (by simp))
  case isFalse hne =>
    cases schemeCase l with
    | slashes b rest hl htake =>
        rw [htake, parseRest_eq_none_iff]
        dsimp only
        have hcolon : text "://" ++ rest = 58 :: 47 :: 47 :: rest := rfl
        constructor
        · intro hseparator
          rw [hl]
          exact Refused.scheme b rest hseparator
        · intro hrefused
          rw [hl, List.append_assoc, hcolon] at hrefused
          rcases refused_scheme (Or.inr rfl) hrefused with ⟨l', hsame, hseparator⟩ | hall
          · rw [← hcolon] at hsame
            rw [List.append_cancel_left hsame]
            exact hseparator
          · intro d hd
            apply hall
            have hmem := List.mem_of_mem_head? hd
            simp [hmem]
    | separators b c rest hl hc hnot htake =>
        rw [htake, parseRest_eq_none_iff]
        dsimp only
        have hall : (∀ d ∈ ((c :: rest).dropWhile isSeparator).head?, isSeparator d = true)
            ↔ ∀ d ∈ c :: rest, isSeparator d = true := by
          have hstop := List.head?_dropWhile_not isSeparator (c :: rest)
          rw [← List.dropWhile_eq_nil_iff]
          cases hcases : (c :: rest).dropWhile isSeparator with
          | nil => simp
          | cons d l' =>
              rw [hcases] at hstop
              have hd : isSeparator d = false := by simpa using hstop
              simp [hd]
        rw [hall]
        constructor
        · intro hseparators
          rw [hl]
          apply Refused.separators b _ (List.cons_ne_nil c rest) hseparators
          rintro ⟨⟩
          rcases hc with hc | hc <;> cases hc
        · intro hrefused
          rw [hl] at hrefused
          rcases refused_scheme hc hrefused with ⟨l', hsame, -⟩ | hseparators
          · rw [hsame] at hnot
            exact absurd rfl hnot
          · exact hseparators
    | none hnot htake =>
        rw [htake, parseRest_eq_none_iff]
        dsimp only
        constructor
        · intro hseparator
          apply Refused.start
          intro c hc
          rcases of_decide_eq_true (hseparator c hc) with rfl | h | h
          · rw [Option.mem_def.mp hc] at hblank
            cases hblank
          · exact Or.inr h
          · exact Or.inl h
        · intro hrefused c hc
          cases hrefused with
          | start l hstart => rcases hstart c hc with rfl | rfl <;> decide
          | scheme b' l hseparator =>
              have hcolon : text "://" ++ l = 58 :: 47 :: 47 :: l := rfl
              exact absurd (by rw [List.append_assoc, hcolon]) (hnot b' 58 _ (Or.inr rfl))
          | separators b' l hne' hseparators hfirst =>
              obtain ⟨d, l, rfl⟩ := List.exists_cons_of_ne_nil hne'
              rcases of_decide_eq_true (hseparators d List.mem_cons_self) with h | h | h
              · exact absurd rfl (hnot b' d l (Or.inl h))
              · exact absurd (congrArg some h) hfirst
              · exact absurd rfl (hnot b' d l (Or.inr h))

/-- The function finds the URL, or fails, exactly when the string is refused or the URL is of the kind
that the function parses. -/
theorem faithful_iff (url : List UInt8) :
  FaithfulLaw url ↔ Refused (url.dropWhile isSpace) ∨ (readUrl url).Plain
  := by
  rw [← parseUrl_eq_none_iff, FaithfulLaw]
  cases hparse : parseUrl hostSz url with
  | none => simp
  | some t =>
      constructor
      · intro hlaw
        right
        rw [← denotes_iff (found hparse)]
        exact hlaw t rfl
      · rintro (hnone | hplain) t' ht'
        · cases hnone
        · rw [← Option.some.inj ht']
          exact (denotes_iff (found hparse)).mpr hplain

/-- The query of a URL is taken for a part of its host. -/
theorem not_faithful :
  ¬ FaithfulLaw (text "http://a?q")
  := by
  intro hlaw
  have hhost := (hlaw _ rfl).host
  revert hhost
  decide

end

end Http
