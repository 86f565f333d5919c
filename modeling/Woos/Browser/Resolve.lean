import Mathlib.Algebra.Group.Int.Defs
import Mathlib.Algebra.Group.Nat.Defs
import Woos.Browser.Bytes
import Woos.Lib.StringBuffer

/-!
# Resolving addresses

`resolve_url` with its buffer: it has no result when it leaves the buffer without a terminating
zero.  `resolved` says which address an `href` is in the page at a base address, from the parts of
the base: the scheme with the authority, the path, and the query with the fragment.  `resolves_iff`
says when the function finds this address.
-/

namespace Browser.Address

/-! ### The function -/

/-- The three comparisons with a scheme. -/
def isAbsolute (href : List UInt8) : Bool :=
  (ascii "http://").isPrefixOf href || (ascii "https://").isPrefixOf href
    || (ascii "file://").isPrefixOf href

/-- The length up to the first slash behind the scheme, or to the end. -/
def hostEnd (base : List UInt8) : Nat :=
  protoLen base + ((base.drop (protoLen base)).takeWhile (· != 47)).length

/-- The length up to the last slash, with it. -/
def dirLen (base : List UInt8) : Nat := base.length - (base.reverse.takeWhile (· != 47)).length

/-- `resolve_url` -/
def resolveUrl (base href : CString) (maxLen : Nat) : Option (StringBuffer maxLen) :=
  if href.bytes = [] then StringBuffer.strncpy base maxLen
  else if isAbsolute href.bytes then StringBuffer.strncpy href maxLen
  else if (ascii "//").isPrefixOf href.bytes then do
    let scheme := ascii (if (ascii "http://").isPrefixOf base.bytes then "http:" else "https:")
    let out ← StringBuffer.strncpy (.ofBytes scheme) (maxLen - 1)
    out.strncat href (maxLen - out.string.length - 1)
  else if (ascii "/").isPrefixOf href.bytes then
    if 0 < protoLen base.bytes then do
      let out ← StringBuffer.strncpyZero base (min (hostEnd base.bytes) (maxLen - 1))
      out.strncat href (maxLen - out.string.length - 1)
    else StringBuffer.strncpy href maxLen
  else if 47 ∉ base.bytes.drop (protoLen base.bytes) then do
    let out ← StringBuffer.strncpy base (maxLen - 1)
    let out ← out.strncat (.ofBytes [47]) (maxLen - out.string.length - 1)
    out.strncat href (maxLen - out.string.length - 1)
  else do
    let out ← StringBuffer.strncpyZero base (min (dirLen base.bytes) (maxLen - 1))
    out.strncat href (maxLen - out.string.length - 1)

/-! ### The parts of an address -/

/-- A byte that ends the authority. -/
def endsAuthority (c : UInt8) : Bool := c = 47 ∨ c = 63 ∨ c = 35

/-- A byte that ends the path. -/
def endsPath (c : UInt8) : Bool := c = 63 ∨ c = 35

/-- What follows the scheme. -/
def hierarchy (base : List UInt8) : List UInt8 := base.drop (protoLen base)

/-- The scheme and the authority. -/
def origin (base : List UInt8) : List UInt8 :=
  base.take (protoLen base) ++ (hierarchy base).takeWhile (!endsAuthority ·)

/-- What follows the authority. -/
def reference (base : List UInt8) : List UInt8 := (hierarchy base).dropWhile (!endsAuthority ·)

def path (base : List UInt8) : List UInt8 := (reference base).takeWhile (!endsPath ·)

/-- The query and the fragment. -/
def query (base : List UInt8) : List UInt8 := (reference base).dropWhile (!endsPath ·)

/-- What stands before the last slash, with it. -/
def directory (l : List UInt8) : List UInt8 := (l.reverse.dropWhile (· != 47)).reverse

/-- What stands behind the last slash. -/
def fileName (l : List UInt8) : List UInt8 := (l.reverse.takeWhile (· != 47)).reverse

/-- The directory of the path of an address; that of an empty path is the root. -/
def baseDir (base : List UInt8) : List UInt8 :=
  if path base = [] then [47] else directory (path base)

/-- The address of an `href` in the page at an address. -/
def resolved (base href : List UInt8) : List UInt8 :=
  if isAbsolute href then href
  else if (ascii "//").isPrefixOf href then base.take (protoLen base - 2) ++ href
  else if (ascii "/").isPrefixOf href then origin base ++ href
  else origin base ++ (baseDir base ++ href)

/-- The address is found, as far as the buffer can hold it. -/
def Resolves (base href : CString) (maxLen : Nat) : Prop :=
  ∃ out, resolveUrl base href maxLen = some out
    ∧ out.string.bytes = (resolved base.bytes href.bytes).take (maxLen - 1)

/-- Up to the length `k`, an `href` looks like itself with these bytes in front. -/
def Repeats (k : Nat) (front href : List UInt8) : Prop := (front ++ href).take k = href.take k

instance (k : Nat) (front href : List UInt8) : Decidable (Repeats k front href) :=
  inferInstanceAs (Decidable (_ = _))

/-- When the address is found. -/
def ResolvesWhen (base href : List UInt8) (maxLen : Nat) : Prop :=
  if href = [] then
    base.length < maxLen ∧ query base = []
      ∧ if path base = [] then base.length + 1 = maxLen else fileName (path base) = []
  else if isAbsolute href then href.length < maxLen
  else if (ascii "//").isPrefixOf href then protoLen base ≤ maxLen
  else if (ascii "/").isPrefixOf href then
    0 < maxLen ∧ (path base ≠ [] ∨ query base = [] ∨ maxLen ≤ (origin base).length + 1)
  else if 47 ∉ reference base then base.length + 1 < maxLen ∧ query base = []
  else if path base = [] then 0 < maxLen ∧ maxLen ≤ (origin base).length + 1
  else
    0 < maxLen ∧ (47 ∉ query base
      ∨ Repeats (maxLen - 1 - (origin base ++ directory (path base)).length)
        (fileName (path base) ++ directory (query base)) href)

/-! ### Slashes -/

theorem directory_append_fileName (l : List UInt8) :
  directory l ++ fileName l = l
  := by
  rw [directory, fileName, ← List.reverse_append, List.takeWhile_append_dropWhile, List.reverse_reverse]

theorem not_mem_fileName (l : List UInt8) :
  47 ∉ fileName l
  := by
  intro h
  rw [fileName, List.mem_reverse] at h
  simpa using List.mem_takeWhile_imp h

theorem length_directory (l : List UInt8) :
  (directory l).length = dirLen l
  := by
  have hlength := congrArg List.length (directory_append_fileName l)
  rw [List.length_append, fileName, List.length_reverse] at hlength
  rw [dirLen]
  omega

theorem take_dirLen (l : List UInt8) :
  l.take (dirLen l) = directory l
  := by
  have h : (directory l ++ fileName l).take (directory l).length = directory l := List.take_left
  rwa [directory_append_fileName, length_directory] at h

theorem fileName_of_not_mem {l : List UInt8} (h : 47 ∉ l) :
  fileName l = l
  := by
  rw [fileName, List.takeWhile_eq_self_iff.mpr, List.reverse_reverse]
  intro c hc
  rw [List.mem_reverse] at hc
  simpa using fun heq : c = 47 => h (heq ▸ hc)

theorem directory_of_not_mem {l : List UInt8} (h : 47 ∉ l) :
  directory l = []
  := by
  have happend := directory_append_fileName l
  rw [fileName_of_not_mem h] at happend
  exact List.append_left_eq_self.mp happend

theorem directory_append_of_not_mem (l : List UInt8) {r : List UInt8} (h : 47 ∉ r) :
  directory (l ++ r) = directory l
  := by
  have hall : ∀ c ∈ r.reverse, (c != 47) = true := by
    intro c hc
    rw [List.mem_reverse] at hc
    simpa using fun heq : c = 47 => h (heq ▸ hc)
  rw [directory, List.reverse_append, List.dropWhile_append_of_pos hall, directory]

theorem directory_append_of_mem (l : List UInt8) {r : List UInt8} (h : 47 ∈ r) :
  directory (l ++ r) = l ++ directory r
  := by
  rw [directory, List.reverse_append, List.dropWhile_append, if_neg, List.reverse_append,
    List.reverse_reverse, directory]
  rw [List.isEmpty_iff, List.dropWhile_eq_nil_iff]
  intro hall
  simpa using hall 47 (List.mem_reverse.mpr h)

/-! ### The parts -/

theorem protoLen_le (base : List UInt8) :
  protoLen base ≤ base.length
  := by
  rw [protoLen]
  split_ifs with h h'
  · exact (List.isPrefixOf_iff_prefix.mp h).length_le
  · exact (List.isPrefixOf_iff_prefix.mp h').length_le
  · exact Nat.zero_le _

theorem origin_append_reference (base : List UInt8) :
  origin base ++ reference base = base
  := by
  rw [origin, reference, List.append_assoc, List.takeWhile_append_dropWhile, hierarchy,
    List.take_append_drop]

theorem path_append_query (base : List UInt8) :
  path base ++ query base = reference base
  := List.takeWhile_append_dropWhile

theorem endsAuthority_head {base : List UInt8} {c : UInt8} {l : List UInt8}
    (h : reference base = c :: l) :
  c = 47 ∨ c = 63 ∨ c = 35
  := by
  have hhead := List.head?_dropWhile_not (!endsAuthority ·) (hierarchy base)
  rw [reference] at h
  rw [h] at hhead
  have hends : endsAuthority c = true := by simpa using hhead
  exact of_decide_eq_true hends

theorem endsPath_head {base : List UInt8} {c : UInt8} {l : List UInt8} (h : query base = c :: l) :
  c = 63 ∨ c = 35
  := by
  have hhead := List.head?_dropWhile_not (!endsPath ·) (reference base)
  rw [query] at h
  rw [h] at hhead
  have hends : endsPath c = true := by simpa using hhead
  exact of_decide_eq_true hends

theorem query_head? (base : List UInt8) :
  (query base).head? ≠ some 47
  := by
  cases h : query base with
  | nil => exact (Option.some_ne_none 47).symm
  | cons c l =>
      intro heq
      rw [List.head?_cons, Option.some.injEq] at heq
      rw [heq] at h
      exact absurd (endsPath_head h) (by decide)

/-- A path begins with a slash. -/
theorem path_head {base : List UInt8} {c : UInt8} {l : List UInt8} (h : path base = c :: l) :
  c = 47
  := by
  have hpath : endsPath c = false := by
    have hmem : c ∈ path base := by simp [h]
    simpa using List.mem_takeWhile_imp hmem
  have href : reference base = c :: (l ++ query base) := by
    rw [← path_append_query, h, List.cons_append]
  apply (endsAuthority_head href).resolve_right
  simpa [endsPath] using hpath

theorem not_mem_authority (base : List UInt8) :
  47 ∉ (hierarchy base).takeWhile (!endsAuthority ·)
  := by
  intro h
  have hnot := List.mem_takeWhile_imp h
  exact absurd hnot (by decide)

theorem mem_hierarchy_iff (base : List UInt8) :
  47 ∈ hierarchy base ↔ 47 ∈ reference base
  := by
  have hsplit : (hierarchy base).takeWhile (!endsAuthority ·) ++ reference base = hierarchy base :=
    List.takeWhile_append_dropWhile
  rw [← hsplit, List.mem_append, or_iff_right (not_mem_authority base)]

/-- The host ends where the first slash is. -/
theorem take_hostEnd (base : List UInt8) :
  base.take (hostEnd base) = origin base ++ (reference base).takeWhile (· != 47)
  := by
  have hsplit : (hierarchy base).takeWhile (!endsAuthority ·) ++ reference base = hierarchy base :=
    List.takeWhile_append_dropWhile
  have hall : ∀ c ∈ (hierarchy base).takeWhile (!endsAuthority ·), (c != 47) = true := by
    intro c hc
    simpa using fun heq : c = 47 => not_mem_authority base (heq ▸ hc)
  have hhost : (hierarchy base).takeWhile (· != 47)
      = (hierarchy base).takeWhile (!endsAuthority ·)
        ++ (reference base).takeWhile (· != 47) := by
    conv_lhs => rw [← hsplit, List.takeWhile_append_of_pos hall]
  have htake : (hierarchy base).take ((hierarchy base).takeWhile (· != 47)).length
      = (hierarchy base).takeWhile (· != 47) :=
    (List.prefix_iff_eq_take.mp (List.takeWhile_prefix _)).symm
  rw [hostEnd, List.take_add]
  show base.take (protoLen base)
    ++ (hierarchy base).take ((hierarchy base).takeWhile (· != 47)).length = _
  rw [htake, hhost, origin, List.append_assoc]

/-! ### What is cut off -/

theorem take_append_inj {α : Type} {l r r' : List α} {m : Nat} :
  (l ++ r).take m = (l ++ r').take m ↔ r.take (m - l.length) = r'.take (m - l.length)
  := by
  rw [List.take_append, List.take_append, List.append_cancel_left_eq]

/-- What differs from a place on is the same only when it is cut off there. -/
theorem take_append_cons_inj {α : Type} {l r r' : List α} {a b : α} {m : Nat} (h : a ≠ b) :
  (l ++ a :: r).take m = (l ++ b :: r').take m ↔ m ≤ l.length
  := by
  rw [take_append_inj]
  cases hk : m - l.length with
  | zero => simpa using Nat.le_of_sub_eq_zero hk
  | succ k =>
      rw [List.take_succ_cons, List.take_succ_cons]
      constructor
      · intro heq
        exact absurd (List.cons.inj heq).1 h
      · intro hle
        omega

section

variable {base href : CString} {maxLen : Nat}

theorem resolves_iff_of_cut {s : CString} (h : 0 < maxLen)
    (hs : resolveUrl base href maxLen = some (.cut s h)) :
  Resolves base href maxLen
    ↔ s.bytes.take (maxLen - 1) = (resolved base.bytes href.bytes).take (maxLen - 1)
  := by
  rw [Resolves, hs]
  simp

theorem resolves_iff_of_strncpy {s : CString}
    (hs : resolveUrl base href maxLen = StringBuffer.strncpy s maxLen) :
  Resolves base href maxLen
    ↔ s.length < maxLen ∧ s.bytes = (resolved base.bytes href.bytes).take (maxLen - 1)
  := by
  rw [Resolves, hs]
  by_cases hlt : s.length < maxLen
  · rw [StringBuffer.strncpy_eq_some (Nat.le_refl _) hlt]
    simp [hlt]
  · rw [StringBuffer.strncpy_eq_none hlt]
    simp [hlt]

theorem not_resolves_of_none (hs : resolveUrl base href maxLen = none) :
  ¬ Resolves base href maxLen
  := by
  rw [Resolves, hs]
  simp

/-! ### The cases -/

/-- The directory is the whole address only when it has neither a query nor a file name. -/
theorem eq_take_directory_iff {o p q : List UInt8} {m : Nat} (hq : q.head? ≠ some 47)
    (hle : (o ++ (p ++ q)).length ≤ m) :
  o ++ (p ++ q) = (o ++ if p = [] then [47] else directory p).take m
    ↔ q = [] ∧ if p = [] then (o ++ (p ++ q)).length = m else fileName p = []
  := by
  have hrest : (p ++ q).length ≤ m - o.length := by
    rw [List.length_append] at hle
    omega
  have hself : o ++ (p ++ q) = (o ++ (p ++ q)).take m := (List.take_of_length_le hle).symm
  conv_lhs => rw [hself]
  rw [take_append_inj, List.take_of_length_le hrest]
  by_cases hp : p = []
  · subst hp
    rw [if_pos rfl, if_pos rfl, List.nil_append, List.length_append]
    rw [List.nil_append, List.length_append] at hle
    cases q with
    | nil =>
        cases hk : m - o.length with
        | zero => simpa using by omega
        | succ k => simpa using by omega
    | cons c q =>
        constructor
        · intro heq
          cases hk : m - o.length with
          | zero =>
              rw [hk] at heq
              cases heq
          | succ k =>
              rw [hk, List.take_succ_cons] at heq
              apply absurd _ hq
              rw [(List.cons.inj heq).1]
              rfl
        · intro hnil
          exact absurd hnil.1 (List.cons_ne_nil c q)
  · rw [if_neg hp, if_neg hp]
    have hparts := directory_append_fileName p
    have hdir : (directory p).length ≤ m - o.length := by
      have hlength := congrArg List.length hparts
      rw [List.length_append] at hlength hrest
      omega
    have hwhole : p ++ q = directory p ++ (fileName p ++ q) := by rw [← List.append_assoc, hparts]
    rw [List.take_of_length_le hdir, hwhole, List.append_right_eq_self, List.append_eq_nil_iff]
    exact And.comm

/-- An empty `href` gives the base. -/
theorem resolves_empty_iff (hhref : href.bytes = []) :
  Resolves base href maxLen
    ↔ base.length < maxLen ∧ query base.bytes = []
      ∧ if path base.bytes = [] then base.length + 1 = maxLen else fileName (path base.bytes) = []
  := by
  have hfun : resolveUrl base href maxLen = StringBuffer.strncpy base maxLen := by
    rw [resolveUrl, if_pos hhref]
  have hresolved : resolved base.bytes href.bytes = origin base.bytes ++ (baseDir base.bytes ++ []) := by
    rw [hhref]
    rfl
  have hparts : origin base.bytes ++ (path base.bytes ++ query base.bytes) = base.bytes := by
    rw [path_append_query, origin_append_reference]
  rw [resolves_iff_of_strncpy hfun, hresolved, List.append_nil, CString.length]
  apply and_congr_right
  intro hlt
  have hiff := eq_take_directory_iff (m := maxLen - 1) (query_head? base.bytes)
    (by rw [hparts]; exact Nat.le_sub_one_of_lt hlt)
  rw [hparts] at hiff
  rw [baseDir, hiff]
  apply and_congr_right
  intro
  split
  · omega
  · rfl

/-- An absolute `href` is the address. -/
theorem resolves_absolute_iff (hhref : href.bytes ≠ []) (habs : isAbsolute href.bytes = true) :
  Resolves base href maxLen ↔ href.length < maxLen
  := by
  have hfun : resolveUrl base href maxLen = StringBuffer.strncpy href maxLen := by
    rw [resolveUrl, if_neg hhref, if_pos habs]
  rw [resolves_iff_of_strncpy hfun, resolved, if_pos habs, and_iff_left_iff_imp]
  intro hlt
  rw [List.take_of_length_le (Nat.le_sub_one_of_lt hlt)]

/-- The scheme as the function writes it is that of the base. -/
theorem ascii_scheme (hbase : 0 < protoLen base.bytes) :
  (CString.ofBytes (ascii (if (ascii "http://").isPrefixOf base.bytes then "http:"
      else "https:"))).bytes
    = base.bytes.take (protoLen base.bytes - 2)
  := by
  rw [protoLen] at hbase ⊢
  split_ifs at hbase ⊢ with h h'
  · obtain ⟨l, hl⟩ := List.isPrefixOf_iff_prefix.mp h
    rw [← hl]
    rfl
  · obtain ⟨l, hl⟩ := List.isPrefixOf_iff_prefix.mp h'
    rw [← hl]
    rfl
  · cases hbase

theorem seven_le_protoLen {base : List UInt8} (h : 0 < protoLen base) :
  7 ≤ protoLen base
  := by
  rw [protoLen] at h ⊢
  split_ifs at h ⊢
  · exact Nat.le_refl 7
  · exact Nat.le_succ 7
  · cases h

/-- Two slashes are put behind the scheme. -/
theorem resolves_slashes_iff (hbase : 0 < protoLen base.bytes) (hhref : href.bytes ≠ [])
    (habs : ¬ isAbsolute href.bytes = true)
    (hslashes : (ascii "//").isPrefixOf href.bytes = true) :
  Resolves base href maxLen ↔ protoLen base.bytes ≤ maxLen
  := by
  have hscheme := ascii_scheme hbase
  have hseven := seven_le_protoLen hbase
  have hle := protoLen_le base.bytes
  have hlength := congrArg List.length hscheme
  rw [List.length_take, Nat.min_eq_left (by omega)] at hlength
  by_cases hlt : protoLen base.bytes ≤ maxLen
  · have hroom : (CString.ofBytes (ascii (if (ascii "http://").isPrefixOf base.bytes then "http:"
        else "https:"))).length < maxLen - 1 := by
      rw [CString.length, hlength]
      omega
    have hfun := StringBuffer.strncpy_bind_strncat href hroom
    rw [iff_true_right hlt]
    rw [resolves_iff_of_cut (by omega) (s := (CString.ofBytes _).append href) _]
    · rw [resolved, if_neg habs, if_pos hslashes, CString.bytes_append, hscheme]
    · rw [resolveUrl, if_neg hhref, if_neg habs, if_pos hslashes]
      exact hfun
  · rw [iff_false_right hlt]
    apply not_resolves_of_none
    rw [resolveUrl, if_neg hhref, if_neg habs, if_pos hslashes]
    dsimp only
    rw [StringBuffer.strncpy_eq_none]
    · rfl
    · rw [CString.length, hlength]
      omega

/-- One slash is put behind the authority. -/
theorem resolves_slash_iff (hbase : 0 < protoLen base.bytes) (hhref : href.bytes ≠ [])
    (habs : ¬ isAbsolute href.bytes = true)
    (hslashes : ¬ (ascii "//").isPrefixOf href.bytes = true)
    (hslash : (ascii "/").isPrefixOf href.bytes = true) :
  Resolves base href maxLen
    ↔ 0 < maxLen ∧ (path base.bytes ≠ [] ∨ query base.bytes = []
      ∨ maxLen ≤ (origin base.bytes).length + 1)
  := by
  obtain ⟨l, hl⟩ := List.isPrefixOf_iff_prefix.mp hslash
  rcases Nat.eq_zero_or_pos maxLen with rfl | hpos
  · simpa using fun hres : Resolves base href 0 => absurd hres.choose.length_lt (Nat.not_lt_zero _)
  have hfun : resolveUrl base href maxLen
      = some (.cut ((base.truncate (hostEnd base.bytes)).append href) hpos) := by
    rw [resolveUrl, if_neg hhref, if_neg habs, if_neg hslashes, if_pos hslash, if_pos hbase]
    apply StringBuffer.strncpyZero_bind_strncat
  rw [resolves_iff_of_cut hpos hfun, CString.bytes_append, CString.bytes_truncate, take_hostEnd,
    resolved, if_neg habs, if_neg hslashes, if_pos hslash, List.append_assoc, and_iff_right hpos]
  have hsplit := path_append_query base.bytes
  cases hpath : path base.bytes with
  | cons c p =>
      have hfirst : reference base.bytes = 47 :: (p ++ query base.bytes) := by
        rw [← hsplit, hpath, path_head hpath, List.cons_append]
      rw [hfirst]
      simp
  | nil =>
      rw [hpath, List.nil_append] at hsplit
      cases hquery : query base.bytes with
      | nil =>
          rw [← hsplit, hquery]
          simp
      | cons c q =>
          have hne : c ≠ 47 := by
            have hhead := query_head? base.bytes
            rw [hquery] at hhead
            simpa using hhead
          have htake : (c :: q).takeWhile (· != 47) = c :: q.takeWhile (· != 47) := by
            rw [List.takeWhile_cons, if_pos (by simpa using hne)]
          have hchar : ascii "/" = [47] := rfl
          rw [← hsplit, hquery, htake, ← hl, hchar, List.cons_append, List.singleton_append,
            take_append_cons_inj hne]
          simp only [ne_eq, not_true_eq_false, reduceCtorEq, false_or]
          omega

/-- Without a slash behind the scheme, one is put behind the base. -/
theorem resolves_bare_iff (hhref : href.bytes ≠ [])
    (habs : ¬ isAbsolute href.bytes = true)
    (hslashes : ¬ (ascii "//").isPrefixOf href.bytes = true)
    (hslash : ¬ (ascii "/").isPrefixOf href.bytes = true) (hbare : 47 ∉ reference base.bytes) :
  Resolves base href maxLen ↔ base.length + 1 < maxLen ∧ query base.bytes = []
  := by
  have hhierarchy : 47 ∉ base.bytes.drop (protoLen base.bytes) := by
    rwa [← mem_hierarchy_iff] at hbare
  have hparts := origin_append_reference base.bytes
  have hsplit := path_append_query base.bytes
  have hpath : path base.bytes = [] := by
    cases hpath : path base.bytes with
    | nil => rfl
    | cons c p =>
        rw [← hsplit, hpath, path_head hpath] at hbare
        exact absurd List.mem_cons_self hbare
  rw [hpath, List.nil_append] at hsplit
  by_cases hlt : base.length + 1 < maxLen
  · have hroom : base.length < maxLen - 1 := by omega
    have hpos : 0 < maxLen := by omega
    have hfun : resolveUrl base href maxLen
        = some (.cut ((base.append (.ofBytes [47])).append href) hpos) := by
      rw [resolveUrl, if_neg hhref, if_neg habs, if_neg hslashes, if_neg hslash, if_pos hhierarchy]
      show ((StringBuffer.strncpy base (maxLen - 1)).bind fun out : StringBuffer maxLen =>
        (out.strncat (.ofBytes [47]) (maxLen - out.string.length - 1)).bind fun out =>
          out.strncat href (maxLen - out.string.length - 1)) = _
      rw [← Option.bind_assoc, StringBuffer.strncpy_bind_strncat _ hroom, Option.bind_some]
      apply StringBuffer.cut_strncat
    have hone : (CString.ofBytes [47]).bytes = [47] := rfl
    rw [resolves_iff_of_cut hpos hfun, and_iff_right hlt, resolved, if_neg habs, if_neg hslashes,
      if_neg hslash, baseDir, if_pos hpath, CString.bytes_append, CString.bytes_append, hone]
    cases hquery : query base.bytes with
    | nil =>
        rw [← hsplit, hquery, List.append_nil] at hparts
        rw [hparts]
        simp
    | cons c q =>
        have hne : c ≠ 47 := by
          have hhead := query_head? base.bytes
          rw [hquery] at hhead
          simpa using hhead
        rw [← hsplit, hquery] at hparts
        have hlength := congrArg List.length hparts
        rw [List.length_append, List.length_cons] at hlength
        rw [CString.length] at hroom
        have hwhole : base.bytes ++ [47] ++ href.bytes
            = origin base.bytes ++ c :: (q ++ 47 :: href.bytes) := by
          conv_lhs => rw [← hparts]
          simp
        rw [hwhole, List.singleton_append, take_append_cons_inj hne]
        simp only [reduceCtorEq, iff_false]
        omega
  · rw [iff_false_right (fun h => hlt h.1)]
    apply not_resolves_of_none
    rw [resolveUrl, if_neg hhref, if_neg habs, if_neg hslashes, if_neg hslash, if_pos hhierarchy]
    rw [StringBuffer.strncpy_eq_none (by omega)]
    rfl

/-- With a slash behind the scheme, the base is cut off behind its last one. -/
theorem resolves_relative_iff (hhref : href.bytes ≠ [])
    (habs : ¬ isAbsolute href.bytes = true)
    (hslashes : ¬ (ascii "//").isPrefixOf href.bytes = true)
    (hslash : ¬ (ascii "/").isPrefixOf href.bytes = true) (hbare : ¬ 47 ∉ reference base.bytes) :
  Resolves base href maxLen
    ↔ if path base.bytes = [] then 0 < maxLen ∧ maxLen ≤ (origin base.bytes).length + 1
      else 0 < maxLen ∧ (47 ∉ query base.bytes
        ∨ Repeats (maxLen - 1 - (origin base.bytes ++ directory (path base.bytes)).length)
          (fileName (path base.bytes) ++ directory (query base.bytes)) href.bytes)
  := by
  have hhierarchy : ¬ 47 ∉ base.bytes.drop (protoLen base.bytes) := by
    rwa [← mem_hierarchy_iff] at hbare
  rw [not_not] at hbare
  rcases Nat.eq_zero_or_pos maxLen with rfl | hpos
  · simpa using fun hres : Resolves base href 0 => absurd hres.choose.length_lt (Nat.not_lt_zero _)
  have hfun : resolveUrl base href maxLen
      = some (.cut ((base.truncate (dirLen base.bytes)).append href) hpos) := by
    rw [resolveUrl, if_neg hhref, if_neg habs, if_neg hslashes, if_neg hslash, if_neg hhierarchy]
    apply StringBuffer.strncpyZero_bind_strncat
  have hparts := origin_append_reference base.bytes
  have hsplit := path_append_query base.bytes
  rw [resolves_iff_of_cut hpos hfun, CString.bytes_append, CString.bytes_truncate, take_dirLen,
    resolved, if_neg habs, if_neg hslashes, if_neg hslash, baseDir, and_iff_right hpos,
    and_iff_right hpos]
  have hdir : directory base.bytes = origin base.bytes ++ directory (reference base.bytes) := by
    conv_lhs => rw [← hparts, directory_append_of_mem _ hbare]
  rw [hdir, List.append_assoc]
  by_cases hpath : path base.bytes = []
  · rw [if_pos hpath, if_pos hpath]
    rw [hpath, List.nil_append] at hsplit
    -- the last slash is in the query, whose first byte stands where a slash should be
    cases hquery : directory (query base.bytes) with
    | nil =>
        have hfile := directory_append_fileName (query base.bytes)
        rw [hquery, List.nil_append] at hfile
        rw [← hsplit, ← hfile] at hbare
        exact absurd hbare (not_mem_fileName _)
    | cons c q =>
        have hne : c ≠ 47 := by
          have hhead := query_head? base.bytes
          rw [← directory_append_fileName (query base.bytes), hquery] at hhead
          simpa using hhead
        rw [← hsplit, hquery, List.cons_append, List.singleton_append, take_append_cons_inj hne]
        omega
  · rw [if_neg hpath, if_neg hpath]
    by_cases hquery : 47 ∈ query base.bytes
    · rw [← hsplit, directory_append_of_mem _ hquery, Repeats, or_iff_right (not_not.mpr hquery)]
      have hpathParts := directory_append_fileName (path base.bytes)
      have hfront : origin base.bytes
          ++ (path base.bytes ++ directory (query base.bytes) ++ href.bytes)
          = (origin base.bytes ++ directory (path base.bytes))
            ++ (fileName (path base.bytes) ++ directory (query base.bytes) ++ href.bytes) := by
        conv_lhs => rw [← hpathParts]
        simp only [List.append_assoc]
      rw [hfront, ← List.append_assoc (origin base.bytes), take_append_inj]
    · rw [← hsplit, directory_append_of_not_mem _ hquery]
      simp [hquery]

end

/-- In the page at an address with `http` or `https`, the address of an `href` is found exactly when the
base and the lengths allow it. -/
theorem resolves_iff
    (base href : CString) (maxLen : Nat) (hbase : 0 < protoLen base.bytes) :
  Resolves base href maxLen ↔ ResolvesWhen base.bytes href.bytes maxLen
  := by
  rw [ResolvesWhen]
  by_cases hhref : href.bytes = []
  · rw [if_pos hhref]
    exact resolves_empty_iff hhref
  rw [if_neg hhref]
  by_cases habs : isAbsolute href.bytes = true
  · rw [if_pos habs]
    exact resolves_absolute_iff hhref habs
  rw [if_neg habs]
  by_cases hslashes : (ascii "//").isPrefixOf href.bytes = true
  · rw [if_pos hslashes]
    exact resolves_slashes_iff hbase hhref habs hslashes
  rw [if_neg hslashes]
  by_cases hslash : (ascii "/").isPrefixOf href.bytes = true
  · rw [if_pos hslash]
    exact resolves_slash_iff hbase hhref habs hslashes hslash
  rw [if_neg hslash]
  by_cases hbare : 47 ∉ reference base.bytes
  · rw [if_pos hbare]
    exact resolves_bare_iff hhref habs hslashes hslash hbare
  · rw [if_neg hbare]
    exact resolves_relative_iff hhref habs hslashes hslash hbare

/-- The file `b` beside `http://h/p/a?q`. -/
theorem resolves_beside :
  Resolves (.ofBytes (ascii "http://h/p/a?q")) (.ofBytes (ascii "b")) 512
  := by
  apply (resolves_iff _ _ 512 (by decide)).mpr
  rw [ResolvesWhen]
  decide

/-- A slash in the query is taken for one of the path. -/
theorem not_resolves :
  0 < protoLen (CString.ofBytes (ascii "http://h/p?q=a/b")).bytes
    ∧ ¬ Resolves (.ofBytes (ascii "http://h/p?q=a/b")) (.ofBytes (ascii "c")) 512
  := by
  constructor
  · decide
  · rw [resolves_relative_iff (by decide) (by decide) (by decide) (by decide) (by decide)]
    decide

end Browser.Address
