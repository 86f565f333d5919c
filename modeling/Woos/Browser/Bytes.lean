import Mathlib.Tactic.SplitIfs
import Mathlib.Tactic.Use

/-!
# Strings of the browser

The text of a page is the list of its bytes before the NUL.  `get` reads a byte of it, the NUL
included, and has no result behind the NUL; the searches that go through the text from an index on
read it by `get` or stop at the NUL by themselves.  The other functions work on strings that the
browser has copied: names of tags, attributes and addresses.
-/

namespace Browser

/-- The bytes of an ASCII string. -/
def ascii (s : String) : List UInt8 := s.toList.map (fun c => c.toNat.toUInt8)

/-- The string in a buffer, which ends at its first NUL. -/
def cstr (buf : List UInt8) : List UInt8 := buf.takeWhile (· != 0)

/-- The byte at the index `i` of a text, or its NUL. -/
def get (t : List UInt8) (i : Nat) : Option UInt8 :=
  if i ≤ t.length then some (t.getD i 0) else none

/-- The folding of letters in `strncasecmp_custom`. -/
def lower (c : UInt8) : UInt8 := if c ≥ 65 ∧ c ≤ 90 then c + 32 else c

/-- `strncasecmp_custom(&t[i], name, strlen(name)) == 0` for the folding `lower`, and
`strncmp(&t[i], name, strlen(name)) == 0` for none: the bytes are read up to the first that
differs. -/
def matchAt (fold : UInt8 → UInt8) (t : List UInt8) : (i : Nat) → (name : List UInt8) → Option Bool
  | _, [] => some true
  | i, c :: name => (get t i).bind fun b =>
    if fold b ≠ c ∨ fold b = 0 then some false else matchAt fold t (i + 1) name

/-- `strchr(&t[i], c)` -/
def findByte (t : List UInt8) (i : Nat) (c : UInt8) : Option (Option Nat) :=
  if i ≤ t.length then some (((t.drop i).findIdx? (· == c)).map (i + ·)) else none

/-- The offset of the first occurrence of `needle`. -/
def indexOf (needle : List UInt8) : List UInt8 → Option Nat
  | [] => if needle.isEmpty then some 0 else none
  | c :: s => if needle.isPrefixOf (c :: s) then some 0 else (indexOf needle s).map (· + 1)

/-- `strstr(&t[i], needle)` -/
def findString (t : List UInt8) (i : Nat) (needle : List UInt8) : Option (Option Nat) :=
  if i ≤ t.length then some ((indexOf needle (t.drop i)).map (i + ·)) else none

/-- `strstr(s, needle) != NULL` -/
def contains (s needle : List UInt8) : Bool := (indexOf needle s).isSome

/-- `tag_match` -/
def tagMatch (tag name : List UInt8) : Bool :=
  (tag.take name.length).map lower == name
    && [0, 32, 9, 13, 10, 62, 47].contains (tag.getD name.length 0)

/-- The value of an attribute of a tag, cut off after `max` bytes.  A value without quotes ends at a
space, and for some attributes at `>`. -/
def attrValue (tag key : List UInt8) (stopAtGt : Bool) (max : Nat) : Option (List UInt8) :=
  (indexOf key tag).map fun k =>
    match tag.drop (k + key.length) with
    | [] => []
    | q :: rest =>
      if q = 34 ∨ q = 39 then
        (rest.takeWhile (· != q)).take max
      else
        ((q :: rest).takeWhile (fun c => c != 32 && !(stopAtGt && c == 62))).take max

/-- `html_unescape_url`, with room for `room` bytes. -/
def htmlUnescapeUrl : (room : Nat) → (src : List UInt8) → List UInt8
  | 0, _ => []
  | _, [] => []
  | room + 1, c :: src =>
    if (ascii "&amp;").isPrefixOf (c :: src) then 38 :: htmlUnescapeUrl room (src.drop 4)
    else if (ascii "&#38;").isPrefixOf (c :: src) then 38 :: htmlUnescapeUrl room (src.drop 4)
    else if (ascii "&quot;").isPrefixOf (c :: src) then 34 :: htmlUnescapeUrl room (src.drop 5)
    else if (ascii "&lt;").isPrefixOf (c :: src) then 60 :: htmlUnescapeUrl room (src.drop 3)
    else if (ascii "&gt;").isPrefixOf (c :: src) then 62 :: htmlUnescapeUrl room (src.drop 3)
    else c :: htmlUnescapeUrl room src

/-- `MAX_URL_LEN` -/
def maxUrlLen : Nat := 512

/-- The length of `http://` or `https://` at the beginning of an address. -/
def protoLen (url : List UInt8) : Nat :=
  if (ascii "http://").isPrefixOf url then 7
  else if (ascii "https://").isPrefixOf url then 8
  else 0

/-- `resolve_url` into a buffer of `maxUrlLen` bytes. -/
def resolveUrl (base href : List UInt8) : List UInt8 :=
  let max := maxUrlLen - 1
  if href = [] then
    base
  else if (ascii "http://").isPrefixOf href || (ascii "https://").isPrefixOf href
      || (ascii "file://").isPrefixOf href then
    href
  else if (ascii "//").isPrefixOf href then
    (ascii (if (ascii "http://").isPrefixOf base then "http:" else "https:") ++ href).take max
  else if (ascii "/").isPrefixOf href then
    if protoLen base > 0 then
      let hostEnd := match (base.drop (protoLen base)).findIdx? (· == 47) with
        | some k => protoLen base + k
        | none => base.length
      (base.take (min hostEnd max) ++ href).take max
    else
      href
  else
    match (base.drop (protoLen base)).findIdx? (· == 47) with
    | none => (base.take max ++ ascii "/" ++ href).take max
    | some _ =>
      let dirLen := base.length - base.reverse.findIdx (· == 47)
      (base.take (min dirLen max) ++ href).take max

/-! ### Reading the text -/

theorem get_of_le {t : List UInt8} {i : Nat} (h : i ≤ t.length) :
  get t i = some (t.getD i 0)
  := if_pos h

theorem get_of_lt {t : List UInt8} {i : Nat} (h : t.length < i) :
  get t i = none
  := if_neg (Nat.not_le_of_lt h)

/-- A byte other than the NUL is in front of it. -/
theorem lt_of_get {t : List UInt8} {i : Nat} {c : UInt8} (h : get t i = some c) (hc : c ≠ 0) :
  i < t.length
  := by
  rw [get] at h
  split at h
  · apply Nat.lt_of_le_of_ne ‹_›
    rintro rfl
    apply hc
    rw [← Option.some.inj h]
    simp
  · cases h

/-- A comparison from an index of the text on stays within it, and the bytes that agree are in front
of the NUL. -/
theorem matchAt_of_le (fold : UInt8 → UInt8) (hfold : fold 0 = 0) {t : List UInt8} {i : Nat}
    (h : i ≤ t.length) (name : List UInt8) :
  ∃ b, matchAt fold t i name = some b ∧ (b = true → i + name.length ≤ t.length)
  := by
  induction name generalizing i with
  | nil => exact ⟨true, rfl, fun _ => h⟩
  | cons c name ih =>
      rw [matchAt, get_of_le h, Option.bind_some]
      split
      · exact ⟨false, rfl, fun hfalse => nomatch hfalse⟩
      · rename_i hagree
        have hlt : i < t.length := by
          apply lt_of_get (get_of_le h)
          intro hzero
          apply hagree
          rw [hzero, hfold]
          exact Or.inr rfl
        obtain ⟨b, hb, hle⟩ := ih hlt
        use b, hb
        intro htrue
        have := hle htrue
        rw [List.length_cons]
        omega

theorem findByte_of_le {t : List UInt8} {i : Nat} (h : i ≤ t.length) (c : UInt8) :
  ∃ r, findByte t i c = some r ∧ ∀ q, r = some q → i ≤ q ∧ q < t.length
  := by
  rw [findByte, if_pos h]
  refine ⟨_, rfl, ?_⟩
  intro q hq
  obtain ⟨k, hk, rfl⟩ := Option.map_eq_some_iff.mp hq
  obtain ⟨hlt, -⟩ := List.findIdx?_eq_some_iff_getElem.mp hk
  rw [List.length_drop] at hlt
  omega

/-- The search finds a part of the string. -/
theorem contains_iff {s needle : List UInt8} :
  contains s needle = true ↔ needle <:+: s
  := by
  rw [contains]
  induction s with
  | nil =>
      rw [indexOf, List.infix_nil, ← List.isEmpty_iff]
      cases needle.isEmpty <;> simp
  | cons c s ih =>
      rw [indexOf, List.infix_cons_iff, ← ih, ← List.isPrefixOf_iff_prefix]
      cases needle.isPrefixOf (c :: s) <;> simp

theorem indexOf_le {needle s : List UInt8} {k : Nat} (h : indexOf needle s = some k) :
  k + needle.length ≤ s.length
  := by
  induction s generalizing k with
  | nil =>
      rw [indexOf] at h
      split at h
      · rename_i hempty
        cases h
        rw [List.isEmpty_iff.mp hempty]
        apply Nat.le_refl
      · cases h
  | cons c s ih =>
      rw [indexOf] at h
      split at h
      · rename_i hprefix
        cases h
        rw [Nat.zero_add]
        exact (List.isPrefixOf_iff_prefix.mp hprefix).length_le
      · obtain ⟨j, hj, rfl⟩ := Option.map_eq_some_iff.mp h
        have := ih hj
        rw [List.length_cons]
        omega

theorem findString_of_le {t : List UInt8} {i : Nat} (h : i ≤ t.length) (needle : List UInt8) :
  ∃ r, findString t i needle = some r ∧ ∀ q, r = some q → i ≤ q ∧ q + needle.length ≤ t.length
  := by
  rw [findString, if_pos h]
  refine ⟨_, rfl, ?_⟩
  intro q hq
  obtain ⟨k, hk, rfl⟩ := Option.map_eq_some_iff.mp hq
  have hle := indexOf_le hk
  rw [List.length_drop] at hle
  omega

end Browser
