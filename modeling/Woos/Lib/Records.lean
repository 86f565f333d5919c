import Mathlib.Data.List.Basic

/-!
# Pages of records

A list of records is handed out in pages of a fixed size.  A record is encoded as a string that
begins with a header.  `Records.page` fills a page: records one after the other, the last cut where
the page ends, but no record of which not even the header fits.  `Records.whole` are the records
that fit, and `Records.taken` is how many have been taken from the list.

A reader that asks for the next page from the first record that it has not received whole, and stops
at a page that is not full, gets all records exactly when no page but the last has less room left
than a header: `Records.Streams`.
-/

namespace Records

variable {α β : Type*} (enc : α → List β) (header : Nat)

/-- The records that fit. -/
def whole : Nat → List α → List α
  | _, [] => []
  | room, a :: as =>
      if (enc a).length ≤ room then a :: whole (room - (enc a).length) as else []

/-- What is written to a page. -/
def page : Nat → List α → List β
  | _, [] => []
  | room, a :: as =>
      if room < header then
        []
      else if (enc a).length < room then
        enc a ++ page (room - (enc a).length) as
      else
        (enc a).take room

/-- How many records have been taken for a page. -/
def taken : Nat → List α → Nat
  | _, [] => 0
  | room, a :: as =>
      if room < header then
        1
      else if (enc a).length < room then
        taken (room - (enc a).length) as + 1
      else
        1

/-- Every page of the given size that is followed by another is filled up, or has room for a
header when the next record does not fit.  The first page has the given room. -/
def Streams (size : Nat) : Nat → List α → Prop
  | _, [] => True
  | room, a :: as =>
      if (enc a).length ≤ room then
        Streams size (room - (enc a).length) as
      else
        (room = 0 ∨ header ≤ room) ∧ Streams size (size - (enc a).length) as

instance decidableStreams (size : Nat) :
    ∀ (room : Nat) (as : List α), Decidable (Streams enc header size room as)
  | _, [] => isTrue trivial
  | room, a :: as =>
      have := decidableStreams size (room - (enc a).length) as
      have := decidableStreams size (size - (enc a).length) as
      inferInstanceAs (Decidable (if (enc a).length ≤ room then _ else _))

variable {enc header}

/-! ### The records that fit -/

theorem whole_prefix (room : Nat) (as : List α) :
  whole enc room as <+: as
  := by
  induction as generalizing room with
  | nil => apply List.prefix_rfl
  | cons a as ih =>
      rw [whole]
      split
      · rw [List.prefix_cons_inj]
        apply ih
      · apply List.nil_prefix

theorem length_flatMap_whole_le (room : Nat) (as : List α) :
  ((whole enc room as).flatMap enc).length ≤ room
  := by
  induction as generalizing room with
  | nil => apply Nat.zero_le
  | cons a as ih =>
      rw [whole]
      split
      · next hfits =>
          have hrest := ih (room - (enc a).length)
          rw [List.flatMap_cons, List.length_append]
          omega
      · apply Nat.zero_le

/-- All records fit when there is room for all. -/
theorem whole_eq_self_iff {room : Nat} {as : List α} :
  whole enc room as = as ↔ (as.flatMap enc).length ≤ room
  := by
  constructor
  · intro h
    rw [← h]
    apply length_flatMap_whole_le
  · intro h
    induction as generalizing room with
    | nil => rfl
    | cons a as ih =>
        rw [List.flatMap_cons, List.length_append] at h
        rw [whole, if_pos (by omega), ih]
        omega

/-- A record that fits a page fits at its beginning. -/
theorem length_whole_pos {room : Nat} {as : List α} (hne : as ≠ [])
    (hsize : ∀ a ∈ as, (enc a).length ≤ room) :
  0 < (whole enc room as).length
  := by
  cases as with
  | nil => contradiction
  | cons a as =>
      rw [whole, if_pos (hsize a List.mem_cons_self), List.length_cons]
      apply Nat.succ_pos

/-! ### Pages -/

/-- The room that the records that fit leave. -/
def left (enc : α → List β) (room : Nat) (as : List α) : Nat :=
  room - ((whole enc room as).flatMap enc).length

theorem left_cons {a : α} {room : Nat} (as : List α) (hfits : (enc a).length ≤ room) :
  left enc room (a :: as) = left enc (room - (enc a).length) as
  := by
  rw [left, whole, if_pos hfits, List.flatMap_cons, List.length_append, ← Nat.sub_sub]
  rfl

theorem left_cons_of_lt {a : α} {room : Nat} (as : List α) (hcut : room < (enc a).length) :
  left enc room (a :: as) = room
  := by
  rw [left, whole, if_neg (Nat.not_le.mpr hcut)]
  rfl

/-- What a page holds: all records; or those that fit, with no room for another header; or those
that fit and a part of the next that fills the page. -/
theorem page_cases (hheader : ∀ a, header ≤ (enc a).length) (hpos : 0 < header) (room : Nat)
    (as : List α) :
  (whole enc room as = as ∧ page enc header room as = as.flatMap enc)
  ∨ (∃ a rest, as = whole enc room as ++ a :: rest ∧ left enc room as < header
    ∧ page enc header room as = (whole enc room as).flatMap enc)
  ∨ ∃ a rest, as = whole enc room as ++ a :: rest ∧ header ≤ left enc room as
    ∧ left enc room as < (enc a).length
    ∧ page enc header room as = (whole enc room as).flatMap enc ++ (enc a).take (left enc room as)
    ∧ (whole enc room as).length < taken enc header room as
  := by
  induction as generalizing room with
  | nil =>
      left
      exact ⟨rfl, rfl⟩
  | cons a as ih =>
      have ha := hheader a
      rcases Nat.lt_trichotomy (enc a).length room with hlt | heq | hgt
      · -- the record fits and there is room left
        have hwhole : whole enc room (a :: as) = a :: whole enc (room - (enc a).length) as := by
          rw [whole, if_pos (Nat.le_of_lt hlt)]
        have hpage : page enc header room (a :: as)
            = enc a ++ page enc header (room - (enc a).length) as := by
          rw [page, if_neg (by omega), if_pos hlt]
        have htaken : taken enc header room (a :: as)
            = taken enc header (room - (enc a).length) as + 1 := by
          rw [taken, if_neg (by omega), if_pos hlt]
        rw [hwhole, hpage, htaken, left_cons as (Nat.le_of_lt hlt), List.flatMap_cons,
          List.flatMap_cons]
        simp only [List.cons_append, List.append_assoc]
        rcases ih (room - (enc a).length) with ⟨hall, hp⟩ | ⟨b, rest, hsplit, hleft, hp⟩
          | ⟨b, rest, hsplit, hleft, hcut, hp, htaken⟩
        · left
          rw [hall, hp]
          exact ⟨rfl, rfl⟩
        · right
          left
          use b, rest
          rw [← hsplit, hp]
          exact ⟨rfl, hleft, rfl⟩
        · right
          right
          use b, rest
          rw [← hsplit, hp]
          exact ⟨rfl, hleft, hcut, rfl, Nat.succ_lt_succ htaken⟩
      · -- the record fills the page up
        have hpage : page enc header room (a :: as) = enc a := by
          rw [page, if_neg (by omega), if_neg (by omega), ← heq, List.take_length]
        have hwhole : whole enc room (a :: as) = a :: whole enc 0 as := by
          rw [whole, if_pos (Nat.le_of_eq heq), heq, Nat.sub_self]
        rw [hpage, hwhole]
        cases as with
        | nil =>
            left
            use rfl
            rw [List.flatMap_singleton]
        | cons b as =>
            have hb := hheader b
            have hnone : whole enc 0 (b :: as) = [] := by
              rw [whole, if_neg (by omega)]
            right
            left
            use b, as
            rw [hnone, left_cons _ (Nat.le_of_eq heq), heq, Nat.sub_self, left, Nat.zero_sub,
              List.flatMap_singleton]
            exact ⟨rfl, hpos, rfl⟩
      · have hwhole : whole enc room (a :: as) = [] := by
          rw [whole, if_neg (by omega)]
        right
        rw [hwhole, left_cons_of_lt as hgt]
        rcases Nat.lt_or_ge room header with hroom | hroom
        · left
          use a, as, rfl, hroom
          rw [page, if_pos hroom]
          rfl
        · right
          use a, as, rfl, hroom, hgt
          rw [page, if_neg (by omega), if_neg (by omega), taken, if_neg (by omega),
            if_neg (by omega)]
          exact ⟨rfl, Nat.one_pos⟩

/-- A page that is not full holds all records, or no header fits behind those that it holds. -/
theorem of_length_page_lt (hheader : ∀ a, header ≤ (enc a).length) (hpos : 0 < header) {room : Nat}
    {as : List α} (h : (page enc header room as).length < room) :
  whole enc room as = as ∨ left enc room as ≠ 0 ∧ left enc room as < header
  := by
  have hle : ((whole enc room as).flatMap enc).length ≤ room := by
    apply length_flatMap_whole_le
  rcases page_cases hheader hpos room as with ⟨hall, _⟩ | ⟨a, rest, _, hleft, hpage⟩
    | ⟨a, rest, _, hleft, hcut, hpage, _⟩
  · left
    apply hall
  · right
    rw [hpage] at h
    rw [left] at hleft ⊢
    omega
  · rw [hpage, List.length_append, List.length_take_of_le (Nat.le_of_lt hcut), left] at h
    omega

/-- A full page holds all records, or is filled up by the next. -/
theorem of_le_length_page (hheader : ∀ a, header ≤ (enc a).length) (hpos : 0 < header) {room : Nat}
    {as : List α} (h : room ≤ (page enc header room as).length) :
  whole enc room as = as ∨ left enc room as = 0 ∨ header ≤ left enc room as
  := by
  rcases page_cases hheader hpos room as with ⟨hall, _⟩ | ⟨a, rest, _, _, hpage⟩
    | ⟨a, rest, _, hleft, _, _, _⟩
  · left
    apply hall
  · right
    left
    rw [hpage] at h
    rw [left]
    omega
  · right
    right
    apply hleft

theorem length_page_le (room : Nat) (as : List α) :
  (page enc header room as).length ≤ room
  := by
  induction as generalizing room with
  | nil => apply Nat.zero_le
  | cons a as ih =>
      rw [page]
      split
      · apply Nat.zero_le
      · split
        · next hfits =>
            have hrest := ih (room - (enc a).length)
            rw [List.length_append]
            omega
        · apply List.length_take_le

theorem length_whole_le_taken (hheader : ∀ a, header ≤ (enc a).length) (hpos : 0 < header)
    (room : Nat) (as : List α) :
  (whole enc room as).length ≤ taken enc header room as
  := by
  induction as generalizing room with
  | nil => apply Nat.zero_le
  | cons a as ih =>
      have ha := hheader a
      rw [whole, taken]
      split
      · next hfits =>
          rw [if_neg (by omega), List.length_cons]
          split
          · apply Nat.succ_le_succ
            apply ih
          · have hroom : room - (enc a).length = 0 := by omega
            have hnone : whole enc 0 as = [] := by
              cases as with
              | nil => rfl
              | cons b as =>
                  have hb := hheader b
                  rw [whole, if_neg (by omega)]
            rw [hroom, hnone]
            apply Nat.le_refl
      · apply Nat.zero_le

theorem taken_le (room : Nat) (as : List α) :
  taken enc header room as ≤ as.length
  := by
  induction as generalizing room with
  | nil => apply Nat.zero_le
  | cons a as ih =>
      rw [taken, List.length_cons]
      split
      · apply Nat.succ_le_succ
        apply Nat.zero_le
      · split
        · apply Nat.succ_le_succ
          apply ih
        · apply Nat.succ_le_succ
          apply Nat.zero_le

/-! ### Streams of pages -/

/-- The pages after the first are those of the records that it does not hold. -/
theorem streams_iff {size : Nat} {as : List α} (hsize : ∀ a ∈ as, (enc a).length ≤ size)
    (room : Nat) :
  Streams enc header size room as
    ↔ whole enc room as = as
      ∨ ((left enc room as = 0 ∨ header ≤ left enc room as)
        ∧ Streams enc header size size (as.drop (whole enc room as).length))
  := by
  induction as generalizing room with
  | nil =>
      apply iff_of_true trivial
      left
      rfl
  | cons a as ih =>
      rw [Streams, whole]
      split
      · next hfits =>
          rw [ih (fun b hb => hsize b (List.mem_cons_of_mem a hb)), left_cons as hfits, List.cons.injEq, List.length_cons, List.drop_succ_cons]
          simp only [true_and]
      · next hcut =>
          rw [left_cons_of_lt as (Nat.not_le.mp hcut), List.length_nil, List.drop_zero, Streams,
            if_pos (hsize a List.mem_cons_self)]
          simp only [reduceCtorEq, false_or]

end Records
