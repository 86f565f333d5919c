import Woos.Lib.Bytes
import Woos.Lib.Memory
import Woos.Http.Chunks

/-!
# Decoding chunks in place

`http_unchunk` decodes a body in chunked transfer coding to its own beginning.  The model checks
what the function must keep to: every byte read lies before the end of the body, every byte
written does not lie ahead of the position that has been read; and it gives up when a loop has not
ended after as many rounds as there are bytes.  `httpUnchunk_eq` says that it never gives up, and makes
of the body what `unchunk` makes of its bytes.
-/

/-- `memmove` -/
def Memory.memmove (m : Memory) (dst src n : Nat) : Memory :=
  if dst < src then m.copy dst src n
  else if src < dst then
    (List.range n).foldr (fun i m' => Function.update m' (dst + i) (m' (src + i))) m
  else m

/-- A move down moves all bytes, and changes no others. -/
theorem Memory.memmove_down (m : Memory) {dst src : Nat} (n : Nat) (h : dst < src) :
  (m.memmove dst src n).read dst n = m.read src n
    ∧ ∀ x, x < dst ∨ dst + n ≤ x → m.memmove dst src n x = m x
  := by
  rw [Memory.memmove, if_pos h]
  constructor
  · apply List.map_congr_left
    intro i hi
    apply Memory.copy_apply_down _ (List.mem_range.mp hi) h
  · intro x hx
    apply Memory.copy_apply_outside _ hx

namespace Http

/-- `*p`, for a position before the end. -/
def peek (m : Memory) (e p : Nat) : Option UInt8 := if p < e then some (m p) else none

/-- A loop that goes on to the first byte that fails the test. -/
def skipWhile (test : UInt8 → Bool) (m : Memory) (e : Nat) : Nat → Nat → Option Nat
  | 0, _ => none
  | n + 1, p =>
      if p < e then do
        let c ← peek m e p
        if test c then skipWhile test m e n (p + 1) else some p
      else some p

/-- Go past a byte, when it is there. -/
def skipByte (d : UInt8) (m : Memory) (e p : Nat) : Option Nat :=
  if p < e then do
    let c ← peek m e p
    some (if c = d then p + 1 else p)
  else some p

/-- The loop over the digits of a chunk size: the position after them, the size, and whether there
are any. -/
def readSize (m : Memory) (e : Nat) : Nat → Nat → UInt32 → Bool → Option (Nat × UInt32 × Bool)
  | 0, _, _, _ => none
  | n + 1, p, size, hasDigits =>
      if p < e then do
        let c ← peek m e p
        match hexValue c with
        | none => some (p, size, hasDigits)
        | some v => readSize m e n (p + 1) (size <<< 4 ||| v) true
      else some (p, size, hasDigits)

/-- Move the data of a chunk down, unless it is there already. -/
def moveChunk (m : Memory) (e dst src n : Nat) : Option Memory :=
  if src + n ≤ e ∧ dst ≤ src then some (if dst ≠ src then m.memmove dst src n else m) else none

/-- The loop of `http_unchunk` over the chunks: the memory, and the positions that have been read
and written. -/
def unchunkLoop (e : Nat) : Nat → Memory → Nat → Nat → Option (Memory × Nat × Nat)
  | 0, _, _, _ => none
  | n + 1, m, src, dst =>
      if src < e then do
        let src ← skipWhile isBlank m e (e + 1) src
        if e ≤ src then
          some (m, src, dst)
        else do
          let (src, size, hasDigits) ← readSize m e (e + 1) src 0 false
          if !hasDigits then
            some (m, src, dst)
          else do
            let src ← skipWhile (· ≠ lf) m e (e + 1) src
            let src ← skipByte lf m e src
            if size = 0 then
              some (m, src, dst)
            else do
              let toCopy := if UInt32.ofNat (e - src) < size then UInt32.ofNat (e - src) else size
              let m ← moveChunk m e dst src toCopy.toNat
              let dst := dst + toCopy.toNat
              let src := src + toCopy.toNat
              let src ← skipByte cr m e src
              let src ← skipByte lf m e src
              unchunkLoop e n m src dst
      else some (m, src, dst)

/-- `http_unchunk` on the body at an address: the length of the decoded body, and the memory. -/
def httpUnchunk (m : Memory) (body : Nat) (bodyLen : UInt32) : Option (UInt32 × Memory) :=
  if bodyLen = 0 then
    some (0, m)
  else do
    let e := body + bodyLen.toNat
    let (m, src, dst) ← unchunkLoop e (bodyLen.toNat + 1) m body body
    if dst ≤ src then some (UInt32.ofNat (dst - body), Function.update m dst 0) else none

/-! ### The loops -/

/-- The bytes from a position to the end. -/
def left (m : Memory) (e p : Nat) : List UInt8 := m.read p (e - p)

section

variable {m : Memory} {e p n : Nat}

theorem left_of_le (h : e ≤ p) :
  left m e p = []
  := by
  rw [left, Nat.sub_eq_zero_of_le h]
  rfl

theorem left_of_lt (h : p < e) :
  left m e p = m p :: left m e (p + 1)
  := by
  rw [left, left, ← Memory.read_succ]
  congr 1
  omega

@[simp]
theorem length_left (m : Memory) (e p : Nat) :
  (left m e p).length = e - p
  := Memory.length_read m p (e - p)

theorem left_drop (m : Memory) (e p k : Nat) :
  (left m e p).drop k = left m e (p + k)
  := by
  rw [left, left, Memory.read_drop, Nat.sub_add_eq]

@[simp]
theorem peek_of_lt (h : p < e) :
  peek m e p = some (m p)
  := if_pos h

/-- A loop over bytes ends before the end of the body. -/
theorem skipWhile_eq (test : UInt8 → Bool) (hle : p ≤ e) (hn : e - p < n) :
  ∃ q, skipWhile test m e n p = some q ∧ p ≤ q ∧ q ≤ e ∧ left m e q = (left m e p).dropWhile test
  := by
  induction n generalizing p with
  | zero => omega
  | succ n ih =>
      rw [skipWhile]
      split
      case isTrue hlt =>
        rw [peek_of_lt hlt, left_of_lt hlt, Option.bind_eq_bind, Option.bind_some]
        cases htest : test (m p) with
        | true =>
            obtain ⟨q, hq, hpq, hqe, hleft⟩ := ih (p := p + 1) hlt (by omega)
            rw [if_pos rfl, hq, List.dropWhile_cons_of_pos htest]
            exact ⟨q, rfl, Nat.le_of_succ_le hpq, hqe, hleft⟩
        | false =>
            rw [if_neg Bool.false_ne_true, List.dropWhile_cons_of_neg (by simp [htest])]
            exact ⟨p, rfl, le_rfl, hle, left_of_lt hlt⟩
      case isFalse hnot =>
        rw [left_of_le (Nat.le_of_not_lt hnot)]
        exact ⟨p, rfl, le_rfl, hle, left_of_le (Nat.le_of_not_lt hnot)⟩

theorem skipByte_eq (d : UInt8) (hle : p ≤ e) :
  ∃ q, skipByte d m e p = some q ∧ p ≤ q ∧ q ≤ e ∧ left m e q = dropByte d (left m e p)
  := by
  rw [skipByte]
  split
  case isTrue hlt =>
    rw [peek_of_lt hlt, left_of_lt hlt, Option.bind_eq_bind, Option.bind_some, dropByte]
    split
    case isTrue => exact ⟨p + 1, rfl, Nat.le_succ p, hlt, rfl⟩
    case isFalse => exact ⟨p, rfl, le_rfl, hle, left_of_lt hlt⟩
  case isFalse hnot =>
    rw [left_of_le (Nat.le_of_not_lt hnot)]
    exact ⟨p, rfl, le_rfl, hle, left_of_le (Nat.le_of_not_lt hnot)⟩

theorem readSize_eq (size : UInt32) (hasDigits : Bool) (hle : p ≤ e) (hn : e - p < n) :
  readSize m e n p size hasDigits
    = some (p + ((left m e p).takeWhile isHex).length, hexWord size ((left m e p).takeWhile isHex),
        hasDigits || !((left m e p).takeWhile isHex).isEmpty)
  := by
  induction n generalizing p size hasDigits with
  | zero => omega
  | succ n ih =>
      rw [readSize]
      split
      case isTrue hlt =>
        rw [peek_of_lt hlt, left_of_lt hlt, Option.bind_eq_bind, Option.bind_some]
        cases hvalue : hexValue (m p) with
        | none =>
            have hhex : ¬ isHex (m p) = true := by
              rw [isHex, hvalue]
              exact Bool.false_ne_true
            rw [List.takeWhile_cons_of_neg hhex]
            simp [hexWord]
        | some v =>
            have hhex : isHex (m p) = true := by
              rw [isHex, hvalue]
              rfl
            dsimp only
            rw [ih _ _ hlt (by omega), List.takeWhile_cons_of_pos hhex, List.length_cons, hexWord, hvalue]
            simp [Nat.add_assoc, Nat.add_comm 1]
      case isFalse hnot =>
        rw [left_of_le (Nat.le_of_not_lt hnot)]
        simp [hexWord]

end

/-- The data of a chunk arrive below the position that has been read. -/
theorem moveChunk_eq {m : Memory} {e dst src n : Nat} (hle : src + n ≤ e) (h : dst ≤ src) :
  ∃ m', moveChunk m e dst src n = some m' ∧ m'.read dst n = m.read src n
    ∧ (∀ x, x < dst ∨ dst + n ≤ x → m' x = m x)
  := by
  rw [moveChunk, if_pos ⟨hle, h⟩]
  refine ⟨_, rfl, ?_⟩
  by_cases heq : dst = src
  · subst heq
    rw [if_neg (by simp)]
    exact ⟨rfl, fun _ _ => rfl⟩
  · have hlt : dst < src := by omega
    rw [if_pos heq]
    exact m.memmove_down n hlt

/-! ### The loop over the chunks -/

section

variable {m : Memory} {e src dst : Nat}

/-- The bytes left do not change when others do. -/
theorem left_congr {m' : Memory} {p : Nat} (h : ∀ x, p ≤ x → m' x = m x) :
  left m' e p = left m e p
  := by
  apply Memory.read_congr
  intro i _
  apply h
  exact Nat.le_add_right p i

/-- The number of bytes that are moved: as many as there are, or as the size says. -/
theorem toNat_toCopy {k : Nat} (size : UInt32) (h : k < 2 ^ 32) :
  (if UInt32.ofNat k < size then UInt32.ofNat k else size).toNat = min size.toNat k
  := by
  have hk : (UInt32.ofNat k).toNat = k := UInt32.toNat_ofNat_of_lt' h
  split
  case isTrue hlt =>
    rw [UInt32.lt_iff_toNat_lt, hk] at hlt
    rw [hk, min_eq_right hlt.le]
  case isFalse hnot =>
    rw [UInt32.lt_iff_toNat_lt, hk] at hnot
    rw [min_eq_left (Nat.le_of_not_lt hnot)]

/-- A round of the loop ends it when there is no chunk, and otherwise moves the data of the next one
down. -/
theorem unchunkLoop_succ (n : Nat) (hlt : src < e) (hdst : dst ≤ src) (hsize : e - src < 2 ^ 32) :
  (nextChunk (left m e src) = none
      ∧ ∃ src', unchunkLoop e (n + 1) m src dst = some (m, src', dst) ∧ src ≤ src')
    ∨ ∃ data m' src', nextChunk (left m e src) = some (data, left m' e src')
      ∧ unchunkLoop e (n + 1) m src dst = unchunkLoop e n m' src' (dst + data.length)
      ∧ src' ≤ e ∧ src < src' ∧ dst + data.length ≤ src' ∧ m'.read dst data.length = data
      ∧ ∀ x, x < dst ∨ dst + data.length ≤ x → m' x = m x
  := by
  obtain ⟨p₁, h₁, hle₁, he₁, hleft₁⟩ := skipWhile_eq isBlank (m := m) hlt.le (n := e + 1) (by omega)
  have hread := readSize_eq (m := m) (n := e + 1) 0 false he₁ (by omega)
  have hdigits : ((left m e p₁).takeWhile isHex).length ≤ e - p₁ := by
    rw [← length_left m e p₁]
    exact (List.takeWhile_sublist isHex).length_le
  obtain ⟨p₂, h₂, hle₂, he₂, hleft₂⟩ := skipWhile_eq (· ≠ lf) (m := m) (n := e + 1)
    (p := p₁ + ((left m e p₁).takeWhile isHex).length) (e := e) (by omega) (by omega)
  obtain ⟨p₃, h₃, hle₃, he₃, hleft₃⟩ := skipByte_eq (m := m) lf he₂
  have hnext : nextChunk (left m e src)
      = if (left m e p₁).takeWhile isHex = [] ∨ (hexWord 0 ((left m e p₁).takeWhile isHex)).toNat = 0
          then none
        else some ((left m e p₃).take (hexWord 0 ((left m e p₁).takeWhile isHex)).toNat,
          dropByte lf (dropByte cr
            ((left m e p₃).drop (hexWord 0 ((left m e p₁).takeWhile isHex)).toNat))) := by
    rw [nextChunk, ← hleft₁, left_drop, ← hleft₂, ← hleft₃]
  rw [unchunkLoop, if_pos hlt]
  simp only [Option.bind_eq_bind]
  rw [h₁, Option.bind_some]
  by_cases hend : e ≤ p₁
  · -- only blanks are left
    left
    rw [if_pos hend, hnext, left_of_le hend]
    exact ⟨if_pos (Or.inl rfl), p₁, rfl, hle₁⟩
  rw [if_neg hend, hread, Option.bind_some]
  generalize (left m e p₁).takeWhile isHex = digits at *
  generalize hexWord 0 digits = size at *
  dsimp only
  by_cases hnil : digits = []
  · left
    rw [hnext, hnil]
    exact ⟨if_pos (Or.inl rfl), _, rfl, hle₁.trans (Nat.le_add_right _ _)⟩
  have hsome : (!(false || !digits.isEmpty)) = false := by simpa using hnil
  rw [hsome, if_neg Bool.false_ne_true, h₂, Option.bind_some, h₃, Option.bind_some]
  have hpos := List.length_pos_iff.mpr hnil
  by_cases hzero : size = 0
  · -- the last chunk
    left
    rw [if_pos hzero, hnext, hzero]
    exact ⟨if_pos (Or.inr rfl), p₃, rfl, by omega⟩
  right
  have hcopy := toNat_toCopy size (k := e - p₃) (by omega)
  rw [if_neg hzero]
  generalize (if UInt32.ofNat (e - p₃) < size then UInt32.ofNat (e - p₃) else size) = toCopy at *
  obtain ⟨m', hmove, hdata, hframe⟩ := @moveChunk_eq m e dst p₃ toCopy.toNat (by omega) (by omega)
  obtain ⟨p₄, h₄, hle₄, he₄, hleft₄⟩ := skipByte_eq (m := m') (p := p₃ + toCopy.toNat) (e := e) cr (by omega)
  obtain ⟨p₅, h₅, hle₅, he₅, hleft₅⟩ := skipByte_eq (m := m') lf he₄
  have hsame : left m' e (p₃ + toCopy.toNat) = (left m e p₃).drop size.toNat := by
    rw [left_drop, left_congr (fun x hx => hframe x (Or.inr (by omega)))]
    by_cases hcut : e - p₃ ≤ size.toNat
    · rw [left_of_le (by omega), left_of_le (by omega)]
    · rw [hcopy, min_eq_left (by omega)]
  have htaken : (left m e p₃).take size.toNat = m.read p₃ toCopy.toNat := by
    rw [left, Memory.read_take, hcopy]
  have hnot : ¬ (digits = [] ∨ size.toNat = 0) := by
    rintro (h | h)
    · exact hnil h
    · exact hzero (UInt32.toNat_inj.mp h)
  rw [hmove, Option.bind_some, h₄, Option.bind_some, h₅, Option.bind_some]
  refine ⟨m.read p₃ toCopy.toNat, m', p₅, ?_, ?_, he₅, ?_, ?_, ?_, ?_⟩
  · rw [hnext, if_neg hnot, htaken, hleft₅, hleft₄, hsame]
  · rw [Memory.length_read]
  · omega
  · rw [Memory.length_read]
    omega
  · rw [Memory.length_read, hdata]
  · rw [Memory.length_read]
    exact hframe

/-- The loop decodes what is left, to the position that has been written. -/
theorem unchunkLoop_eq {n : Nat} (hle : src ≤ e) (hdst : dst ≤ src) (hsize : e - src < 2 ^ 32)
    (hn : e - src < n) :
  ∃ m' src', unchunkLoop e n m src dst = some (m', src', dst + (unchunk (left m e src)).length)
    ∧ dst + (unchunk (left m e src)).length ≤ src'
    ∧ m'.read dst (unchunk (left m e src)).length = unchunk (left m e src)
    ∧ ∀ x, x < dst ∨ dst + (unchunk (left m e src)).length ≤ x → m' x = m x
  := by
  induction n generalizing m src dst with
  | zero => omega
  | succ n ih =>
      by_cases hlt : src < e
      · rcases unchunkLoop_succ (m := m) n hlt hdst hsize with
          ⟨hnone, src', hloop, hle'⟩ | ⟨data, m₁, src₁, hnext, hloop, he₁, hlt₁, hdst₁, hread₁, hframe₁⟩
        · rw [unchunk_none hnone, hloop]
          exact ⟨m, src', rfl, hdst.trans hle', rfl, fun _ _ => rfl⟩
        · obtain ⟨m₂, src₂, hloop₂, hdst₂, hread₂, hframe₂⟩ := ih he₁ hdst₁ (by omega) (by omega)
          rw [unchunk_some hnext, List.length_append, hloop, hloop₂, ← Nat.add_assoc]
          refine ⟨m₂, src₂, rfl, hdst₂, ?_, ?_⟩
          · have hkept : m₂.read dst data.length = m₁.read dst data.length := by
              apply Memory.read_congr
              intro i hi
              apply hframe₂
              omega
            rw [← Memory.read_append, hread₂, hkept, hread₁]
          · intro x hx
            rw [hframe₂ x (by omega), hframe₁ x (by omega)]
      · have hnil : unchunk (left m e src) = [] := by
          rw [left_of_le (Nat.le_of_not_lt hlt)]
          exact unchunk_none rfl
        rw [hnil, unchunkLoop, if_neg hlt]
        exact ⟨m, src, rfl, hdst, rfl, fun _ _ => rfl⟩

end

/-- `http_unchunk` decodes what `unchunk` decodes, ends it with a zero, and keeps all checks. -/
theorem httpUnchunk_eq (m : Memory) (body : Nat) (bodyLen : UInt32) :
  ∃ m', httpUnchunk m body bodyLen
      = some (UInt32.ofNat (unchunk (m.read body bodyLen.toNat)).length, m')
    ∧ m'.read body (unchunk (m.read body bodyLen.toNat)).length = unchunk (m.read body bodyLen.toNat)
    ∧ ∀ x, x < body ∨ body + bodyLen.toNat ≤ x → m' x = m x
  := by
  have hsize := bodyLen.toNat_lt
  rw [httpUnchunk]
  split
  case isTrue hzero =>
    have hnil : unchunk (m.read body bodyLen.toNat) = [] := by
      rw [hzero]
      exact unchunk_none rfl
    rw [hnil]
    exact ⟨m, rfl, rfl, fun _ _ => rfl⟩
  case isFalse hne =>
    have hpos : bodyLen.toNat ≠ 0 := by
      intro h
      exact hne (UInt32.toNat_inj.mp h)
    have hleft : left m (body + bodyLen.toNat) body = m.read body bodyLen.toNat := by
      rw [left, Nat.add_sub_cancel_left]
    have hlength : (unchunk (m.read body bodyLen.toNat)).length < bodyLen.toNat := by
      have hlt := length_unchunk_lt (l := m.read body bodyLen.toNat)
        (List.length_pos_iff.mp (by rw [Memory.length_read]; omega))
      rw [Memory.length_read] at hlt
      exact hlt
    obtain ⟨m', src, hloop, hdst, hread, hframe⟩ := unchunkLoop_eq (m := m)
      (e := body + bodyLen.toNat) (n := bodyLen.toNat + 1) (Nat.le_add_right _ _) (le_refl body)
      (by omega) (by omega)
    rw [hleft] at hloop hdst hread hframe
    dsimp only
    rw [hloop, Option.bind_eq_bind, Option.bind_some]
    dsimp only
    rw [if_pos hdst, Nat.add_sub_cancel_left]
    refine ⟨_, rfl, ?_, ?_⟩
    · apply Eq.trans _ hread
      apply Memory.read_congr
      intro i hi
      apply Function.update_of_ne
      omega
    · intro x hx
      rw [Function.update_of_ne (by omega)]
      apply hframe
      omega

/-- `http_unchunk` decodes every chunked body; and for all bytes it ends, reads none behind the body,
writes none ahead of those that have been read, nor any outside of the body, and returns at most
the length of the body. -/
theorem httpUnchunk_correct :
  (∀ (m : Memory) (body : Nat) (b : ChunkedBody), b.bytes.length < 2 ^ 32 →
    m.read body b.bytes.length = b.bytes →
    ∃ m', httpUnchunk m body (UInt32.ofNat b.bytes.length) = some (UInt32.ofNat b.data.length, m')
      ∧ m'.read body b.data.length = b.data)
    ∧ ∀ (m : Memory) (body : Nat) (bodyLen : UInt32), ∃ r m',
        httpUnchunk m body bodyLen = some (r, m') ∧ r ≤ bodyLen
          ∧ ∀ x, x < body ∨ body + bodyLen.toNat ≤ x → m' x = m x
  := by
  constructor
  · intro m body b hlt hread
    obtain ⟨m', heq, hdata, -⟩ := httpUnchunk_eq m body (UInt32.ofNat b.bytes.length)
    rw [UInt32.toNat_ofNat_of_lt' hlt, hread, unchunk_bytes b hlt] at heq hdata
    exact ⟨m', heq, hdata⟩
  · intro m body bodyLen
    obtain ⟨m', heq, -, hframe⟩ := httpUnchunk_eq m body bodyLen
    refine ⟨_, m', heq, ?_, hframe⟩
    have hle := length_unchunk_le (m.read body bodyLen.toNat)
    rw [Memory.length_read] at hle
    rw [UInt32.le_iff_toNat_le, UInt32.toNat_ofNat_of_lt' (hle.trans_lt bodyLen.toNat_lt)]
    exact hle

/-- The body `1;a`, `A`, `0` with an empty trailer. -/
def oneChunk : ChunkedBody where
  chunks :=
    [{ line := ⟨[49], [59, 97], by decide +kernel, by decide, by decide +kernel, by decide +kernel⟩
       data := [65]
       size := by decide
       ne_nil := by decide }]
  last := SizeLine.zero
  trailer := [13, 10]
  size := SizeLine.size_zero

/-- The case of that body. -/
theorem httpUnchunk_correct_one :
  ∃ m', httpUnchunk (Memory.write (fun _ => 0) 100 oneChunk.bytes) 100 13 = some (1, m')
    ∧ m'.read 100 1 = [65]
  := by
  apply httpUnchunk_correct.1 _ 100 oneChunk
  · decide
  · exact Memory.read_write _ 100 oneChunk.bytes

end Http
