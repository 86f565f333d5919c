import Woos.Http.Fetch
import Woos.Vfs.Files

/-!
# What a download saves

An observer follows the calls of `net_http_download` with the bytes of the head and of the body that it
has received, and the bytes of each call of `vfs_write`.  A write stores a beginning of its bytes; how
many each one stores is a parameter.  `SavesLaw` says that a count that is returned is right, and
`SavesWhen` when this is so: the result of a write is ignored, and a connection that ends early is taken
for the end of the body.
-/

namespace Http

/-! ### The file -/

/-- What is in the file when its writes store so many bytes each. -/
def keep (stored : Nat → Nat) : List (List UInt8) → List UInt8
  | [] => []
  | chunk :: chunks => chunk.take (stored 0) ++ keep (fun i => stored (i + 1)) chunks

theorem length_keep_le (stored : Nat → Nat) (chunks : List (List UInt8)) :
  (keep stored chunks).length ≤ chunks.flatten.length
  := by
  induction chunks generalizing stored with
  | nil => exact Nat.le_refl 0
  | cons chunk chunks ih =>
      rw [keep, List.flatten_cons, List.length_append, List.length_append, List.length_take]
      exact Nat.add_le_add (Nat.min_le_right _ _) (ih _)

/-- The file is whole when each of its writes is. -/
theorem keep_eq_flatten_iff (stored : Nat → Nat) (chunks : List (List UInt8)) :
  keep stored chunks = chunks.flatten
    ↔ ∀ i chunk, chunks[i]? = some chunk → chunk.length ≤ stored i
  := by
  induction chunks generalizing stored with
  | nil => simp [keep]
  | cons chunk chunks ih =>
      have hrest := length_keep_le (fun i => stored (i + 1)) chunks
      rw [keep, List.flatten_cons]
      constructor
      · intro heq
        have hlengths := congrArg List.length heq
        rw [List.length_append, List.length_append, List.length_take] at hlengths
        have hfirst : chunk.length ≤ stored 0 := by omega
        rw [List.take_of_length_le hfirst] at heq
        intro i c hc
        cases i with
        | zero =>
            rw [← Option.some.inj hc]
            exact hfirst
        | succ i => exact (ih _).mp (List.append_cancel_left heq) i c hc
      · intro hall
        rw [List.take_of_length_le (hall 0 chunk rfl), (ih _).mpr]
        intro i c hc
        exact hall (i + 1) c hc

/-! ### The transfer -/

/-- What has been received and written. -/
structure Transfer where
  /-- whether the file has been opened -/
  opened : Bool
  head : List UInt8
  body : List UInt8
  /-- the bytes received last -/
  got : List UInt8
  /-- the bytes of each write -/
  chunks : List (List UInt8)
  /-- whether nothing came of the last receive -/
  ended : Bool

namespace Transfer

/-- At the beginning. -/
def start : Transfer := ⟨false, [], [], [], [], false⟩

/-- A receive has been answered: one byte of the head, or bytes of the body. -/
def receive (t : Transfer) (a : Answer) : Transfer :=
  { t with
    head := if t.opened = false ∧ 0 < a.value then t.head ++ [a.data.getD 0 0] else t.head
    body := if t.opened then t.body ++ a.bytes else t.body
    got := a.bytes
    ended := decide (a.value ≤ 0) }

/-- A call has been answered. -/
def step (t : Transfer) : Event → Transfer
  | ⟨.recv _, a⟩ | ⟨.tlsRead _ _, a⟩ => t.receive a
  | ⟨.openFile, a⟩ => { t with opened := decide (0 ≤ a.value) }
  | ⟨.writeFile _, _⟩ => { t with chunks := t.chunks ++ [t.got] }
  | _ => t

/-- What is in the file. -/
def contents (t : Transfer) (stored : Nat → Nat) : List UInt8 := keep stored t.chunks

end Transfer

/-- The transfer of a run. -/
def transfer (es : List Event) : Transfer := es.foldl Transfer.step .start

/-! ### The law -/

/-- The number of the value of a field. -/
def fieldNumber (value : List UInt8) : Option Nat :=
  let digits := (value.dropWhile isSpace).takeWhile isDigit
  if digits = [] then none else some (decimal 0 digits)

/-- The length that a head gives: the number in the first of its lines for `Content-Length`. -/
def givenLength (head : List UInt8) : Option Nat :=
  match (head.splitOn lf).find? (hasPrefix (contentLength ++ [58])) with
  | none => none
  | some line => fieldNumber (line.drop (contentLength ++ [58]).length)

/-- What `net_http_download` returns. -/
def returned : Option UInt32 → Int32
  | none => -1
  | some n => n.toInt32

/-- A count that is returned is the length of the file, which is the beginning of the body; and the
body is not shorter than its head says. -/
def SavesLaw (stored : Nat → Nat) (t : Transfer) (res : Option UInt32) : Prop :=
  ∀ n : Nat, (returned res).toInt = n → t.contents stored = t.body.take n
    ∧ ∀ m, givenLength t.head = some m → m ≤ n

/-- When a download is right: each write stores all of its bytes, the length given is below 2 ^ 32, and
the connection does not end before as many bytes have come.  From 2 ^ 32 bytes on the count is that of
the bytes modulo 2 ^ 32. -/
def SavesWhen (stored : Nat → Nat) (t : Transfer) : Prop :=
  t.opened = true → t.body.length % 2 ^ 32 < 2 ^ 31 →
    (if t.body.length < 2 ^ 32 then
        ∀ i chunk, t.chunks[i]? = some chunk → chunk.length ≤ stored i
      else t.contents stored = t.body.take (t.body.length % 2 ^ 32))
    ∧ ∀ m, givenLength t.head = some m →
      m < 2 ^ 32 ∧ (t.ended = true → m ≤ t.body.length % 2 ^ 32)

/-! ### The length -/

/-- A byte that is neither a blank nor a digit ends the number. -/
theorem fieldNumber_append {c : UInt8} (hspace : isSpace c = false) (hdigit : isDigit c = false)
    (value rest : List UInt8) :
  fieldNumber (value ++ c :: rest) = fieldNumber value
  := by
  have hdigits (l : List UInt8) : (l ++ c :: rest).takeWhile isDigit = l.takeWhile isDigit := by
    induction l with
    | nil => simp [hdigit]
    | cons d l ih => simp [List.takeWhile_cons, ih]
  have hsame : ((value ++ c :: rest).dropWhile isSpace).takeWhile isDigit
      = (value.dropWhile isSpace).takeWhile isDigit := by
    induction value with
    | nil => simp [hspace, hdigit]
    | cons d value ih =>
        rw [List.cons_append, List.dropWhile_cons, List.dropWhile_cons]
        split
        · exact ih
        · exact hdigits (d :: value)
  rw [fieldNumber, fieldNumber, hsame]

section

variable {name : List UInt8}

/-- The end of a line is not a part of a name. -/
theorem hasPrefix_append (hname : lf ∉ name) (line rest : List UInt8) :
  hasPrefix name (line ++ lf :: rest) = hasPrefix name line
  := by
  rw [hasPrefix, hasPrefix, decide_eq_decide]
  by_cases hle : name.length ≤ line.length
  · rw [List.take_append_of_le_length hle]
  · apply iff_of_false
    · intro heq
      apply hname
      rw [← heq]
      apply List.mem_map.mpr
      use lf
      constructor
      · rw [List.take_append]
        apply List.mem_append_right
        obtain ⟨k, hk⟩ : ∃ k, name.length - line.length = k + 1 :=
          ⟨name.length - line.length - 1, by omega⟩
        rw [hk]
        exact List.mem_cons_self
      · rfl
    · intro heq
      have hlength := congrArg List.length heq
      rw [List.length_map, List.length_take] at hlength
      omega

theorem length_le_of_hasPrefix {l : List UInt8} (h : hasPrefix name l = true) :
  name.length ≤ l.length
  := by
  have hlength := congrArg List.length (of_decide_eq_true h)
  rw [List.length_map, List.length_take] at hlength
  omega

theorem hasPrefix_nil (hne : name ≠ []) :
  hasPrefix name [] = false
  := decide_eq_false (fun heq => hne (by rw [← heq]; simp))

/-- A line that does not begin with the name is skipped. -/
theorem findCaseHeader_line (hname : lf ∉ name) (hne : name ≠ []) {line : List UInt8}
    (hline : lf ∉ line) (rest : List UInt8) :
  findCaseHeader name true (line ++ lf :: rest)
    = if hasPrefix name line then some (line.drop name.length ++ lf :: rest)
      else findCaseHeader name true rest
  := by
  cases line with
  | nil =>
      have hnot := hasPrefix_append hname [] rest
      rw [List.nil_append, hasPrefix_nil hne] at hnot
      rw [List.nil_append, findCaseHeader, hnot, Bool.and_false, hasPrefix_nil hne]
      rfl
  | cons c line =>
      rw [findCaseHeader_true rest (List.cons_ne_nil c line) (fun d hd heq => hline (heq ▸ hd)),
        hasPrefix_append hname]
      split
      case isTrue hprefix =>
        rw [List.drop_append_of_le_length (length_le_of_hasPrefix hprefix)]
      case isFalse => rfl

/-- Behind its beginning a line is not compared. -/
theorem findCaseHeader_within {line : List UInt8} (hline : lf ∉ line) :
  findCaseHeader name false line = none
  := by
  induction line with
  | nil => rfl
  | cons c line ih =>
      have hne : decide (c = lf) = false := decide_eq_false (fun heq => hline (heq ▸ List.mem_cons_self))
      rw [findCaseHeader, Bool.false_and, if_neg Bool.false_ne_true, hne]
      exact ih (fun hmem => hline (List.mem_cons_of_mem c hmem))

theorem findCaseHeader_last (hne : name ≠ []) {line : List UInt8} (hline : lf ∉ line) :
  findCaseHeader name true line
    = if hasPrefix name line then some (line.drop name.length) else none
  := by
  cases line with
  | nil =>
      rw [hasPrefix_nil hne]
      rfl
  | cons c line =>
      have hc : decide (c = lf) = false := decide_eq_false (fun heq => hline (heq ▸ List.mem_cons_self))
      rw [findCaseHeader, Bool.true_and, hc,
        findCaseHeader_within (fun hmem => hline (List.mem_cons_of_mem c hmem))]

/-- The search of `find_case_header` finds the first line of the name. -/
theorem findCaseHeader_lines (hname : lf ∉ name) (hne : name ≠ []) (l : List UInt8) :
  match (l.splitOn lf).find? (hasPrefix name) with
  | none => findCaseHeader name true l = none
  | some line => ∃ rest, (rest = [] ∨ rest.head? = some lf)
      ∧ findCaseHeader name true l = some (line.drop name.length ++ rest)
  := by
  induction hn : l.length using Nat.strong_induction_on generalizing l with
  | _ n ih =>
      by_cases hmem : lf ∈ l
      · obtain ⟨line, rest, rfl, hline⟩ := List.eq_append_cons_of_mem hmem
        have hlt : rest.length < n := by
          rw [← hn, List.length_append, List.length_cons]
          omega
        have hrest := ih rest.length hlt rest rfl
        rw [List.splitOn_append_cons_self_of_not_mem hline, List.find?_cons,
          findCaseHeader_line hname hne hline]
        cases hasPrefix name line with
        | true => exact ⟨lf :: rest, Or.inr rfl, rfl⟩
        | false => exact hrest
      · rw [List.splitOn_eq_singleton hmem, findCaseHeader_last hne hmem, List.find?_cons]
        cases hasPrefix name l with
        | true => exact ⟨[], Or.inl rfl, by simp⟩
        | false => rfl

theorem length_le_of_findCaseHeader {l found : List UInt8} {start : Bool}
    (h : findCaseHeader name start l = some found) :
  name.length ≤ l.length
  := by
  induction l generalizing start with
  | nil => cases h
  | cons c l ih =>
      rw [findCaseHeader] at h
      split at h
      case isTrue hprefix => exact length_le_of_hasPrefix (Bool.and_eq_true_iff.mp hprefix).2
      case isFalse => exact (ih h).trans (Nat.le_succ _)

/-- What is found is found with more bytes behind. -/
theorem findCaseHeader_append {l found : List UInt8} {start : Bool}
    (h : findCaseHeader name start l = some found) (rest : List UInt8) :
  findCaseHeader name start (l ++ rest) = some (found ++ rest)
  := by
  induction l generalizing start with
  | nil => cases h
  | cons c l ih =>
      have hle := length_le_of_findCaseHeader h
      have hsame : hasPrefix name (c :: l ++ rest) = hasPrefix name (c :: l) := by
        rw [hasPrefix, hasPrefix, List.take_append_of_le_length hle]
      rw [findCaseHeader] at h
      rw [List.cons_append, findCaseHeader, ← List.cons_append, hsame]
      split at h
      case isTrue hprefix =>
        rw [if_pos hprefix, List.drop_append_of_le_length hle, Option.some.inj h]
      case isFalse hprefix =>
        rw [if_neg hprefix]
        exact ih h

end

/-- A string is followed by a zero, or by nothing. -/
theorem exists_cstr_append (l : List UInt8) :
  ∃ rest, (rest = [] ∨ rest.head? = some 0) ∧ l = cstr l ++ rest
  := by
  induction l with
  | nil => exact ⟨[], Or.inl rfl, rfl⟩
  | cons c l ih =>
      by_cases hc : c = 0
      · rw [hc]
        exact ⟨0 :: l, Or.inr rfl, rfl⟩
      · obtain ⟨rest, hrest, hl⟩ := ih
        use rest, hrest
        have hcons : cstr (c :: l) = c :: cstr l := by simp [cstr, hc]
        rw [hcons]
        exact congrArg (c :: ·) hl

/-- Bytes behind the line or the string do not change the number. -/
theorem fieldNumber_rest {c : UInt8} (hspace : isSpace c = false) (hdigit : isDigit c = false)
    (value : List UInt8) {rest : List UInt8} (h : rest = [] ∨ rest.head? = some c) :
  fieldNumber (value ++ rest) = fieldNumber value
  := by
  cases rest with
  | nil => rw [List.append_nil]
  | cons d rest =>
      obtain hnil | hd := h
      · cases hnil
      · rw [Option.some.inj hd, fieldNumber_append hspace hdigit]

/-- The length that the function reads is the one that the head gives, modulo 2 ^ 32. -/
theorem givenLength_of_declaredLength {head : List UInt8} {length : UInt32}
    (h : declaredLength head = some length) :
  ∃ m, givenLength head = some m ∧ length.toNat = m % 2 ^ 32
  := by
  have hname : lf ∉ contentLength ++ [58] := by decide +kernel
  have hne : contentLength ++ [58] ≠ [] := by simp
  rw [declaredLength] at h
  cases hfound : findCaseHeader (contentLength ++ [58]) true (cstr head) with
  | none =>
      rw [hfound] at h
      cases h
  | some value =>
      obtain ⟨rest, hrest, hhead⟩ := exists_cstr_append head
      have hwhole := findCaseHeader_append hfound rest
      rw [← hhead] at hwhole
      -- the number in the value that the function reads
      obtain ⟨m, hm, hlength⟩ : ∃ m, fieldNumber value = some m ∧ length.toNat = m % 2 ^ 32 := by
        rw [hfound] at h
        dsimp only at h
        rw [fieldNumber]
        split at h
        case isTrue => cases h
        case isFalse hdigits =>
          rw [if_neg hdigits, ← Option.some.inj h, toNat_decimalWord]
          exact ⟨_, rfl, rfl⟩
      use m
      refine ⟨?_, hlength⟩
      have hlines := findCaseHeader_lines hname hne head
      rw [givenLength]
      cases hline : (head.splitOn lf).find? (hasPrefix (contentLength ++ [58])) with
      | none =>
          rw [hline] at hlines
          rw [hlines] at hwhole
          cases hwhole
      | some line =>
          rw [hline] at hlines
          obtain ⟨rest', hrest', hlines⟩ := hlines
          rw [hlines] at hwhole
          rw [← hm, ← fieldNumber_rest rfl rfl value hrest, ← Option.some.inj hwhole,
            fieldNumber_rest rfl rfl _ hrest']

/-! ### The run -/

theorem length_bytes_answer (a : Answer) :
  a.bytes.length = a.value.toNat
  := by
  rw [Answer.bytes, List.length_map, List.length_range]

theorem bytes_of_le {a : Answer} (h : a.value ≤ 0) :
  a.bytes = []
  := List.eq_nil_of_length_eq_zero (by rw [length_bytes_answer, Int.toNat_of_nonpos h])

namespace Transfer

/-- The answer of a receive that has no bytes. -/
def nothing : Answer := ⟨-1, []⟩

/-- Receives that have no bytes are like one. -/
theorem receive_none {a : Answer} (h : a.value < 0) (t : Transfer) :
  t.receive a = t.receive nothing
  := by
  have hneg : ¬ 0 < a.value := by omega
  have hle : a.value ≤ 0 := by omega
  simp [receive, nothing, hneg, hle, Answer.bytes]

theorem receive_receive (a : Answer) (t : Transfer) :
  (t.receive nothing).receive a = t.receive a
  := by
  simp [receive, nothing, Answer.bytes]

end Transfer

section

open Calls

variable {env : Env} {fuel : Nat} {α : Type} {t : Transfer} {sock : Int}

/-- The end of a round that has no answer. -/
theorem poll_transfer {site : Site} {σ : Type} {a : α} {s : σ} {P : σ ⊕ α → Transfer → Prop}
    (hend : P (.inr a) t) (hnext : P (.inl s) t) :
  Ends Transfer.step t (do
    tell .poll
    let expired ← ask env site .elapsed
    if expired.value ≠ 0 then pure (.inr a) else do
      tell .yield
      pure (.inl s)) P
  := by
  apply tell_bind
  apply ask_bind
  apply Ends.ite
  · intro _
    exact Ends.pure hend
  · intro _
    apply tell_bind
    exact Ends.pure hnext

/-- Asking for the state of a socket receives nothing, opens nothing and writes nothing. -/
theorem getState_transfer (site : Site) :
  Ends Transfer.step t (getState env site sock) (fun _ t' => t' = t)
  := by
  apply Ends.ite
  · intro _
    apply Ends.call_bind
    exact Ends.pure rfl
  · intro _
    apply ask_bind
    exact Ends.pure rfl

theorem awaitConnect_transfer (l : Loop) :
  Ends Transfer.step t (awaitConnect env fuel l sock) (fun _ t' => t' = t)
  := by
  apply Ends.loop (I := fun _ t' => t' = t)
  · rintro i t' rfl
    apply Ends.bind (getState_transfer _)
    rintro state t'' rfl
    apply Ends.ite
    · intro _
      exact poll_transfer rfl rfl
    · intro _
      exact Ends.pure rfl
  · rfl

theorem sendRequest_transfer (reqLen : UInt32) :
  Ends Transfer.step t (sendRequest env fuel sock reqLen) (fun _ t' => t' = t)
  := by
  apply Ends.loop (I := fun _ t' => t' = t)
  · rintro ⟨i, sent⟩ t' rfl
    apply Ends.ite
    · intro _
      apply ask_bind
      apply Ends.ite
      · intro _
        exact Ends.pure rfl
      · intro _
        exact poll_transfer rfl rfl
    · intro _
      exact Ends.pure rfl
  · rfl

theorem sendTls_transfer (tls : Int) :
  Ends Transfer.step t (sendTls env tls sock) (fun _ t' => t' = t)
  := by
  apply ask_bind
  apply Ends.ite
  · intro _
    exact Ends.pure rfl
  · intro _
    apply ask_bind
    exact Ends.pure rfl

theorem startTls_transfer (req : Int) :
  Ends Transfer.step t (startTls env req sock) (fun _ t' => t' = t)
  := by
  apply ask_bind
  apply Ends.ite
  · intro _
    apply tell_bind
    apply tell_bind
    exact Ends.pure rfl
  intro _
  -- after a failure all is released
  have hfail (tls : Int) : Ends Transfer.step t (do
      tell (.free req)
      tell (.free tls)
      tell (.closeSocket sock)
      pure (none : Option Int)) (fun _ t' => t' = t) := by
    apply tell_bind
    apply tell_bind
    apply tell_bind
    exact Ends.pure rfl
  apply ask_bind
  apply Ends.ite
  · intro _
    exact hfail _
  intro _
  apply Ends.bind (sendTls_transfer _)
  rintro failed t' rfl
  apply Ends.ite
  · intro _
    exact hfail _
  · intro _
    exact Ends.pure rfl

theorem closeTls_transfer (tls : Option Int) :
  Ends Transfer.step t (closeTls tls) (fun _ t' => t' = t)
  := by
  cases tls with
  | none => exact Ends.pure rfl
  | some tls =>
      apply tell_bind
      exact Ends.call rfl

/-- A receive that has been answered, after others without an answer. -/
theorem receiveSome_transfer (l : Loop) (i : Nat) (tls : Option Int) :
  Ends Transfer.step t (receiveSome env fuel l i tls sock) (fun a t' => t' = t.receive a)
  := by
  cases tls with
  | some p =>
      apply Ends.call_bind
      exact Ends.pure rfl
  | none =>
      apply Ends.loop (I := fun _ t' => t' = t ∨ t' = t.receive Transfer.nothing)
      · intro j t' ht'
        have hreceive (a : Answer) : t'.receive a = t.receive a := by
          obtain rfl | rfl := ht'
          · rfl
          · exact Transfer.receive_receive a t
        apply ask_bind
        apply Ends.ite
        · intro _
          exact Ends.pure (hreceive _)
        · intro hneg
          have hnone := (hreceive _).trans (Transfer.receive_none (Int.not_le.mp hneg) t)
          exact poll_transfer hnone (Or.inr hnone)
      · exact Or.inl rfl

/-- The head has been received, and nothing else. -/
structure HeadOnly (head : List UInt8) (t : Transfer) : Prop where
  opened : t.opened = false
  head : t.head = head
  body : t.body = []
  chunks : t.chunks = []

theorem receiveHead_transfer (tls : Option Int) (ht : HeadOnly [] t) :
  Ends Transfer.step t (receiveHead env fuel tls sock) (fun
    | none, t' => t'.opened = false
    | some head, t' => HeadOnly head t')
  := by
  apply Ends.loop (I := fun p t' => HeadOnly p.2 t')
  · rintro ⟨i, head⟩ t' ht'
    apply Ends.ite
    · intro _
      apply Ends.bind (receiveSome_transfer .head i tls)
      rintro a t'' rfl
      apply Ends.ite
      · intro _
        exact Ends.pure ht'.opened
      · intro hpos
        have hnext : HeadOnly (head ++ [a.data.getD 0 0]) (t'.receive a) := by
          constructor
          · exact ht'.opened
          · simp [Transfer.receive, ht'.opened, ht'.head, Int.not_le.mp hpos]
          · simp [Transfer.receive, ht'.opened, ht'.body]
          · exact ht'.chunks
        apply Ends.ite
        · intro _
          exact Ends.pure hnext
        · intro _
          exact Ends.pure hnext
    · intro _
      exact Ends.pure ht'.opened
  · exact ht

/-- The file is open, and what has been received has been written and counted. -/
structure Counted (head : List UInt8) (written : UInt32) (t : Transfer) : Prop where
  opened : t.opened = true
  head : t.head = head
  written : written = UInt32.ofNat t.body.length
  flatten : t.chunks.flatten = t.body

/-- The loop over the body ends when nothing comes, or when there is as much as the head says. -/
theorem receiveBody_transfer {head : List UInt8} {fd : Int} (tls : Option Int)
    (length : Option UInt32) (ht : Counted head 0 t) :
  Ends Transfer.step t (receiveBody env fuel tls sock fd length) (fun written t' =>
    Counted head written t' ∧ (t'.ended = true ∨ ∃ n, length = some n ∧ n ≤ written))
  := by
  apply Ends.loop (I := fun p t' => Counted head p.2 t')
  · rintro ⟨i, written⟩ t' ht'
    apply Ends.bind (receiveSome_transfer .body i tls)
    rintro a t'' rfl
    apply Ends.ite
    · intro hle
      apply Ends.pure
      have hbody : (t'.receive a).body = t'.body := by
        simp [Transfer.receive, bytes_of_le hle]
      have hkept : Counted head written (t'.receive a) := by
        constructor
        · exact ht'.opened
        · simp [Transfer.receive, ht'.opened, ht'.head]
        · rw [hbody]
          exact ht'.written
        · rw [hbody]
          exact ht'.flatten
      exact ⟨hkept, Or.inl (decide_eq_true hle)⟩
    · intro hpos
      have hnext : Counted head (written + UInt32.ofNat a.value.toNat)
          (Transfer.step (t'.receive a) ⟨.writeFile fd, ⟨0, []⟩⟩) := by
        constructor
        · exact ht'.opened
        · simp [Transfer.step, Transfer.receive, ht'.opened, ht'.head]
        · have hwritten : written = UInt32.ofNat t'.body.length := ht'.written
          simp [Transfer.step, Transfer.receive, ht'.opened, hwritten, length_bytes_answer]
        · simp [Transfer.step, Transfer.receive, ht'.opened, ht'.flatten]
      apply tell_bind
      apply Ends.ite
      · intro hany
        apply Ends.pure
        cases length with
        | none => cases hany
        | some n => exact ⟨hnext, Or.inr ⟨n, rfl, of_decide_eq_true hany⟩⟩
      · intro _
        exact Ends.pure hnext
  · exact ht

/-- What a run has come to. -/
def Outcome (t : Transfer) : Option UInt32 → Prop
  | none => t.opened = false
  | some n => Counted t.head n t
      ∧ (t.ended = true ∨ ∃ length, declaredLength t.head = some length ∧ length ≤ n)

/-- The session and the socket are closed at the end. -/
theorem close_transfer (tls : Option Int) {res : Option UInt32} (ht : Outcome t res) :
  Ends Transfer.step t (do
    closeTls tls
    tell (.closeSocket sock)
    pure res) (fun res t' => Outcome t' res)
  := by
  apply Ends.bind (closeTls_transfer tls)
  rintro ⟨⟩ t' rfl
  apply tell_bind
  exact Ends.pure ht

theorem saveResponse_transfer (tls : Option Int) (ht : HeadOnly [] t) :
  Ends Transfer.step t (saveResponse env fuel tls sock) (fun res t' => Outcome t' res)
  := by
  apply ask_bind
  apply Ends.ite
  · intro _
    exact close_transfer tls ht.opened
  intro _
  apply Ends.bind (receiveHead_transfer tls ht)
  rintro (_ | head) t' ht'
  · apply tell_bind
    exact close_transfer tls ht'
  apply ask_bind
  apply Ends.ite
  · intro hneg
    have hclosed : (Transfer.step t' ⟨.openFile, env .openFile⟩).opened = false :=
      decide_eq_false (Int.not_le.mpr hneg)
    apply tell_bind
    exact close_transfer tls hclosed
  · intro hpos
    have hcounted : Counted head 0 (Transfer.step t' ⟨.openFile, env .openFile⟩) := by
      constructor
      · exact decide_eq_true (Int.not_lt.mp hpos)
      · exact ht'.head
      · simp [Transfer.step, ht'.body]
      · simp [Transfer.step, ht'.body, ht'.chunks]
    apply tell_bind
    apply Ends.bind (receiveBody_transfer tls (declaredLength head) hcounted)
    rintro written t'' ⟨hcounted, hended⟩
    have houtcome : Outcome t'' (some written) := by
      rw [Outcome, hcounted.head]
      exact ⟨hcounted, hended⟩
    apply tell_bind
    exact close_transfer tls houtcome

theorem download_transfer (url : List UInt8) :
  Ends Transfer.step .start (download env fuel url) (fun res t => Outcome t res)
  := by
  have hstart : HeadOnly [] Transfer.start := ⟨rfl, rfl, rfl, rfl⟩
  -- before the request has been sent
  have hfail (sock : Int) : Ends Transfer.step Transfer.start (do
      tell (.closeSocket sock)
      pure (none : Option UInt32)) (fun res t => Outcome t res) := by
    apply tell_bind
    exact Ends.pure rfl
  rw [download]
  cases parseUrl hostSz url with
  | none => exact Ends.pure rfl
  | some target =>
      apply ask_bind
      apply Ends.ite
      · intro _
        exact Ends.pure rfl
      intro _
      apply ask_bind
      apply Ends.ite
      · intro _
        exact Ends.pure rfl
      intro _
      apply ask_bind
      apply Ends.ite
      · intro _
        exact hfail _
      intro _
      apply Ends.bind (awaitConnect_transfer _)
      rintro ⟨⟩ t rfl
      apply Ends.bind (getState_transfer _)
      rintro state t rfl
      apply Ends.ite
      · intro _
        exact hfail _
      intro _
      apply ask_bind
      apply Ends.ite
      · intro _
        exact hfail _
      intro _
      apply Ends.ite
      · intro _
        apply Ends.bind (startTls_transfer _)
        rintro (_ | tls) t rfl
        · exact Ends.pure rfl
        · apply tell_bind
          exact saveResponse_transfer (some tls) hstart
      · intro _
        apply Ends.bind (sendRequest_transfer _)
        rintro ⟨⟩ t rfl
        apply tell_bind
        exact saveResponse_transfer none hstart

end

/-! ### The law and its condition -/

/-- A count is returned as it is when it is below 2 ^ 31, and as a negative number otherwise. -/
theorem returned_eq_iff (res : Option UInt32) (n : Nat) :
  (returned res).toInt = n ↔ ∃ count, res = some count ∧ count.toNat = n ∧ n < 2 ^ 31
  := by
  cases res with
  | none =>
      apply iff_of_false
      · intro hneg
        have hminus : (returned none).toInt = -1 := rfl
        omega
      · rintro ⟨count, hcount, -⟩
        cases hcount
  | some count =>
      have hvalue : (returned (some count)).toInt = count.toBitVec.toInt := rfl
      have hnat : count.toBitVec.toNat = count.toNat := rfl
      have hlt := count.toNat_lt
      rw [hvalue, BitVec.toInt_eq_toNat_cond, hnat]
      constructor
      · intro hn
        use count, rfl
        split at hn
        · omega
        · omega
      · rintro ⟨count', hsame, hn, hsmall⟩
        cases hsame
        rw [if_pos (by omega), hn]

/-- A download that has succeeded is right exactly under the condition. -/
theorem savesLaw_iff (stored : Nat → Nat) {t : Transfer} {res : Option UInt32} (h : Outcome t res) :
  SavesLaw stored t res ↔ SavesWhen stored t
  := by
  cases res with
  | none =>
      have hclosed : t.opened = false := h
      apply iff_of_true
      · intro n hn
        obtain ⟨count, hcount, -⟩ := (returned_eq_iff none n).mp hn
        cases hcount
      · intro hopened
        rw [hclosed] at hopened
        cases hopened
  | some count =>
      obtain ⟨hcounted, hended⟩ := h
      have hcount : count.toNat = t.body.length % 2 ^ 32 := by
        rw [hcounted.written, UInt32.toNat_ofNat']
      -- a loop that has not ended with the connection has received the length given
      have hgiven (m : Nat) (hm : givenLength t.head = some m) (hlt : m < 2 ^ 32)
          (hearly : t.ended = true → m ≤ t.body.length % 2 ^ 32) : m ≤ t.body.length % 2 ^ 32 := by
        obtain hend | ⟨length, hlength, hle⟩ := hended
        · exact hearly hend
        · obtain ⟨m', hm', hmod⟩ := givenLength_of_declaredLength hlength
          rw [hm] at hm'
          rw [← Option.some.inj hm', Nat.mod_eq_of_lt hlt] at hmod
          rw [← hmod, ← hcount]
          exact hle
      have hstored : t.body.length < 2 ^ 32 → (t.contents stored = t.body.take count.toNat
          ↔ ∀ i chunk, t.chunks[i]? = some chunk → chunk.length ≤ stored i) := by
        intro hlt
        rw [← keep_eq_flatten_iff, hcount, Nat.mod_eq_of_lt hlt, List.take_length, hcounted.flatten]
        rfl
      constructor
      · intro hlaw _ hsmall
        obtain ⟨hcontents, hlengths⟩ := hlaw count.toNat
          ((returned_eq_iff _ _).mpr ⟨count, rfl, rfl, by rw [hcount]; exact hsmall⟩)
        constructor
        · split
          case isTrue hlt => exact (hstored hlt).mp hcontents
          case isFalse =>
            rw [← hcount]
            exact hcontents
        · intro m hm
          have hle := hlengths m hm
          rw [hcount] at hle
          exact ⟨by omega, fun _ => hle⟩
      · intro hwhen n hn
        obtain ⟨count', hsame, rfl, hsmall⟩ := (returned_eq_iff _ _).mp hn
        cases hsame
        rw [hcount] at hsmall
        obtain ⟨hwrites, hlengths⟩ := hwhen hcounted.opened hsmall
        constructor
        · split at hwrites
          case isTrue hlt => exact (hstored hlt).mpr hwrites
          case isFalse =>
            rw [hcount]
            exact hwrites
        · intro m hm
          rw [hcount]
          obtain ⟨hlt, hearly⟩ := hlengths m hm
          exact hgiven m hm hlt hearly

/-- A run of `net_http_download` that returns a count leaves the file whole exactly under the
condition, whatever the server sends and the file system stores. -/
theorem saves_iff (env : Env) (fuel : Nat) (url : List UInt8) (stored : Nat → Nat) :
  ∀ es res, download env fuel url = some (es, res) →
    (SavesLaw stored (transfer es) res ↔ SavesWhen stored (transfer es))
  := by
  intro es res hdownload
  exact savesLaw_iff stored ((download_transfer url).right es res hdownload)

/-- The response that a server sends byte by byte. -/
def shortResponse : List UInt8 :=
  text "HTTP/1.1 200 OK" ++ [cr, lf] ++ text "Content-Length: 9" ++ [cr, lf, cr, lf]

/-- A server that sends two of nine bytes, and closes the connection. -/
def closing : Env
  | .getState _ => ⟨3, []⟩
  | .alloc _ => ⟨1, []⟩
  | .round .send _ _ => ⟨2048, []⟩
  | .round .head i _ => ⟨1, [shortResponse.getD i 0]⟩
  | .round .body 0 _ => ⟨2, text "ab"⟩
  | _ => ⟨0, []⟩

/-- The calls of the download from it. -/
def closingCalls : List Event :=
  match download closing 60 (text "http://a/") with
  | none => []
  | some (es, _) => es

set_option maxRecDepth 8000 in
theorem closing_eq :
  download closing 60 (text "http://a/") = some (closingCalls, some 2)
  := by rfl

theorem saves_iff_closing :
  SavesLaw id (transfer closingCalls) (some 2) ↔ SavesWhen id (transfer closingCalls)
  := saves_iff closing 60 (text "http://a/") id closingCalls (some 2) closing_eq

/-- The count of what has come is returned, although nine bytes have been announced. -/
theorem not_saves :
  ¬ ∀ env fuel url stored es res, download env fuel url = some (es, res) →
    SavesLaw stored (transfer es) res
  := by
  intro hall
  have hlaw := hall closing 60 (text "http://a/") id closingCalls (some 2) closing_eq 2 rfl
  have hgiven : givenLength (transfer closingCalls).head = some 9 := by decide +kernel
  have hle := hlaw.2 9 hgiven
  omega

end Http

/-! ### The file system -/

namespace Vfs

variable {V Fil Dir : Type} {B : Backend V Fil Dir} {fTruncate : V → Fil → UInt8 × V × Fil}
  {D : FatFs B fTruncate} {s : Vfs V Fil Dir} {h : Int32} {i : Fin maxHandles} {F : File}

/-- `vfs_write` for each chunk, with its result ignored. -/
def vfsWrites (B : Backend V Fil Dir) (h : Int32) (s : Vfs V Fil Dir) (chunks : List (List UInt8)) :
    Vfs V Fil Dir :=
  chunks.foldl (fun s chunk => (s.vfsWrite B h chunk).2) s

/-- At its end a file grows by what its writes store. -/
theorem vfsWrites_open {chunks : List (List UInt8)} (hopen : s.OpenFile D h i F)
    (hend : F.pos = F.contents.length) (hchunks : ∀ chunk ∈ chunks, chunk.length < 2 ^ 32) :
  ∃ stored G, (s.vfsWrites B h chunks).OpenFile D h i G
    ∧ G.contents = F.contents ++ Http.keep stored chunks
  := by
  induction chunks generalizing s F with
  | nil => exact ⟨id, F, hopen, (List.append_nil _).symm⟩
  | cons chunk chunks ih =>
      obtain ⟨s', G, hwrite, hopen', hG, -⟩ := vfsWrite_open hopen (hchunks chunk List.mem_cons_self)
      have hcontents : G.contents = F.contents ++ chunk.take (s.capacity D i F) := by
        rw [hG.contents, hend, List.take_length, List.drop_eq_nil_of_le (Nat.le_add_right _ _),
          List.append_nil]
      have hend' : G.pos = G.contents.length := by
        rw [hG.pos, hcontents, List.length_append, hend]
      obtain ⟨stored, H, hopen'', hH⟩ := ih hopen' hend'
        (fun c hc => hchunks c (List.mem_cons_of_mem chunk hc))
      refine ⟨fun j => Nat.casesOn j (s.capacity D i F) stored, H, ?_, ?_⟩
      · rw [vfsWrites, List.foldl_cons, hwrite]
        exact hopen''
      · rw [hH, hcontents, Http.keep, List.append_assoc]
        rfl

end Vfs
