import Woos.Lib.Calls
import Woos.Http.Body
import Woos.Http.Redirect

/-!
# Fetch and download

`net_http_fetch_single` and `net_http_download` as computations that make calls.  An environment answers
each call: it has one answer for each place of a call, and one for each round where this is in a loop.
`Held.step` follows the calls with what is held, the sockets, the blocks of the heap and the files; it
fails when something is used or released that is not held.
-/

namespace Http

/-! ### Calls -/

/-- The calls of the two functions: the resources that a call uses are its arguments. -/
inductive Op where
  | resolve
  | create
  | connect (sock : Int)
  | getState (sock : Int)
  | closeSocket (sock : Int)
  | send (sock : Int)
  | recv (sock : Int)
  | poll
  | yield
  /-- whether the time that `rdtsc` gives is over -/
  | elapsed
  | alloc
  | free (block : Int)
  | tlsReset (tls : Int)
  | tlsWrite (tls sock : Int)
  | tlsFlush (tls sock : Int)
  | tlsRead (tls sock : Int)
  | tlsClose (tls : Int)
  | openFile
  | writeFile (fd : Int)
  | closeFile (fd : Int)

/-- What a call returns, and the bytes that it has received. -/
structure Answer where
  value : Int
  data : List UInt8

/-- The bytes that have been received, as many as the call says. -/
def Answer.bytes (a : Answer) : List UInt8 := (List.range a.value.toNat).map (a.data.getD · 0)

/-- A call and its answer. -/
structure Event where
  op : Op
  answer : Answer

/-- The loops of the two functions. -/
inductive Loop where
  | wait
  | retry
  | send
  | receive
  | head
  | body

/-- The places of the calls that have an answer. -/
inductive Site where
  | resolve
  | create (n : Nat)
  | connect (n : Nat)
  | getState (n : Nat)
  | alloc (n : Nat)
  | tlsReset
  | tlsWrite
  | tlsFlush
  | openFile
  | round (l : Loop) (i j : Nat)
  | elapsed (l : Loop) (i j : Nat)

/-- An answer for each place. -/
abbrev Env := Site → Answer

/-- A call that is answered. -/
def ask (env : Env) (site : Site) (op : Op) : Calls Event Answer := do
  Calls.call ⟨op, env site⟩
  pure (env site)

/-- A call without an answer. -/
def tell (op : Op) : Calls Event Unit := Calls.call ⟨op, ⟨0, []⟩⟩

/-- `net_socket_get_state`, which answers by itself for a number that is not of a socket. -/
def getState (env : Env) (site : Site) (sock : Int) : Calls Event Int :=
  if sock < 0 then do
    Calls.call ⟨.getState sock, ⟨-1, []⟩⟩
    pure (-1)
  else do
    let state ← ask env site (.getState sock)
    pure state.value

/-! ### Connecting -/

/-- The loop that waits for a connection. -/
def awaitConnect (env : Env) (fuel : Nat) (l : Loop) (sock : Int) : Calls Event Unit :=
  Calls.loop (fun i => do
    let state ← getState env (.round l i 0) sock
    if state = 5 then do
      tell .poll
      let expired ← ask env (.elapsed l i 0) .elapsed
      if expired.value ≠ 0 then pure (.inr ()) else do
        tell .yield
        pure (.inl (i + 1))
    else pure (.inr ())) fuel 0

/-- The beginning of `net_http_fetch_single`: a socket that is being connected, and `is_https`. -/
def beginConnect (env : Env) (t : Target) : Calls Event (Option (Int × Bool)) := do
  let resolved ← ask env .resolve .resolve
  if resolved.value ≠ 0 then pure none else do
    let sock ← ask env (.create 0) .create
    if sock.value < 0 then pure none else do
      let connected ← ask env (.connect 0) (.connect sock.value)
      if connected.value ≠ 0 then do
        tell (.closeSocket sock.value)
        if t.hadScheme = false ∧ t.isHttps = true then do
          let sock ← ask env (.create 1) .create
          if sock.value < 0 then pure none else do
            let connected ← ask env (.connect 1) (.connect sock.value)
            if connected.value ≠ 0 then do
              tell (.closeSocket sock.value)
              pure none
            else pure (some (sock.value, false))
        else pure none
      else pure (some (sock.value, t.isHttps))

/-- The second connection of `net_http_fetch_single`, when the first one has not been made: the socket
and `is_https`. -/
def reconnect (env : Env) (fuel : Nat) (t : Target) (sock : Int) (isHttps : Bool) :
    Calls Event (Int × Bool) := do
  let state ← getState env (.getState 0) sock
  if state ≠ 3 then do
    tell (.closeSocket sock)
    if t.hadScheme = false ∧ isHttps = true then do
      let sock ← ask env (.create 2) .create
      if 0 ≤ sock.value then do
        let connected ← ask env (.connect 2) (.connect sock.value)
        if connected.value = 0 then do
          awaitConnect env fuel .retry sock.value
          pure (sock.value, false)
        else pure (sock.value, false)
      else pure (sock.value, false)
    else pure (sock, isHttps)
  else pure (sock, isHttps)

/-! ### The exchange -/

/-- Send the request with TLS: whether this fails. -/
def sendTls (env : Env) (tls sock : Int) : Calls Event Bool := do
  let written ← ask env .tlsWrite (.tlsWrite tls sock)
  if written.value ≠ 0 then pure true else do
    let flushed ← ask env .tlsFlush (.tlsFlush tls sock)
    pure (decide (flushed.value ≠ 0))

/-- The beginning of a TLS session: the session, when the request has been sent; otherwise all has been
released. -/
def startTls (env : Env) (req sock : Int) : Calls Event (Option Int) := do
  let tls ← ask env (.alloc 1) .alloc
  if tls.value = 0 then do
    tell (.free req)
    tell (.closeSocket sock)
    pure none
  else do
    let reset ← ask env .tlsReset (.tlsReset tls.value)
    if reset.value = 0 then do
      tell (.free req)
      tell (.free tls.value)
      tell (.closeSocket sock)
      pure none
    else do
      let failed ← sendTls env tls.value sock
      if failed then do
        tell (.free req)
        tell (.free tls.value)
        tell (.closeSocket sock)
        pure none
      else pure (some tls.value)

/-- The loop that sends a request without TLS. -/
def sendRequest (env : Env) (fuel : Nat) (sock : Int) (reqLen : UInt32) : Calls Event Unit :=
  Calls.loop (fun (i, sent) =>
    if sent < reqLen then do
      let s ← ask env (.round .send i 0) (.send sock)
      if 0 < s.value then pure (.inl (i + 1, sent + UInt32.ofNat s.value.toNat)) else do
        tell .poll
        let expired ← ask env (.elapsed .send i 0) .elapsed
        if expired.value ≠ 0 then pure (.inr ()) else do
          tell .yield
          pure (.inl (i + 1, sent))
    else pure (.inr ())) fuel (0, (0 : UInt32))

/-- The loop that receives a response with TLS. -/
def receiveTls (env : Env) (fuel : Nat) (tls sock : Int) (maxLen : Nat) : Calls Event (List UInt8) :=
  Calls.loop (fun (i, rx) =>
    if rx.length + 1 < maxLen then do
      let r ← ask env (.round .receive i 0) (.tlsRead tls sock)
      if 0 < r.value then
        if checkHttpResponseComplete (rx ++ r.bytes) then pure (.inr (rx ++ r.bytes))
        else pure (.inl (i + 1, rx ++ r.bytes))
      else pure (.inr rx)
    else pure (.inr rx)) fuel (0, [])

/-- The loop that receives a response without TLS. -/
def receivePlain (env : Env) (fuel : Nat) (sock : Int) (maxLen : Nat) : Calls Event (List UInt8) :=
  Calls.loop (fun (i, rx) =>
    if rx.length + 1 < maxLen then do
      let r ← ask env (.round .receive i 0) (.recv sock)
      if 0 < r.value then
        if checkHttpResponseComplete (rx ++ r.bytes) then pure (.inr (rx ++ r.bytes))
        else pure (.inl (i + 1, rx ++ r.bytes))
      else if r.value = 0 then pure (.inr rx)
      else do
        tell .poll
        let expired ← ask env (.elapsed .receive i 0) .elapsed
        if expired.value ≠ 0 then pure (.inr rx) else do
          tell .yield
          pure (.inl (i + 1, rx))
    else pure (.inr rx)) fuel (0, [])

/-- The exchange of `net_http_fetch_single` on a socket: the bytes received. -/
def exchange (env : Env) (fuel : Nat) (t : Target) (maxLen : Nat) (sock : Int) (isHttps : Bool) :
    Calls Event (Option (List UInt8)) := do
  let req ← ask env (.alloc 0) .alloc
  if req.value = 0 then do
    if 0 ≤ sock then do
      tell (.closeSocket sock)
      pure none
    else pure none
  else if isHttps then do
    match ← startTls env req.value sock with
    | none => pure none
    | some tls => do
        tell (.free req.value)
        let rx ← receiveTls env fuel tls sock maxLen
        tell (.tlsClose tls)
        tell (.free tls)
        tell (.closeSocket sock)
        pure (some rx)
  else do
    sendRequest env fuel sock (UInt32.ofNat (Sender.fetch.request t).length)
    tell (.free req.value)
    let rx ← receivePlain env fuel sock maxLen
    tell (.closeSocket sock)
    pure (some rx)

/-- `net_http_fetch_single` up to the bytes received, to which `handleResponse` makes no calls. -/
def fetchSingle (env : Env) (fuel : Nat) (url : List UInt8) (maxLen : UInt32) :
    Calls Event (Option (List UInt8)) :=
  if maxLen < 64 then pure none
  else
    match parseUrl hostSz url with
    | none => pure none
    | some t => do
        match ← beginConnect env t with
        | none => pure none
        | some (sock, isHttps) => do
            awaitConnect env fuel .wait sock
            let (sock, isHttps) ← reconnect env fuel t sock isHttps
            let state ← getState env (.getState 1) sock
            if state ≠ 3 then
              if 0 ≤ sock then do
                tell (.closeSocket sock)
                pure none
              else pure none
            else exchange env fuel t maxLen.toNat sock isHttps

/-! ### The download -/

/-- Receive with TLS, or without it until there are bytes or the connection has been closed or the
time is over. -/
def receiveSome (env : Env) (fuel : Nat) (l : Loop) (i : Nat) (tls : Option Int) (sock : Int) :
    Calls Event Answer :=
  match tls with
  | some tls => ask env (.round l i 0) (.tlsRead tls sock)
  | none =>
      Calls.loop (fun j => do
        let r ← ask env (.round l i j) (.recv sock)
        if 0 ≤ r.value then pure (.inr r) else do
          tell .poll
          let expired ← ask env (.elapsed l i j) .elapsed
          if expired.value ≠ 0 then pure (.inr ⟨-1, []⟩) else do
            tell .yield
            pure (.inl (j + 1))) fuel 0

/-- The loop that receives a head byte by byte: the head, when its end has been found. -/
def receiveHead (env : Env) (fuel : Nat) (tls : Option Int) (sock : Int) :
    Calls Event (Option (List UInt8)) :=
  Calls.loop (fun (i, hdr) =>
    if hdr.length + 1 < 2048 then do
      let r ← receiveSome env fuel .head i tls sock
      if r.value ≤ 0 then pure (.inr none) else do
        let hdr := hdr ++ [r.data.getD 0 0]
        if 4 ≤ hdr.length ∧ lastBytes 4 hdr = [cr, lf, cr, lf] then pure (.inr (some hdr))
        else pure (.inl (i + 1, hdr))
    else pure (.inr none)) fuel (0, [])

/-- `cl_val`, when `cl_found`. -/
def declaredLength (hdr : List UInt8) : Option UInt32 :=
  match findCaseHeader (contentLength ++ [58]) true (cstr hdr) with
  | none => none
  | some l =>
      let digits := (l.dropWhile isSpace).takeWhile isDigit
      if digits = [] then none else some (decimalWord 0 digits)

/-- The loop that writes the body to the file: `total_written`. -/
def receiveBody (env : Env) (fuel : Nat) (tls : Option Int) (sock fd : Int) (length : Option UInt32) :
    Calls Event UInt32 :=
  Calls.loop (fun (i, written) => do
    let r ← receiveSome env fuel .body i tls sock
    if r.value ≤ 0 then pure (.inr written) else do
      tell (.writeFile fd)
      let written := written + UInt32.ofNat r.value.toNat
      if length.any (· ≤ written) then pure (.inr written) else pure (.inl (i + 1, written)))
    fuel (0, (0 : UInt32))

/-- End the session, if there is one. -/
def closeTls (tls : Option Int) : Calls Event Unit :=
  match tls with
  | none => pure ()
  | some tls => do
      tell (.tlsClose tls)
      tell (.free tls)

/-- The end of `net_http_download`, when the request has been sent. -/
def saveResponse (env : Env) (fuel : Nat) (tls : Option Int) (sock : Int) :
    Calls Event (Option UInt32) := do
  let hdr ← ask env (.alloc 2) .alloc
  if hdr.value = 0 then do
    closeTls tls
    tell (.closeSocket sock)
    pure none
  else do
    match ← receiveHead env fuel tls sock with
    | none => do
        tell (.free hdr.value)
        closeTls tls
        tell (.closeSocket sock)
        pure none
    | some head => do
        let fd ← ask env .openFile .openFile
        if fd.value < 0 then do
          tell (.free hdr.value)
          closeTls tls
          tell (.closeSocket sock)
          pure none
        else do
          tell (.free hdr.value)
          let written ← receiveBody env fuel tls sock fd.value (declaredLength head)
          tell (.closeFile fd.value)
          closeTls tls
          tell (.closeSocket sock)
          pure (some written)

/-- `net_http_download` -/
def download (env : Env) (fuel : Nat) (url : List UInt8) : Calls Event (Option UInt32) :=
  match parseUrl hostSz url with
  | none => pure none
  | some t => do
      let resolved ← ask env .resolve .resolve
      if resolved.value ≠ 0 then pure none else do
        let sock ← ask env (.create 0) .create
        if sock.value < 0 then pure none else do
          let connected ← ask env (.connect 0) (.connect sock.value)
          if connected.value ≠ 0 then do
            tell (.closeSocket sock.value)
            pure none
          else do
            awaitConnect env fuel .wait sock.value
            let state ← getState env (.getState 0) sock.value
            if state ≠ 3 then do
              tell (.closeSocket sock.value)
              pure none
            else do
              let req ← ask env (.alloc 0) .alloc
              if req.value = 0 then do
                tell (.closeSocket sock.value)
                pure none
              else if t.isHttps then do
                match ← startTls env req.value sock.value with
                | none => pure none
                | some tls => do
                    tell (.free req.value)
                    saveResponse env fuel (some tls) sock.value
              else do
                sendRequest env fuel sock.value (UInt32.ofNat (Sender.download.request t).length)
                tell (.free req.value)
                saveResponse env fuel none sock.value

/-! ### What is held -/

/-- The resources that are held. -/
structure Held where
  sockets : List Int
  blocks : List Int
  files : List Int
  deriving DecidableEq

namespace Held

/-- Nothing is held. -/
def nothing : Held := ⟨[], [], []⟩

/-- What is held after a call: none when the call uses or releases a resource that is not held.  A
negative number is not one of a socket, and its state may be asked for. -/
def step : Option Held → Event → Option Held
  | none, _ => none
  | some h, ⟨op, answer⟩ =>
      match op with
      | .resolve | .poll | .yield | .elapsed => some h
      | .create => if answer.value < 0 then some h else some { h with sockets := answer.value :: h.sockets }
      | .getState sock => if sock < 0 ∨ sock ∈ h.sockets then some h else none
      | .connect sock | .send sock | .recv sock => if sock ∈ h.sockets then some h else none
      | .closeSocket sock =>
          if sock ∈ h.sockets then some { h with sockets := h.sockets.erase sock } else none
      | .alloc => if answer.value = 0 then some h else some { h with blocks := answer.value :: h.blocks }
      | .free block => if block ∈ h.blocks then some { h with blocks := h.blocks.erase block } else none
      | .tlsReset tls | .tlsClose tls => if tls ∈ h.blocks then some h else none
      | .tlsWrite tls sock | .tlsFlush tls sock | .tlsRead tls sock =>
          if tls ∈ h.blocks ∧ sock ∈ h.sockets then some h else none
      | .openFile => if answer.value < 0 then some h else some { h with files := answer.value :: h.files }
      | .writeFile fd => if fd ∈ h.files then some h else none
      | .closeFile fd => if fd ∈ h.files then some { h with files := h.files.erase fd } else none

end Held

/-- The calls use and release what is held, and in the end nothing is. -/
def Clean (es : List Event) : Prop := es.foldl Held.step (some Held.nothing) = some Held.nothing

/-- A connection is begun, with TLS or without. -/
def Begun (env : Env) (t : Target) (isHttps : Bool) : Prop :=
  (env .resolve).value = 0 ∧ 0 ≤ (env (.create 0)).value
    ∧ (((env (.connect 0)).value = 0 ∧ isHttps = t.isHttps)
      ∨ ((env (.connect 0)).value ≠ 0 ∧ t.hadScheme = false ∧ t.isHttps = true
        ∧ 0 ≤ (env (.create 1)).value ∧ (env (.connect 1)).value = 0 ∧ isHttps = false))

/-- A connection is begun, and is not there after the waiting; and there is no other one to be tried. -/
def Lost (env : Env) (t : Target) : Prop :=
  ∃ isHttps, Begun env t isHttps ∧ (env (.getState 0)).value ≠ 3
    ∧ ¬ (t.hadScheme = false ∧ isHttps = true)

/-- A fetch loses its connection so. -/
def FetchLost (env : Env) (url : List UInt8) (maxLen : UInt32) : Prop :=
  64 ≤ maxLen ∧ ∃ t, parseUrl hostSz url = some t ∧ Lost env t

/-! ### What the parts do to what is held -/

section

open Calls

variable {env : Env} {fuel : Nat} {r : Option Held} {h : Held} {α : Type}
  {Q : α → Option Held → Prop} {t : Target} {sock : Int}

theorem ask_bind {R : Type} {step : R → Event → R} {s : R} {P : α → R → Prop} {site : Site} {op : Op}
    {f : Answer → Calls Event α} (hrest : Ends step (step s ⟨op, env site⟩) (f (env site)) P) :
  Ends step s (ask env site op >>= f) P
  := by
  apply Ends.bind (P := fun a s' => a = env site ∧ s' = step s ⟨op, env site⟩)
  · exact Ends.call_bind (Ends.pure ⟨rfl, rfl⟩)
  · rintro a s' ⟨rfl, rfl⟩
    exact hrest

theorem tell_bind {R : Type} {step : R → Event → R} {s : R} {P : α → R → Prop} {op : Op}
    {f : Unit → Calls Event α} (hrest : Ends step (step s ⟨op, ⟨0, []⟩⟩) (f ()) P) :
  Ends step s (tell op >>= f) P
  := Ends.call_bind hrest

theorem getState_bind {site : Site} {f : Int → Calls Event α}
    (hsock : sock < 0 ∨ sock ∈ h.sockets)
    (hrest : Ends Held.step (some h) (f (if sock < 0 then -1 else (env site).value)) Q) :
  Ends Held.step (some h) (getState env site sock >>= f) Q
  := by
  have hstep (a : Answer) : Held.step (some h) ⟨.getState sock, a⟩ = some h := if_pos hsock
  apply Ends.bind (P := fun a r' => a = (if sock < 0 then -1 else (env site).value) ∧ r' = some h)
  · rw [getState]
    apply Ends.ite
    · intro hneg
      apply Ends.call_bind
      exact Ends.pure ⟨(if_pos hneg).symm, hstep _⟩
    · intro hpos
      apply ask_bind
      exact Ends.pure ⟨(if_neg hpos).symm, hstep _⟩
  · rintro a r' ⟨rfl, rfl⟩
    exact hrest

/-- A call that keeps what is held, when it is answered. -/
theorem ask_keep {site : Site} {op : Op} {f : Answer → Calls Event α}
    (hkeep : Held.step (some h) ⟨op, env site⟩ = some h)
    (hrest : Ends Held.step (some h) (f (env site)) Q) :
  Ends Held.step (some h) (ask env site op >>= f) Q
  := by
  apply ask_bind
  rw [hkeep]
  exact hrest

theorem step_connect (hsock : sock ∈ h.sockets) (a : Answer) :
  Held.step (some h) ⟨.connect sock, a⟩ = some h
  := if_pos hsock

theorem step_send (hsock : sock ∈ h.sockets) (a : Answer) :
  Held.step (some h) ⟨.send sock, a⟩ = some h
  := if_pos hsock

theorem step_recv (hsock : sock ∈ h.sockets) (a : Answer) :
  Held.step (some h) ⟨.recv sock, a⟩ = some h
  := if_pos hsock

theorem step_tlsReset {tls : Int} (htls : tls ∈ h.blocks) (a : Answer) :
  Held.step (some h) ⟨.tlsReset tls, a⟩ = some h
  := if_pos htls

theorem step_tlsWrite {tls : Int} (htls : tls ∈ h.blocks) (hsock : sock ∈ h.sockets) (a : Answer) :
  Held.step (some h) ⟨.tlsWrite tls sock, a⟩ = some h
  := if_pos ⟨htls, hsock⟩

theorem step_tlsFlush {tls : Int} (htls : tls ∈ h.blocks) (hsock : sock ∈ h.sockets) (a : Answer) :
  Held.step (some h) ⟨.tlsFlush tls sock, a⟩ = some h
  := if_pos ⟨htls, hsock⟩

theorem step_tlsRead {tls : Int} (htls : tls ∈ h.blocks) (hsock : sock ∈ h.sockets) (a : Answer) :
  Held.step (some h) ⟨.tlsRead tls sock, a⟩ = some h
  := if_pos ⟨htls, hsock⟩

/-- The end of a round that has no answer: the loop ends when the time is over, and goes on otherwise. -/
theorem poll_round {site : Site} {σ : Type} {a : α} {s : σ} {P : σ ⊕ α → Option Held → Prop}
    (hend : P (.inr a) (some h)) (hnext : P (.inl s) (some h)) :
  Ends Held.step (some h) (do
    tell .poll
    let expired ← ask env site .elapsed
    if expired.value ≠ 0 then pure (.inr a) else do
      tell .yield
      pure (.inl s)) P
  := by
  apply tell_bind
  apply ask_keep rfl
  apply Ends.ite
  · intro _
    exact Ends.pure hend
  · intro _
    apply tell_bind
    exact Ends.pure hnext

/-- Waiting keeps what is held. -/
theorem awaitConnect_ends (l : Loop) (hsock : sock ∈ h.sockets) :
  Ends Held.step (some h) (awaitConnect env fuel l sock) (fun _ r => r = some h)
  := by
  apply Ends.loop (I := fun _ r => r = some h)
  · rintro i r rfl
    apply getState_bind (Or.inr hsock)
    apply Ends.ite
    · intro _
      exact poll_round rfl rfl
    · intro _
      exact Ends.pure rfl
  · rfl

theorem sendRequest_ends (reqLen : UInt32) (hsock : sock ∈ h.sockets) :
  Ends Held.step (some h) (sendRequest env fuel sock reqLen) (fun _ r => r = some h)
  := by
  apply Ends.loop (I := fun _ r => r = some h)
  · rintro ⟨i, sent⟩ r rfl
    apply Ends.ite
    · intro _
      apply ask_keep (step_send hsock _)
      apply Ends.ite
      · intro _
        exact Ends.pure rfl
      · intro _
        exact poll_round rfl rfl
    · intro _
      exact Ends.pure rfl
  · rfl

theorem receiveTls_ends {tls : Int} (maxLen : Nat) (htls : tls ∈ h.blocks) (hsock : sock ∈ h.sockets) :
  Ends Held.step (some h) (receiveTls env fuel tls sock maxLen) (fun _ r => r = some h)
  := by
  apply Ends.loop (I := fun _ r => r = some h)
  · rintro ⟨i, rx⟩ r rfl
    apply Ends.ite
    · intro _
      apply ask_keep (step_tlsRead htls hsock _)
      apply Ends.ite
      · intro _
        apply Ends.ite
        · intro _
          exact Ends.pure rfl
        · intro _
          exact Ends.pure rfl
      · intro _
        exact Ends.pure rfl
    · intro _
      exact Ends.pure rfl
  · rfl

theorem receivePlain_ends (maxLen : Nat) (hsock : sock ∈ h.sockets) :
  Ends Held.step (some h) (receivePlain env fuel sock maxLen) (fun _ r => r = some h)
  := by
  apply Ends.loop (I := fun _ r => r = some h)
  · rintro ⟨i, rx⟩ r rfl
    apply Ends.ite
    · intro _
      apply ask_keep (step_recv hsock _)
      apply Ends.ite
      · intro _
        apply Ends.ite
        · intro _
          exact Ends.pure rfl
        · intro _
          exact Ends.pure rfl
      · intro _
        apply Ends.ite
        · intro _
          exact Ends.pure rfl
        · intro _
          exact poll_round rfl rfl
    · intro _
      exact Ends.pure rfl
  · rfl

theorem receiveSome_ends (l : Loop) (i : Nat) {tls : Option Int} (htls : ∀ p ∈ tls, p ∈ h.blocks)
    (hsock : sock ∈ h.sockets) :
  Ends Held.step (some h) (receiveSome env fuel l i tls sock) (fun _ r => r = some h)
  := by
  cases tls with
  | some p =>
      apply Ends.call_bind
      exact Ends.pure (if_pos ⟨htls p rfl, hsock⟩)
  | none =>
      apply Ends.loop (I := fun _ r => r = some h)
      · rintro j r rfl
        apply ask_keep (step_recv hsock _)
        apply Ends.ite
        · intro _
          exact Ends.pure rfl
        · intro _
          exact poll_round rfl rfl
      · rfl

theorem receiveHead_ends {tls : Option Int} (htls : ∀ p ∈ tls, p ∈ h.blocks)
    (hsock : sock ∈ h.sockets) :
  Ends Held.step (some h) (receiveHead env fuel tls sock) (fun _ r => r = some h)
  := by
  apply Ends.loop (I := fun _ r => r = some h)
  · rintro ⟨i, hdr⟩ r rfl
    apply Ends.ite
    · intro _
      apply Ends.bind (receiveSome_ends .head i htls hsock)
      rintro a r rfl
      apply Ends.ite
      · intro _
        exact Ends.pure rfl
      · intro _
        apply Ends.ite
        · intro _
          exact Ends.pure rfl
        · intro _
          exact Ends.pure rfl
    · intro _
      exact Ends.pure rfl
  · rfl

theorem receiveBody_ends {tls : Option Int} {fd : Int} (length : Option UInt32)
    (htls : ∀ p ∈ tls, p ∈ h.blocks) (hsock : sock ∈ h.sockets) (hfd : fd ∈ h.files) :
  Ends Held.step (some h) (receiveBody env fuel tls sock fd length) (fun _ r => r = some h)
  := by
  have hwrite : Held.step (some h) ⟨.writeFile fd, ⟨0, []⟩⟩ = some h := if_pos hfd
  apply Ends.loop (I := fun _ r => r = some h)
  · rintro ⟨i, written⟩ r rfl
    apply Ends.bind (receiveSome_ends .body i htls hsock)
    rintro a r rfl
    apply Ends.ite
    · intro _
      exact Ends.pure rfl
    · intro _
      apply tell_bind
      rw [hwrite]
      apply Ends.ite
      · intro _
        exact Ends.pure rfl
      · intro _
        exact Ends.pure rfl
  · rfl

/-! ### What the parts acquire and release -/

@[simp]
theorem step_closeSocket (sock : Int) (sockets blocks files : List Int) (a : Answer) :
  Held.step (some ⟨sock :: sockets, blocks, files⟩) ⟨.closeSocket sock, a⟩
    = some ⟨sockets, blocks, files⟩
  := by
  simp [Held.step]

@[simp]
theorem step_free (block : Int) (sockets blocks files : List Int) (a : Answer) :
  Held.step (some ⟨sockets, block :: blocks, files⟩) ⟨.free block, a⟩ = some ⟨sockets, blocks, files⟩
  := by
  simp [Held.step]

/-- The block below the top one is released. -/
@[simp]
theorem step_free_second (block tls : Int) (sockets files : List Int) (a : Answer) :
  Held.step (some ⟨sockets, [tls, block], files⟩) ⟨.free block, a⟩ = some ⟨sockets, [tls], files⟩
  := by
  by_cases heq : tls = block
  · simp [Held.step, heq]
  · simp [Held.step, heq]

@[simp]
theorem step_closeFile (fd : Int) (sockets blocks files : List Int) (a : Answer) :
  Held.step (some ⟨sockets, blocks, fd :: files⟩) ⟨.closeFile fd, a⟩ = some ⟨sockets, blocks, files⟩
  := by
  simp [Held.step]

@[simp]
theorem step_tlsClose (tls : Int) (sockets blocks files : List Int) (a : Answer) :
  Held.step (some ⟨sockets, tls :: blocks, files⟩) ⟨.tlsClose tls, a⟩
    = some ⟨sockets, tls :: blocks, files⟩
  := by
  simp [Held.step]

/-- What has been acquired, when a call has been answered so. -/
theorem step_create {a : Answer} (h : Held) (ha : ¬ a.value < 0) :
  Held.step (some h) ⟨.create, a⟩ = some { h with sockets := a.value :: h.sockets }
  := if_neg ha

theorem step_create_none {a : Answer} (h : Held) (ha : a.value < 0) :
  Held.step (some h) ⟨.create, a⟩ = some h
  := if_pos ha

theorem step_alloc {a : Answer} (h : Held) (ha : ¬ a.value = 0) :
  Held.step (some h) ⟨.alloc, a⟩ = some { h with blocks := a.value :: h.blocks }
  := if_neg ha

theorem step_alloc_none {a : Answer} (h : Held) (ha : a.value = 0) :
  Held.step (some h) ⟨.alloc, a⟩ = some h
  := if_pos ha

theorem step_openFile {a : Answer} (h : Held) (ha : ¬ a.value < 0) :
  Held.step (some h) ⟨.openFile, a⟩ = some { h with files := a.value :: h.files }
  := if_neg ha

theorem step_openFile_none {a : Answer} (h : Held) (ha : a.value < 0) :
  Held.step (some h) ⟨.openFile, a⟩ = some h
  := if_pos ha

theorem begun_unique {b b' : Bool} (h : Begun env t b) (h' : Begun env t b') :
  b = b'
  := by
  obtain ⟨-, -, ⟨hfirst, rfl⟩ | ⟨hfirst, -, -, -, -, rfl⟩⟩ := h
  · obtain ⟨-, -, ⟨-, rfl⟩ | ⟨hnot, -⟩⟩ := h'
    · rfl
    · exact absurd hfirst hnot
  · obtain ⟨-, -, ⟨hnot, -⟩ | ⟨-, -, -, -, -, rfl⟩⟩ := h'
    · exact absurd hnot hfirst
    · rfl

/-- A connection is begun, and its socket is held; or nothing is. -/
theorem beginConnect_ends :
  Ends Held.step (some Held.nothing) (beginConnect env t) (fun
    | none, r => r = some Held.nothing ∧ ∀ b, ¬ Begun env t b
    | some (sock, b), r => r = some ⟨[sock], [], []⟩ ∧ 0 ≤ sock ∧ Begun env t b)
  := by
  apply ask_keep rfl
  apply Ends.ite
  · intro hresolve
    exact Ends.pure ⟨rfl, fun b hbegun => hresolve hbegun.1⟩
  intro hresolve
  rw [not_not] at hresolve
  apply ask_bind
  apply Ends.ite
  · intro hcreate
    rw [step_create_none _ hcreate]
    exact Ends.pure ⟨rfl, fun b hbegun => absurd hbegun.2.1 (Int.not_le.mpr hcreate)⟩
  intro hcreate
  have hpos := Int.not_lt.mp hcreate
  rw [step_create _ hcreate]
  apply ask_keep (step_connect List.mem_cons_self _)
  apply Ends.ite
  · intro hconnect
    apply tell_bind
    rw [Held.nothing, step_closeSocket]
    apply Ends.ite
    · rintro ⟨hscheme, hhttps⟩
      have hnot (b : Bool) (hbegun : Begun env t b) :
          0 ≤ (env (.create 1)).value ∧ (env (.connect 1)).value = 0 := by
        obtain ⟨-, -, ⟨hfirst, -⟩ | ⟨-, -, -, hcreate', hconnect', -⟩⟩ := hbegun
        · exact absurd hfirst hconnect
        · exact ⟨hcreate', hconnect'⟩
      apply ask_bind
      apply Ends.ite
      · intro hcreate'
        rw [step_create_none _ hcreate']
        exact Ends.pure ⟨rfl, fun b hbegun => absurd (hnot b hbegun).1 (Int.not_le.mpr hcreate')⟩
      intro hcreate'
      rw [step_create _ hcreate']
      apply ask_keep (step_connect List.mem_cons_self _)
      apply Ends.ite
      · intro hconnect'
        apply tell_bind
        rw [step_closeSocket]
        exact Ends.pure ⟨rfl, fun b hbegun => hconnect' (hnot b hbegun).2⟩
      · intro hconnect'
        rw [not_not] at hconnect'
        have hpos' := Int.not_lt.mp hcreate'
        exact Ends.pure ⟨rfl, hpos', hresolve, hpos,
          Or.inr ⟨hconnect, hscheme, hhttps, hpos', hconnect', rfl⟩⟩
    · intro hnone
      apply Ends.pure
      use rfl
      rintro b ⟨-, -, ⟨hfirst, -⟩ | ⟨-, hscheme, hhttps, -⟩⟩
      · exact hconnect hfirst
      · exact hnone ⟨hscheme, hhttps⟩
  · intro hconnect
    rw [not_not] at hconnect
    exact Ends.pure ⟨rfl, hpos, hresolve, hpos, Or.inl ⟨hconnect, rfl⟩⟩

/-- The second connection is made, or the first one is kept; or the socket of the first one is closed and
there is no other. -/
theorem reconnect_ends (isHttps : Bool) (hpos : 0 ≤ sock) :
  Ends Held.step (some ⟨[sock], [], []⟩) (reconnect env fuel t sock isHttps) (fun p r =>
    if (env (.getState 0)).value ≠ 3 ∧ ¬ (t.hadScheme = false ∧ isHttps = true) then
      r = some Held.nothing ∧ p.1 = sock
    else r = some (if p.1 < 0 then Held.nothing else ⟨[p.1], [], []⟩))
  := by
  have hneg : ¬ sock < 0 := Int.not_lt.mpr hpos
  apply getState_bind (Or.inr List.mem_cons_self)
  rw [if_neg hneg]
  apply Ends.ite
  · intro hstate
    apply tell_bind
    rw [step_closeSocket]
    apply Ends.ite
    · intro htry
      have hlost : ¬ ((env (.getState 0)).value ≠ 3 ∧ ¬ (t.hadScheme = false ∧ isHttps = true)) :=
        fun hlost => hlost.2 htry
      simp only [if_neg hlost]
      apply ask_bind
      apply Ends.ite
      · intro hcreate
        have hnot := Int.not_lt.mpr hcreate
        rw [step_create _ hnot]
        apply ask_keep (step_connect List.mem_cons_self _)
        apply Ends.ite
        · intro _
          apply Ends.bind (awaitConnect_ends .retry List.mem_cons_self)
          rintro ⟨⟩ r rfl
          apply Ends.pure
          rw [if_neg hnot]
        · intro _
          apply Ends.pure
          rw [if_neg hnot]
      · intro hcreate
        have hlt := Int.not_le.mp hcreate
        rw [step_create_none _ hlt]
        apply Ends.pure
        rw [if_pos hlt]
        rfl
    · intro hnone
      apply Ends.pure
      rw [if_pos ⟨hstate, hnone⟩]
      exact ⟨rfl, rfl⟩
  · intro hstate
    apply Ends.pure
    rw [if_neg (fun hlost => hstate hlost.1), if_neg hneg]

theorem sendTls_ends {tls : Int} (htls : tls ∈ h.blocks) (hsock : sock ∈ h.sockets) :
  Ends Held.step (some h) (sendTls env tls sock) (fun _ r => r = some h)
  := by
  apply ask_keep (step_tlsWrite htls hsock _)
  apply Ends.ite
  · intro _
    exact Ends.pure rfl
  · intro _
    apply ask_keep (step_tlsFlush htls hsock _)
    exact Ends.pure rfl

/-- A session is there with its block; or all is released. -/
theorem startTls_ends (req : Int) :
  Ends Held.step (some ⟨[sock], [req], []⟩) (startTls env req sock) (fun
    | none, r => r = some Held.nothing
    | some tls, r => r = some ⟨[sock], [tls, req], []⟩)
  := by
  apply ask_bind
  apply Ends.ite
  · intro halloc
    rw [step_alloc_none _ halloc]
    apply tell_bind
    rw [step_free]
    apply tell_bind
    rw [step_closeSocket]
    exact Ends.pure rfl
  intro halloc
  rw [step_alloc _ halloc]
  -- after a failure all is released
  have hfail : Ends Held.step (some ⟨[sock], [(env (.alloc 1)).value, req], []⟩) (do
      tell (.free req)
      tell (.free (env (.alloc 1)).value)
      tell (.closeSocket sock)
      pure (none : Option Int)) (fun
        | none, r => r = some Held.nothing
        | some tls, r => r = some ⟨[sock], [tls, req], []⟩) := by
    apply tell_bind
    rw [step_free_second]
    apply tell_bind
    rw [step_free]
    apply tell_bind
    rw [step_closeSocket]
    exact Ends.pure rfl
  apply ask_keep (step_tlsReset List.mem_cons_self _)
  apply Ends.ite
  · intro _
    exact hfail
  intro _
  apply Ends.bind (sendTls_ends List.mem_cons_self List.mem_cons_self)
  rintro failed r rfl
  apply Ends.ite
  · intro _
    exact hfail
  · intro _
    exact Ends.pure rfl

/-- The exchange releases all. -/
theorem exchange_ends (maxLen : Nat) (isHttps : Bool) (hpos : 0 ≤ sock) :
  Ends Held.step (some ⟨[sock], [], []⟩) (exchange env fuel t maxLen sock isHttps)
    (fun _ r => r = some Held.nothing)
  := by
  apply ask_bind
  apply Ends.ite
  · intro halloc
    rw [step_alloc_none _ halloc, if_pos hpos]
    apply tell_bind
    rw [step_closeSocket]
    exact Ends.pure rfl
  intro halloc
  rw [step_alloc _ halloc]
  apply Ends.ite
  · intro _
    apply Ends.bind (startTls_ends _)
    rintro (_ | tls) r hr
    · exact Ends.pure hr
    · rw [hr]
      apply tell_bind
      rw [step_free_second]
      apply Ends.bind (receiveTls_ends maxLen List.mem_cons_self List.mem_cons_self)
      rintro rx r rfl
      apply tell_bind
      rw [step_tlsClose]
      apply tell_bind
      rw [step_free]
      apply tell_bind
      rw [step_closeSocket]
      exact Ends.pure rfl
  · intro _
    apply Ends.bind (sendRequest_ends _ List.mem_cons_self)
    rintro ⟨⟩ r rfl
    apply tell_bind
    rw [step_free]
    apply Ends.bind (receivePlain_ends maxLen List.mem_cons_self)
    rintro rx r rfl
    apply tell_bind
    rw [step_closeSocket]
    exact Ends.pure rfl

/-- The end of a session. -/
theorem closeTls_bind {tls : Option Int} {sockets files : List Int} {f : Unit → Calls Event α}
    (hrest : Ends Held.step (some ⟨sockets, [], files⟩) (f ()) Q) :
  Ends Held.step (some ⟨sockets, tls.toList, files⟩) (closeTls tls >>= f) Q
  := by
  apply Ends.bind (P := fun _ r => r = some ⟨sockets, [], files⟩)
  · cases tls with
    | none => exact Ends.pure rfl
    | some tls =>
        apply tell_bind
        rw [Option.toList_some, step_tlsClose]
        apply Ends.call
        rw [step_free]
  · rintro ⟨⟩ r rfl
    exact hrest

/-- The end of a download releases all. -/
theorem saveResponse_ends (tls : Option Int) :
  Ends Held.step (some ⟨[sock], tls.toList, []⟩) (saveResponse env fuel tls sock)
    (fun _ r => r = some Held.nothing)
  := by
  -- after the block of the head
  have hclose {β : Type} (b : β) : Ends Held.step (some ⟨[sock], tls.toList, []⟩) (do
      closeTls tls
      tell (.closeSocket sock)
      pure b) (fun _ r => r = some Held.nothing) := by
    apply closeTls_bind
    apply tell_bind
    rw [step_closeSocket]
    exact Ends.pure rfl
  have htls (block : Int) : ∀ p ∈ tls, p ∈ block :: tls.toList := by
    rintro p hp
    rw [Option.mem_def.mp hp]
    simp
  have htls' : ∀ p ∈ tls, p ∈ tls.toList := by
    rintro p hp
    rw [Option.mem_def.mp hp]
    simp
  apply ask_bind
  apply Ends.ite
  · intro halloc
    rw [step_alloc_none _ halloc]
    exact hclose none
  intro halloc
  rw [step_alloc _ halloc]
  apply Ends.bind (receiveHead_ends (htls _) List.mem_cons_self)
  rintro (_ | head) r rfl
  · apply tell_bind
    rw [step_free]
    exact hclose none
  apply ask_bind
  apply Ends.ite
  · intro hopen
    rw [step_openFile_none _ hopen]
    apply tell_bind
    rw [step_free]
    exact hclose none
  intro hopen
  rw [step_openFile _ hopen]
  apply tell_bind
  rw [step_free]
  apply Ends.bind (receiveBody_ends _ htls' List.mem_cons_self List.mem_cons_self)
  rintro written r rfl
  apply tell_bind
  rw [step_closeFile]
  exact hclose (some written)

/-! ### The two functions -/

/-- The state of a socket that has been released must not be asked for. -/
theorem getState_released {site : Site} (hpos : 0 ≤ sock) (hsock : sock ∉ h.sockets) :
  Ends Held.step (some h) (getState env site sock) (fun _ r => r = none)
  := by
  have hneg : ¬ sock < 0 := Int.not_lt.mpr hpos
  rw [getState, if_neg hneg]
  apply ask_bind
  apply Ends.pure
  apply if_neg
  rintro (hlt | hmem)
  · exact hneg hlt
  · exact hsock hmem

/-- A fetch that returns has released all, and used nothing that it has released, unless it loses its
connection. -/
theorem fetchSingle_ends (url : List UInt8) (maxLen : UInt32) :
  Ends Held.step (some Held.nothing) (fetchSingle env fuel url maxLen)
    (fun _ r => r = some Held.nothing ↔ ¬ FetchLost env url maxLen)
  := by
  apply Ends.ite
  · intro hshort
    apply Ends.pure
    apply iff_of_true rfl
    rintro ⟨hlong, -⟩
    exact UInt32.not_le.mpr hshort hlong
  intro hlong
  have hlost (t : Target) (ht : parseUrl hostSz url = some t) :
      FetchLost env url maxLen ↔ Lost env t := by
    constructor
    · rintro ⟨-, t', ht', hlost⟩
      rw [ht] at ht'
      rw [Option.some.inj ht']
      exact hlost
    · intro hlost
      exact ⟨UInt32.not_lt.mp hlong, t, ht, hlost⟩
  cases hparse : parseUrl hostSz url with
  | none =>
      apply Ends.pure
      apply iff_of_true rfl
      rintro ⟨-, t, ht, -⟩
      rw [hparse] at ht
      cases ht
  | some t =>
      rw [hlost t hparse]
      apply Ends.bind beginConnect_ends
      rintro (_ | ⟨sock, b⟩) r hr
      · apply Ends.pure
        rw [hr.1]
        apply iff_of_true rfl
        rintro ⟨b, hbegun, -⟩
        exact hr.2 b hbegun
      obtain ⟨rfl, hpos, hbegun⟩ := hr
      apply Ends.bind (awaitConnect_ends .wait List.mem_cons_self)
      rintro ⟨⟩ r rfl
      apply Ends.bind (reconnect_ends b hpos)
      rintro ⟨sock', b'⟩ r hr
      by_cases hcase : (env (.getState 0)).value ≠ 3 ∧ ¬ (t.hadScheme = false ∧ b = true)
      · -- the socket has been closed, and its state is asked for
        rw [if_pos hcase] at hr
        obtain ⟨rfl, rfl⟩ := hr
        apply Ends.bind (getState_released hpos List.not_mem_nil)
        rintro state r rfl
        apply (Ends.of_absorbing (fun _ => rfl) _).mono
        rintro a r rfl
        apply iff_of_false
        · intro hnone
          cases hnone
        · exact not_not.mpr ⟨b, hbegun, hcase⟩
      · have hkept : ¬ Lost env t := by
          rintro ⟨b'', hbegun', hcase'⟩
          rw [begun_unique hbegun' hbegun] at hcase'
          exact hcase hcase'
        have hdone (r : Option Held) (hr : r = some Held.nothing) :
            r = some Held.nothing ↔ ¬ Lost env t := iff_of_true hr hkept
        rw [if_neg hcase] at hr
        dsimp only at hr ⊢
        by_cases hneg : sock' < 0
        · rw [if_pos hneg] at hr
          rw [hr]
          apply getState_bind (Or.inl hneg)
          rw [if_pos hneg, if_pos (by decide), if_neg (Int.not_le.mpr hneg)]
          exact Ends.pure (hdone _ rfl)
        · rw [if_neg hneg] at hr
          rw [hr]
          have hpos' := Int.not_lt.mp hneg
          apply getState_bind (Or.inr List.mem_cons_self)
          rw [if_neg hneg]
          apply Ends.ite
          · intro _
            rw [if_pos hpos']
            apply tell_bind
            rw [step_closeSocket]
            exact Ends.pure (hdone _ rfl)
          · intro _
            apply (exchange_ends maxLen.toNat b' hpos').mono
            intro _ r hr
            exact hdone r hr

/-- A download that returns has released all, and used nothing that it has released. -/
theorem download_ends (url : List UInt8) :
  Ends Held.step (some Held.nothing) (download env fuel url) (fun _ r => r = some Held.nothing)
  := by
  rw [download]
  cases parseUrl hostSz url with
  | none => exact Ends.pure rfl
  | some t =>
      apply ask_keep rfl
      apply Ends.ite
      · intro _
        exact Ends.pure rfl
      intro _
      apply ask_bind
      apply Ends.ite
      · intro hcreate
        rw [step_create_none _ hcreate]
        exact Ends.pure rfl
      intro hcreate
      rw [step_create _ hcreate]
      apply ask_keep (step_connect List.mem_cons_self _)
      apply Ends.ite
      · intro _
        apply tell_bind
        rw [Held.nothing, step_closeSocket]
        exact Ends.pure rfl
      intro _
      apply Ends.bind (awaitConnect_ends .wait List.mem_cons_self)
      rintro ⟨⟩ r rfl
      apply getState_bind (Or.inr List.mem_cons_self)
      apply Ends.ite
      · intro _
        apply tell_bind
        rw [Held.nothing, step_closeSocket]
        exact Ends.pure rfl
      intro _
      apply ask_bind
      apply Ends.ite
      · intro halloc
        rw [step_alloc_none _ halloc]
        apply tell_bind
        rw [Held.nothing, step_closeSocket]
        exact Ends.pure rfl
      intro halloc
      rw [step_alloc _ halloc]
      apply Ends.ite
      · intro _
        apply Ends.bind (startTls_ends _)
        rintro (_ | tls) r hr
        · exact Ends.pure hr
        · rw [hr]
          apply tell_bind
          rw [step_free_second]
          exact saveResponse_ends (some tls)
      · intro _
        apply Ends.bind (sendRequest_ends _ List.mem_cons_self)
        rintro ⟨⟩ r rfl
        apply tell_bind
        rw [Held.nothing, step_free]
        exact saveResponse_ends none

end

/-- The calls of a download that returns are clean; those of a fetch that returns are, exactly when it
does not lose its connection. -/
theorem clean_iff (env : Env) (fuel : Nat) (url : List UInt8) :
  (∀ maxLen es a, fetchSingle env fuel url maxLen = some (es, a) →
      (Clean es ↔ ¬ FetchLost env url maxLen))
    ∧ ∀ es a, download env fuel url = some (es, a) → Clean es
  := by
  constructor
  · intro maxLen es a hfetch
    exact (fetchSingle_ends url maxLen).right es a hfetch
  · intro es a hdownload
    exact (download_ends url).right es a hdownload

/-- An environment in which a connection is begun, and is refused. -/
def refusing : Env
  | .getState _ | .round _ _ _ => ⟨4, []⟩
  | _ => ⟨0, []⟩

/-- The calls of a fetch in that environment. -/
def refusedCalls : List Event :=
  [⟨.resolve, ⟨0, []⟩⟩, ⟨.create, ⟨0, []⟩⟩, ⟨.connect 0, ⟨0, []⟩⟩, ⟨.getState 0, ⟨4, []⟩⟩,
    ⟨.getState 0, ⟨4, []⟩⟩, ⟨.closeSocket 0, ⟨0, []⟩⟩, ⟨.getState 0, ⟨4, []⟩⟩,
    ⟨.closeSocket 0, ⟨0, []⟩⟩]

/-- The case of these calls. -/
theorem clean_iff_refusing :
  Clean refusedCalls ↔ ¬ FetchLost refusing (text "http://a/") 64
  := by
  apply (clean_iff refusing 1 (text "http://a/")).1 64 _ none
  rfl

/-- The socket of a connection that is refused is closed twice. -/
theorem not_clean :
  fetchSingle refusing 1 (text "http://a/") 64 = some (refusedCalls, none) ∧ ¬ Clean refusedCalls
  := by
  use rfl
  rw [Clean]
  decide

end Http
