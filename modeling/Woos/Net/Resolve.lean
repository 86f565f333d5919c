import Woos.Lib.Run
import Mathlib.Data.List.InsertIdx
import Mathlib.Data.List.Nodup
import Mathlib.Logic.Function.Basic

/-!
# Resolving host names

`net_resolve_host` of `net.c` keeps the context of its request on its own stack and hands its
address to lwIP, which passes it to `dns_callback` when it answers the request or gives up.  A
`Resolver` is the state of all calls: the contexts in memory by their addresses, the calls, and the
requests that lwIP has not answered yet.  A call takes one step for the test of its loop and one for
the test of the time, and replies may arrive at any moment and in any order.

`Sound s` says that a pending request belongs to a call that waits for it, and that what a call has
found or returned was delivered for its own request.  `callbacks_live` shows that it holds after
every run in which no call times out while its request is pending.
-/

/-- `dns_query_ctx_t` -/
structure DnsQueryCtx where
  resolved : Bool
  failed : Bool
  addr : UInt32
  deriving DecidableEq

/-- `dns_callback`, as it changes the context. -/
def dnsCallback (ctx : DnsQueryCtx) : Option UInt32 → DnsQueryCtx
  | some ipaddr => { ctx with addr := ipaddr, resolved := true }
  | none => { ctx with failed := true }

/-- Where a call of `net_resolve_host` stands: before the test of its loop, before the test of the
time, or at its end, with the address it returns. -/
inductive Stage where
  | waiting
  | polled
  | returned (addr : Option UInt32)
  deriving DecidableEq

/-- A call of `net_resolve_host` and the address of its context. -/
structure ResolveCall where
  ctx : Nat
  stage : Stage

/-- The call has not returned yet. -/
def ResolveCall.Active (c : ResolveCall) : Prop := ∀ addr, c.stage ≠ .returned addr

instance (c : ResolveCall) : Decidable c.Active :=
  match h : c.stage with
  | .waiting => isTrue (fun addr hc => by rw [h] at hc; cases hc)
  | .polled => isTrue (fun addr hc => by rw [h] at hc; cases hc)
  | .returned addr => isFalse (fun hc => hc addr h)

/-- What a call finds before it waits: arguments that it refuses, a name that `ipaddr_aton` reads, or
the answer of `dns_gethostbyname`. -/
inductive Lookup where
  | refused
  | numeric (addr : UInt32)
  | found (addr : UInt32)
  | error
  | inProgress

/-- The contexts in memory, the calls in the order in which they began, and the pending requests of
lwIP, each with the number of its call and the argument of its callback.  `answers` are the addresses
delivered for the request of a call, and `strays` counts the callbacks that wrote to something else
than the context of a call that had not returned; both are ghost state. -/
structure Resolver where
  frames : Nat → DnsQueryCtx
  calls : List ResolveCall
  pending : List (Nat × Nat)
  answers : List (Nat × UInt32)
  strays : Nat

namespace Resolver

/-- No call has been made. -/
def init (frames : Nat → DnsQueryCtx) : Resolver := ⟨frames, [], [], [], 0⟩

/-- The next call of `net_resolve_host`, up to its loop, with its context at `ctx`. -/
def netResolveHost (s : Resolver) (ctx : Nat) : Lookup → Resolver
  | .refused => { s with calls := s.calls ++ [⟨ctx, .returned none⟩] }
  | .numeric addr =>
      { s with
        calls := s.calls ++ [⟨ctx, .returned (some addr)⟩]
        answers := (s.calls.length, addr) :: s.answers }
  | .found addr =>
      { s with
        frames := Function.update s.frames ctx ⟨false, false, 0⟩
        calls := s.calls ++ [⟨ctx, .returned (some addr)⟩]
        answers := (s.calls.length, addr) :: s.answers }
  | .error =>
      { s with
        frames := Function.update s.frames ctx ⟨false, false, 0⟩
        calls := s.calls ++ [⟨ctx, .returned none⟩] }
  | .inProgress =>
      { s with
        frames := Function.update s.frames ctx ⟨false, false, 0⟩
        calls := s.calls ++ [⟨ctx, .waiting⟩]
        pending := s.pending ++ [(s.calls.length, ctx)] }

/-- A call comes to another stage. -/
def setStage (s : Resolver) (i : Nat) (c : ResolveCall) (stage : Stage) : Resolver :=
  { s with calls := s.calls.set i { c with stage := stage } }

/-- Some call that has not returned has its context at the address. -/
def Live (s : Resolver) (ctx : Nat) : Prop := ∃ c ∈ s.calls, c.Active ∧ c.ctx = ctx

instance (s : Resolver) (ctx : Nat) : Decidable (s.Live ctx) :=
  inferInstanceAs (Decidable (∃ c ∈ s.calls, c.Active ∧ c.ctx = ctx))

/-- A new call, the test of the loop of a call, its test of the time, the reply to a pending request,
and a write to memory elsewhere. -/
inductive Step where
  | call (ctx : Nat) (lookup : Lookup)
  | test (i : Nat)
  | time (i : Nat) (expired : Bool)
  | reply (k : Nat) (ipaddr : Option UInt32)
  | write (addr : Nat) (value : DnsQueryCtx)

/-- The test of the loop of `net_resolve_host`, and its end. -/
def test (s : Resolver) (i : Nat) (c : ResolveCall) : Resolver :=
  if (s.frames c.ctx).resolved then
    s.setStage i c (.returned (some (s.frames c.ctx).addr))
  else if (s.frames c.ctx).failed then
    s.setStage i c (.returned none)
  else
    s.setStage i c .polled

/-- Execute a step. -/
def step (s : Resolver) : Step → Option Resolver
  | .call ctx lookup => some (s.netResolveHost ctx lookup)
  | .test i =>
      match s.calls[i]? with
      | some c => if c.stage = .waiting then some (s.test i c) else none
      | none => none
  | .time i expired =>
      match s.calls[i]? with
      | some c =>
          if c.stage = .polled then
            some (s.setStage i c (if expired then .returned none else .waiting))
          else
            none
      | none => none
  | .reply k ipaddr =>
      match s.pending[k]? with
      | some (i, arg) =>
          some { s with
            frames := Function.update s.frames arg (dnsCallback (s.frames arg) ipaddr)
            pending := s.pending.eraseIdx k
            answers := ipaddr.elim s.answers (fun addr => (i, addr) :: s.answers)
            strays := if s.Live arg then s.strays else s.strays + 1 }
      | none => none
  | .write addr value => some { s with frames := Function.update s.frames addr value }

/-- The contexts of calls that have not returned are apart from each other, and only `dns_callback`
and their own call write to them. -/
def Permitted (s : Resolver) : Step → Prop
  | .call ctx _ => ¬ s.Live ctx
  | .write addr _ => ¬ s.Live addr
  | _ => True

/-- No call times out while its request is pending. -/
def Patient (s : Resolver) : Step → Prop
  | .time i expired => expired → i ∉ s.pending.map Prod.fst
  | _ => True

/-- Every callback wrote to the context of a call that had not returned, and an address that a call
returns was delivered for its own request. -/
structure CallbacksLive (s : Resolver) : Prop where
  strays : s.strays = 0
  returned : ∀ (i : Nat) (c : ResolveCall) (addr : UInt32), s.calls[i]? = some c
    → c.stage = .returned (some addr) → (i, addr) ∈ s.answers

/-- Every pending request is that of a call that waits for it and has not been answered, and what a
call has found or returned was delivered for its request. -/
structure Sound (s : Resolver) : Prop extends CallbacksLive s where
  apart : ∀ (i j : Nat) (c d : ResolveCall), s.calls[i]? = some c → s.calls[j]? = some d → c.Active → d.Active
    → c.ctx = d.ctx → i = j
  pending : ∀ p ∈ s.pending, ∃ c, s.calls[p.1]? = some c ∧ c.Active ∧ c.ctx = p.2
  once : (s.pending.map Prod.fst).Nodup
  answered : ∀ (i : Nat) (c : ResolveCall), s.calls[i]? = some c → c.Active
    → (s.frames c.ctx).resolved ∨ (s.frames c.ctx).failed → i ∉ s.pending.map Prod.fst
  resolved : ∀ (i : Nat) (c : ResolveCall), s.calls[i]? = some c → c.Active → (s.frames c.ctx).resolved
    → (i, (s.frames c.ctx).addr) ∈ s.answers

theorem init_sound (frames : Nat → DnsQueryCtx) :
  (init frames).Sound
  where
  strays := rfl
  returned := by simp [init]
  apart := by simp [init]
  pending := by simp [init]
  once := List.nodup_nil
  answered := by simp [init]
  resolved := by simp [init]

/-! ### The steps -/

variable {s : Resolver}

theorem live_of_getElem? {i : Nat} {c : ResolveCall} (h : s.calls[i]? = some c) (hc : c.Active) :
  s.Live c.ctx
  := ⟨c, List.mem_of_getElem? h, hc, rfl⟩

/-- The call of a pending request has begun. -/
theorem Sound.pending_lt (hs : s.Sound) {p : Nat × Nat} (hp : p ∈ s.pending) :
  p.1 < s.calls.length
  := by
  obtain ⟨c, hc, -⟩ := hs.pending p hp
  apply (List.getElem?_eq_some_iff.mp hc).1

/-- A call that comes to another stage: it does not return while its request is pending, and an
address that it returns was delivered for its request. -/
theorem Sound.setStage (hs : s.Sound) {i : Nat} {c : ResolveCall} (hc : s.calls[i]? = some c)
    (hactive : c.Active) {stage : Stage}
    (hstage : ∀ addr, stage = .returned addr → i ∉ s.pending.map Prod.fst)
    (haddr : ∀ addr, stage = .returned (some addr) → (i, addr) ∈ s.answers) :
  (s.setStage i c stage).Sound
  := by
  have hcases : ∀ j d, (s.setStage i c stage).calls[j]? = some d
      → (j = i ∧ d = { c with stage := stage }) ∨ s.calls[j]? = some d := by
    intro j d hd
    rcases eq_or_ne i j with rfl | hne
    · left
      have hlt := (List.getElem?_eq_some_iff.mp hc).1
      rw [Resolver.setStage, List.getElem?_set_self hlt] at hd
      cases hd
      exact ⟨rfl, rfl⟩
    · right
      rwa [Resolver.setStage, List.getElem?_set_ne hne] at hd
  -- an active call has the context that it had before
  have hbefore : ∀ (j : Nat) (d : ResolveCall), (s.setStage i c stage).calls[j]? = some d → d.Active
      → ∃ d', s.calls[j]? = some d' ∧ d'.Active ∧ d'.ctx = d.ctx := by
    intro j d hd hdactive
    rcases hcases j d hd with ⟨rfl, rfl⟩ | hsame
    · exact ⟨c, hc, hactive, rfl⟩
    · exact ⟨d, hsame, hdactive, rfl⟩
  constructor
  · constructor
    · exact hs.strays
    · intro j d addr hd hreturned
      rcases hcases j d hd with ⟨rfl, rfl⟩ | hsame
      · apply haddr addr hreturned
      · apply hs.returned j d addr hsame hreturned
  · intro j k d e hd he hdactive heactive hctx
    obtain ⟨d', hd', hda, hdctx⟩ := hbefore j d hd hdactive
    obtain ⟨e', he', hea, hectx⟩ := hbefore k e he heactive
    apply hs.apart j k d' e' hd' he' hda hea
    rw [hdctx, hectx, hctx]
  · intro p hp
    obtain ⟨d, hd, hdactive, hctx⟩ := hs.pending p hp
    rcases eq_or_ne i p.1 with heq | hne
    · rw [← heq] at hd
      rw [hc] at hd
      cases hd
      use { c with stage := stage }
      have hlt := (List.getElem?_eq_some_iff.mp hc).1
      rw [← heq, Resolver.setStage, List.getElem?_set_self hlt]
      refine ⟨rfl, ?_, hctx⟩
      intro addr hreturned
      apply hstage addr hreturned
      rw [heq]
      apply List.mem_map_of_mem hp
    · use d
      rw [Resolver.setStage, List.getElem?_set_ne hne]
      exact ⟨hd, hdactive, hctx⟩
  · exact hs.once
  · intro j d hd hdactive hfound
    obtain ⟨d', hd', hda, hdctx⟩ := hbefore j d hd hdactive
    apply hs.answered j d' hd' hda
    rw [hdctx]
    exact hfound
  · intro j d hd hdactive hfound
    obtain ⟨d', hd', hda, hdctx⟩ := hbefore j d hd hdactive
    have hmem := hs.resolved j d' hd' hda
    rw [hdctx] at hmem
    apply hmem hfound

/-- A change of the memory outside of the contexts of the calls that have not returned. -/
theorem Sound.write (hs : s.Sound) {addr : Nat} (haddr : ¬ s.Live addr) (value : DnsQueryCtx) :
  Sound { s with frames := Function.update s.frames addr value }
  := by
  have hframes : ∀ (i : Nat) (c : ResolveCall), s.calls[i]? = some c → c.Active
      → Function.update s.frames addr value c.ctx = s.frames c.ctx := by
    intro i c hc hactive
    apply Function.update_of_ne
    rintro rfl
    exact haddr (live_of_getElem? hc hactive)
  constructor
  · exact ⟨hs.strays, hs.returned⟩
  · exact hs.apart
  · exact hs.pending
  · exact hs.once
  · intro i c hc hactive hfound
    apply hs.answered i c hc hactive
    rwa [← hframes i c hc hactive]
  · intro i c hc hactive
    simp only [hframes i c hc hactive]
    apply hs.resolved i c hc hactive

/-- The calls after a new one. -/
theorem old_or_new {calls : List ResolveCall} {new c : ResolveCall} {i : Nat}
    (h : (calls ++ [new])[i]? = some c) :
  calls[i]? = some c ∨ (i = calls.length ∧ c = new)
  := by
  rcases Nat.lt_or_ge i calls.length with hlt | hge
  · left
    rwa [List.getElem?_append_left hlt] at h
  · right
    rw [List.getElem?_append_right hge] at h
    obtain ⟨hzero, hval⟩ := List.getElem?_eq_some_iff.mp h
    rw [List.length_singleton] at hzero
    rw [List.getElem_singleton] at hval
    use by omega
    exact hval.symm

/-- A call that returns at once. -/
theorem Sound.returns (hs : s.Sound) (ctx : Nat) (addr : Option UInt32) :
  Sound { s with
    calls := s.calls ++ [⟨ctx, .returned addr⟩]
    answers := addr.elim s.answers (fun addr => (s.calls.length, addr) :: s.answers) }
  := by
  have hactive : ∀ (i : Nat) (c : ResolveCall), (s.calls ++ [⟨ctx, .returned addr⟩])[i]? = some c → c.Active
      → s.calls[i]? = some c := by
    intro i c hc hactive
    rcases old_or_new hc with hsame | ⟨-, rfl⟩
    · exact hsame
    · exact absurd rfl (hactive addr)
  have hanswers : ∀ x ∈ s.answers,
      x ∈ addr.elim s.answers (fun addr => (s.calls.length, addr) :: s.answers) := by
    intro x hx
    cases addr with
    | none => exact hx
    | some a => exact List.mem_cons_of_mem _ hx
  constructor
  · constructor
    · exact hs.strays
    · intro i c a hc hreturned
      rcases old_or_new hc with hsame | ⟨rfl, rfl⟩
      · apply hanswers
        apply hs.returned i c a hsame hreturned
      · cases hreturned
        apply List.mem_cons_self
  · intro i j c d hc hd hca hda
    apply hs.apart i j c d (hactive i c hc hca) (hactive j d hd hda) hca hda
  · intro p hp
    obtain ⟨c, hc, hca, hctx⟩ := hs.pending p hp
    use c
    rw [List.getElem?_append_left (hs.pending_lt hp)]
    exact ⟨hc, hca, hctx⟩
  · exact hs.once
  · intro i c hc hca
    apply hs.answered i c (hactive i c hc hca) hca
  · intro i c hc hca hfound
    apply hanswers
    apply hs.resolved i c (hactive i c hc hca) hca hfound

/-- A call that waits for its request. -/
theorem Sound.begins (hs : s.Sound) {ctx : Nat} (hctx : ¬ s.Live ctx) :
  (s.netResolveHost ctx .inProgress).Sound
  := by
  have hs' := hs.write hctx ⟨false, false, 0⟩
  have hfresh : s.calls.length ∉ s.pending.map Prod.fst := by
    intro hmem
    obtain ⟨p, hp, heq⟩ := List.mem_map.mp hmem
    have hlt := hs.pending_lt hp
    omega
  have hframe : (s.netResolveHost ctx .inProgress).frames ctx = ⟨false, false, 0⟩ :=
    Function.update_self ctx _ s.frames
  constructor
  · constructor
    · exact hs.strays
    · intro i c addr hc hreturned
      rcases old_or_new hc with hsame | ⟨-, rfl⟩
      · apply hs.returned i c addr hsame hreturned
      · cases hreturned
  · intro i j c d hc hd hca hda heq
    rcases old_or_new hc with hc | ⟨rfl, rfl⟩
    · rcases old_or_new hd with hd | ⟨-, rfl⟩
      · apply hs.apart i j c d hc hd hca hda heq
      · exfalso
        apply hctx
        rw [← show c.ctx = ctx from heq]
        apply live_of_getElem? hc hca
    · rcases old_or_new hd with hd | ⟨rfl, -⟩
      · exfalso
        apply hctx
        rw [show ctx = d.ctx from heq]
        apply live_of_getElem? hd hda
      · rfl
  · intro p hp
    rcases List.mem_append.mp hp with hp | hp
    · obtain ⟨c, hc, hca, heq⟩ := hs.pending p hp
      use c
      rw [netResolveHost, List.getElem?_append_left (hs.pending_lt hp)]
      exact ⟨hc, hca, heq⟩
    · rw [List.mem_singleton] at hp
      subst hp
      use ⟨ctx, .waiting⟩
      constructor
      · simp only [netResolveHost]
        rw [List.getElem?_append_right (Nat.le_refl _), Nat.sub_self]
        rfl
      · constructor
        · intro addr hreturned
          cases hreturned
        · rfl
  · simp only [netResolveHost, List.map_append, List.map_singleton]
    rw [List.nodup_append]
    refine ⟨hs.once, List.nodup_singleton _, ?_⟩
    intro a ha b hb heq
    rw [List.mem_singleton] at hb
    subst heq hb
    exact hfresh ha
  · intro i c hc hca hfound hmem
    rcases old_or_new hc with hc | ⟨rfl, rfl⟩
    · simp only [netResolveHost, List.map_append, List.map_singleton, List.mem_append,
        List.mem_singleton] at hmem
      rcases hmem with hmem | rfl
      · apply hs'.answered i c hc hca hfound hmem
      · have hlt := (List.getElem?_eq_some_iff.mp hc).1
        omega
    · rw [hframe] at hfound
      simp at hfound
  · intro i c hc hca hfound
    rcases old_or_new hc with hc | ⟨rfl, rfl⟩
    · apply hs'.resolved i c hc hca hfound
    · rw [hframe] at hfound
      cases hfound

/-- A reply goes to the call that waits for it. -/
theorem Sound.reply (hs : s.Sound) {k i arg : Nat} (hk : s.pending[k]? = some (i, arg))
    (ipaddr : Option UInt32) :
  Sound { s with
    frames := Function.update s.frames arg (dnsCallback (s.frames arg) ipaddr)
    pending := s.pending.eraseIdx k
    answers := ipaddr.elim s.answers (fun addr => (i, addr) :: s.answers)
    strays := if s.Live arg then s.strays else s.strays + 1 }
  := by
  obtain ⟨c, hc, hactive, hctx⟩ := hs.pending (i, arg) (List.mem_of_getElem? hk)
  have hlive : s.Live arg := ⟨c, List.mem_of_getElem? hc, hactive, hctx⟩
  have hsub : (s.pending.eraseIdx k).Sublist s.pending := List.eraseIdx_sublist _ _
  have hgone : i ∉ (s.pending.eraseIdx k).map Prod.fst := by
    rw [← List.eraseIdx_map]
    intro hmem
    obtain ⟨j, hj, hne⟩ := List.mem_eraseIdx_iff_getElem?.mp hmem
    have hki : (s.pending.map Prod.fst)[k]? = some i := by rw [List.getElem?_map, hk]; rfl
    apply hj
    apply (List.getElem?_inj (List.getElem?_eq_some_iff.mp hne).1 hs.once).mp
    rw [hne, hki]
  have hanswers : ∀ x ∈ s.answers, x ∈ ipaddr.elim s.answers (fun addr => (i, addr) :: s.answers) := by
    intro x hx
    cases ipaddr with
    | none => exact hx
    | some a => exact List.mem_cons_of_mem _ hx
  -- only the context of call `i` is at `arg`
  have hother : ∀ (j : Nat) (d : ResolveCall), s.calls[j]? = some d → d.Active → j ≠ i
      → Function.update s.frames arg (dnsCallback (s.frames arg) ipaddr) d.ctx = s.frames d.ctx := by
    intro j d hd hda hne
    apply Function.update_of_ne
    intro heq
    apply hne
    apply hs.apart j i d c hd hc hda hactive
    rw [heq, hctx]
  constructor
  · constructor
    · simp only [if_pos hlive]
      exact hs.strays
    · intro j d addr hd hreturned
      apply hanswers
      apply hs.returned j d addr hd hreturned
  · exact hs.apart
  · intro p hp
    apply hs.pending p (hsub.subset hp)
  · exact hs.once.sublist (hsub.map Prod.fst)
  · intro j d hd hda hfound hmem
    rcases eq_or_ne j i with rfl | hne
    · exact hgone hmem
    · simp only [hother j d hd hda hne] at hfound
      apply hs.answered j d hd hda hfound
      exact (hsub.map Prod.fst).subset hmem
  · intro j d hd hda hfound
    rcases eq_or_ne j i with rfl | hne
    · rw [hc] at hd
      cases hd
      rw [hctx] at hfound ⊢
      simp only [Function.update_self] at hfound ⊢
      cases ipaddr with
      | none =>
          have hmem := hs.resolved j c hc hactive
          rw [hctx] at hmem
          apply hmem hfound
      | some a => apply List.mem_cons_self
    · simp only [hother j d hd hda hne] at hfound ⊢
      apply hanswers
      apply hs.resolved j d hd hda hfound

theorem active_of_stage {c : ResolveCall} {stage : Stage} (h : c.stage = stage)
    (hstage : ∀ addr, stage ≠ .returned addr) :
  c.Active
  := by
  intro addr hreturned
  apply hstage addr
  rw [← h, hreturned]

/-- Every step keeps what is sound. -/
theorem step_sound {s' : Resolver} {c : Step} (hs : s.Sound) (hpermitted : s.Permitted c)
    (hpatient : s.Patient c) (h : s.step c = some s') :
  s'.Sound
  := by
  cases c with
  | call ctx lookup =>
      cases h
      cases lookup with
      | refused => exact hs.returns ctx none
      | numeric addr => exact hs.returns ctx (some addr)
      | found addr => exact (hs.write hpermitted ⟨false, false, 0⟩).returns ctx (some addr)
      | error => exact (hs.write hpermitted ⟨false, false, 0⟩).returns ctx none
      | inProgress => exact hs.begins hpermitted
  | test i =>
      cases hc : s.calls[i]? with
      | none => simp [step, hc] at h
      | some c =>
          by_cases hstage : c.stage = .waiting
          · simp only [step, hc, if_pos hstage, Option.some.injEq] at h
            have hactive : c.Active := active_of_stage hstage (by simp)
            rw [← h, test]
            split
            · rename_i hresolved
              apply hs.setStage hc hactive
              · intro addr _
                apply hs.answered i c hc hactive (Or.inl hresolved)
              · intro addr heq
                cases heq
                apply hs.resolved i c hc hactive hresolved
            · split
              · rename_i hfailed
                apply hs.setStage hc hactive
                · intro addr _
                  apply hs.answered i c hc hactive (Or.inr hfailed)
                · intro addr heq
                  cases heq
              · apply hs.setStage hc hactive
                · intro addr heq
                  cases heq
                · intro addr heq
                  cases heq
          · simp [step, hc, hstage] at h
  | time i expired =>
      cases hc : s.calls[i]? with
      | none => simp [step, hc] at h
      | some c =>
          by_cases hstage : c.stage = .polled
          · simp only [step, hc, if_pos hstage, Option.some.injEq] at h
            rw [← h]
            apply hs.setStage hc (active_of_stage hstage (by simp))
            · intro addr heq
              cases expired with
              | false => cases heq
              | true => exact hpatient rfl
            · intro addr heq
              cases expired with
              | false => cases heq
              | true => cases heq
          · simp [step, hc, hstage] at h
  | reply k ipaddr =>
      cases hk : s.pending[k]? with
      | none => simp [step, hk] at h
      | some p =>
          obtain ⟨i, arg⟩ := p
          simp only [step, hk, Option.some.injEq] at h
          rw [← h]
          exact hs.reply hk ipaddr
  | write addr value =>
      cases h
      exact hs.write hpermitted value

/-! ### Runs -/

/-- After every run in which no call times out while its request is pending, the callbacks were
live. -/
theorem callbacks_live
    (frames : Nat → DnsQueryCtx) (steps : List Step)
    (h : Run.Guarded step (fun s c => s.Permitted c ∧ s.Patient c) (init frames) steps)
    {s : Resolver} (hrun : Run.exec step (init frames) steps = some s) :
  s.CallbacksLive
  := by
  have hsound : s.Sound := by
    apply Run.exec_safe _ (init_sound frames) h hrun
    intro s c s' hs hc hstep
    apply step_sound hs hc.1 hc.2 hstep
  exact hsound.toCallbacksLive

/-- Memory without any context. -/
def blank : Nat → DnsQueryCtx := fun _ => ⟨false, false, 0⟩

/-- The case of two calls whose replies come in the other order. -/
theorem callbacks_live_two :
  ∃ s, Run.exec step (init blank)
      [.call 0 .inProgress, .call 1 .inProgress, .reply 1 (some 7), .test 1, .reply 0 none, .test 0]
      = some s ∧ s.CallbacksLive
  := by
  refine ⟨_, rfl, ?_⟩
  apply callbacks_live blank
    [.call 0 .inProgress, .call 1 .inProgress, .reply 1 (some 7), .test 1, .reply 0 none, .test 0] _ rfl
  have hfirst : ¬ (init blank).Live 0 := by decide
  refine ⟨⟨hfirst, trivial⟩, ?_⟩
  rintro _ ⟨⟩
  have hsecond : ¬ ((init blank).netResolveHost 0 .inProgress).Live 1 := by decide
  refine ⟨⟨hsecond, trivial⟩, ?_⟩
  intros
  refine ⟨⟨trivial, trivial⟩, ?_⟩
  intros
  refine ⟨⟨trivial, trivial⟩, ?_⟩
  intros
  refine ⟨⟨trivial, trivial⟩, ?_⟩
  intros
  refine ⟨⟨trivial, trivial⟩, ?_⟩
  intros
  trivial

/-- A call that times out, and the reply that comes after it. -/
def late : List Step := [.call 0 .inProgress, .test 0, .time 0 true, .reply 0 (some 7)]

/-- The late reply is written to the context of a call that has returned. -/
theorem not_live_late :
  Run.Guarded step Permitted (init blank) late
    ∧ ∃ s, Run.exec step (init blank) late = some s ∧ ¬ s.CallbacksLive
  := by
  constructor
  · have hfirst : ¬ (init blank).Live 0 := by decide
    refine ⟨hfirst, ?_⟩
    intros
    refine ⟨trivial, ?_⟩
    intros
    refine ⟨trivial, ?_⟩
    intros
    refine ⟨trivial, ?_⟩
    intros
    trivial
  · refine ⟨_, rfl, ?_⟩
    intro hlive
    have hstrays := hlive.strays
    revert hstrays
    decide

end Resolver
