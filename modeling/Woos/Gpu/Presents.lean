import Woos.Gpu.Sessions

/-!
# Presenting from several threads

Whatever the threads and the device do, in any order, as long as no thread gives up waiting, the
device has one session after the other (`run_sessions`), and while it has something to do no thread
touches what it reads (`run_stable`).  When every session comes to its end, the requests that the
device takes are those of the presentations, one presentation after the other (`run_presents`).
-/

namespace VirtioGpu

open Fb (GpuRequest)

variable {T : Type} {G : Fb.Gpu → Prop} {s s' : State T} {as : List (Action T)}
  {σ σ' : Option (Session T)}

/-! ### Runs -/

/-- No thread is in the call, the queue is quiet, and nothing has been seen. -/
structure State.Idle (s : State T) : Prop where
  lock : s.lock = false
  queue : s.queue.Quiet
  phases : ∀ t, s.phases t = .idle
  events : s.events = []

/-- The events are those of sessions. -/
def InSessions (G : Fb.Gpu → Prop) (s : State T) : Prop :=
  ∃ σ, Sessions G s.events σ ∧ Rel G s σ

theorem State.Idle.inSessions (h : s.Idle) :
  InSessions G s
  := by
  refine ⟨none, ?_, .free h.lock h.queue (fun t => ?_)⟩
  · rw [h.events]
    exact .nil
  · rw [h.phases t]
    exact .idle

theorem Sessions.follows (h : Sessions G s.events σ) (hfollows : Follows G s s' σ σ') :
  Sessions G s'.events σ'
  := by
  rcases hfollows with ⟨hsame, rfl⟩ | ⟨e, hseen, hmoves⟩
  · rw [hsame]
    exact h
  · rw [hseen]
    exact h.snoc hmoves

variable [DecidableEq T]

theorem InSessions.step (h : InSessions G s) (hgpu : G s.gpu) {a : Action T} (hpatient : Patient s a)
    (hstep : s.step a = some s') :
  InSessions G s'
  := by
  obtain ⟨σ, hes, hrel⟩ := h
  obtain ⟨σ', hfollows, hrel'⟩ := step_follows hgpu hrel hpatient hstep
  exact ⟨σ', hes.follows hfollows, hrel'⟩

theorem run_inSessions (hidle : s.Idle) (hguard : Run.Guarded State.step Patient s as)
    (hrun : Run.exec State.step s as = some s') :
  InSessions (fun _ => True) s'
  := by
  apply Run.exec_safe _ hidle.inSessions hguard hrun
  intro s a s' h hpatient hstep
  exact h.step trivial hpatient hstep

/-! ### Short runs -/

theorem thread_phases_of_ne {t t' : T} (hstep : s.thread t = some s') (hne : t' ≠ t) :
  s'.phases t' = s.phases t'
  := by
  simp only [State.thread] at hstep
  split at hstep
  all_goals try split_ifs at hstep
  all_goals cases hstep
  all_goals first | rfl | exact State.goto_phases_of_ne _ _ hne

/-- The rounds that a thread has waited. -/
def Phase.rounds : Phase → Nat
  | .wait _ _ spin => spin
  | _ => 0

theorem Phase.Outside.rounds_eq_zero {phase : Phase} (h : phase.Outside) :
  phase.rounds = 0
  := by
  cases h <;> rfl

/-- A step adds at most one round. -/
theorem thread_rounds {t : T} (hstep : s.thread t = some s') (t' : T) :
  (s'.phases t').rounds ≤ (s.phases t').rounds + 1
  := by
  by_cases hne : t' = t
  · subst hne
    have hzero : ∀ (u : State T) (phase : Phase) (n : Nat), phase.rounds ≤ n →
        ((u.goto t' phase).phases t').rounds ≤ n := by
      intro u phase n hle
      rw [u.goto_phases]
      exact hle
    generalize hphase : s.phases t' = phase
    rw [State.thread, hphase] at hstep
    cases phase with
    | idle => cases hstep
    | locking p =>
        dsimp only at hstep
        split at hstep
        · cases hstep
          rw [hphase]
          exact Nat.zero_le _
        · cases hstep
          exact hzero _ _ _ (Nat.zero_le _)
    | fill c p todo =>
        cases todo with
        | nil =>
            cases hstep
            exact hzero _ _ _ (Nat.zero_le _)
        | cons f todo =>
            cases hstep
            exact hzero _ _ _ (Nat.zero_le _)
    | check c p =>
        dsimp only at hstep
        split at hstep
        all_goals
          cases hstep
          exact hzero _ _ _ (Nat.zero_le _)
    | wait c p spin =>
        dsimp only at hstep
        split_ifs at hstep
        · cases hstep
          exact hzero _ _ _ (Nat.zero_le _)
        · cases hstep
          exact hzero _ _ _ (Nat.le_refl _)
        · cases hstep
          exact hzero _ _ _ (Nat.zero_le _)
    | accept c p =>
        cases hstep
        apply hzero
        split
        · cases c with
          | transfer => exact Nat.zero_le _
          | flush => exact Nat.zero_le _
        · exact Nat.zero_le _
    | _ =>
        cases hstep
        exact hzero _ _ _ (Nat.zero_le _)
  · rw [thread_phases_of_ne hstep hne]
    exact Nat.le_succ _

/-- In a run of less than `maxSpin` steps no thread gives up. -/
theorem guarded_of_length {n : Nat} (hrounds : ∀ t, (s.phases t).rounds ≤ n)
    (hlength : n + as.length ≤ maxSpin) :
  Run.Guarded State.step Patient s as
  := by
  induction as generalizing s n with
  | nil => trivial
  | cons a as ih =>
      rw [List.length_cons] at hlength
      constructor
      · cases a with
        | thread t =>
            intro c p spin hphase hlimit
            have hle := hrounds t
            rw [hphase] at hle
            have hspin : spin ≤ n := hle
            omega
        | _ => trivial
      · intro s' hstep
        refine @ih s' (n + 1) (fun t => ?_) (by omega)
        cases a with
        | thread t' => exact (thread_rounds hstep t).trans (Nat.succ_le_succ (hrounds t))
        | call t' info x y w h =>
            rcases (call_aside hstep).phases t with hsame | ⟨-, hout⟩
            · rw [hsame]
              exact Nat.le_succ_of_le (hrounds t)
            · rw [hout.rounds_eq_zero]
              exact Nat.zero_le _
        | take =>
            simp only [State.step, State.take] at hstep
            split at hstep
            · cases hstep
            · cases hstep
              exact Nat.le_succ_of_le (hrounds t)
        | complete type =>
            simp only [State.step, State.complete] at hstep
            split at hstep
            · cases hstep
              exact Nat.le_succ_of_le (hrounds t)
            · cases hstep

/-! ### Two threads -/

/-- A driver of which no thread makes use. -/
def idleDriver : State Bool where
  lock := false
  gpu := ⟨true, true⟩
  failed := false
  queue :=
    { reqs := fun _ => ⟨0, 0, 0, 0, 0, 0, 0, 0, 0, 0, 0, 0⟩
      resps := fun _ => 0
      desc := fun _ => ⟨.req .transfer, 0, 0, 0⟩
      availIdx := 4
      availRing := fun _ => 0
      usedIdx := 4
      lastUsedIdx := 4
      deviceAvailIdx := 4
      inFlight := [] }
  phases := fun _ => .idle
  events := []

theorem idleDriver_idle :
  idleDriver.Idle
  := ⟨rfl, ⟨rfl, rfl, rfl, rfl⟩, fun _ => rfl, rfl⟩

/-- Two threads present a pixel at once; one gets the lock, and has its first request published. -/
def published : List (Action Bool) :=
  [.call true ⟨32, 8, 8, 32⟩ 2 3 1 1, .call false ⟨32, 8, 8, 32⟩ 0 0 1 1, .thread true, .thread false]
    ++ List.replicate 19 (.thread true)

/-- That thread presents its pixel. -/
def presented : List (Action Bool) :=
  published ++ [.take, .complete 0x1100] ++ List.replicate 21 (.thread true)
    ++ [.take, .complete 0x1100] ++ List.replicate 4 (.thread true)

/-- What is seen when that thread presents its pixel. -/
theorem presented_events :
  ∃ s', Run.exec State.step idleDriver presented = some s' ∧ s'.lock = false
    ∧ s'.events =
      [.enter true ⟨⟨32, 8, 8, 32⟩, 2, 3, 1, 1, by decide, by decide, by decide⟩,
        .take (some (.transferToHost2d ⟨2, 3, 1, 1⟩ 104)), .answer 0x1100, .accept true 0x1100,
        .take (some (.resourceFlush ⟨2, 3, 1, 1⟩)), .answer 0x1100, .accept true 0x1100,
        .leave true true]
  := ⟨_, rfl, rfl, rfl⟩

theorem patient_of_le (as : List (Action Bool)) (h : as.length ≤ maxSpin) :
  Run.Guarded State.step Patient idleDriver as
  := guarded_of_length (fun _ => Nat.le_refl 0) ((Nat.zero_add _).le.trans h)

/-! ### Sessions -/

/-- The device has something to do: a request that it has not taken, or not answered. -/
def Queue.Busy (q : Queue) : Prop :=
  q.deviceAvailIdx ≠ q.availIdx ∨ q.inFlight ≠ []

/-- What the device reads of the queue is the same. -/
structure Queue.SameRead (q q' : Queue) : Prop where
  reqs : q'.reqs = q.reqs
  desc : q'.desc = q.desc
  availRing : q'.availRing = q.availRing

theorem Held.waits_of_busy {q : Queue} {p : Present} {stage : Stage} {phase : Phase}
    (h : Held G q p stage phase) (hbusy : q.Busy) :
  ∃ c, Waits c p phase
  := by
  rcases hbusy with hne | hne
  · obtain ⟨c, -, hwaits, -⟩ := h.of_published hne
    exact ⟨c, hwaits⟩
  · obtain ⟨c, -, hwaits, -⟩ := h.of_inFlight hne
    exact ⟨c, hwaits⟩

theorem thread_queue_of_waits {c : Slot} {p : Present} {t : T} (h : Waits c p (s.phases t))
    (hstep : s.thread t = some s') :
  s'.queue = s.queue
  := by
  generalize hphase : s.phases t = phase at h
  rw [State.thread, hphase] at hstep
  cases h with
  | notify =>
      cases hstep
      rfl
  | wait spin =>
      dsimp only at hstep
      split_ifs at hstep
      all_goals
        cases hstep
        rfl

theorem thread_queue_of_outside {t : T} (h : (s.phases t).Outside) (hstep : s.thread t = some s') :
  s'.queue = s.queue
  := by
  generalize hphase : s.phases t = phase at h
  rw [State.thread, hphase] at hstep
  cases h with
  | idle => cases hstep
  | locking p =>
      dsimp only at hstep
      split at hstep
      all_goals
        cases hstep
        rfl
  | failReady =>
      cases hstep
      rfl
  | failActive =>
      cases hstep
      rfl

theorem call_queue {t : T} {info : Fb.VideoMode} {x y w h : UInt16}
    (hstep : s.call t info x y w h = some s') :
  s'.queue = s.queue
  := (call_aside hstep).queue

theorem sameRead_of_eq {q q' : Queue} (h : q' = q) :
  q.SameRead q'
  := by
  rw [h]
  exact ⟨rfl, rfl, rfl⟩

/-- While the device has something to do, nothing touches the requests, the descriptors and the
available ring: whenever the device reads them, it reads the same. -/
theorem run_stable (hidle : s.Idle) (hguard : Run.Guarded State.step Patient s as)
    (hrun : Run.exec State.step s as = some s') (hbusy : s'.queue.Busy) {a : Action T} {s'' : State T}
    (hstep : s'.step a = some s'') :
  s'.queue.SameRead s''.queue
  := by
  cases a with
  | call t info x y w h => exact sameRead_of_eq (call_queue hstep)
  | take =>
      simp only [State.step, State.take] at hstep
      split at hstep
      · cases hstep
      · cases hstep
        exact ⟨rfl, rfl, rfl⟩
  | complete type =>
      simp only [State.step, State.complete] at hstep
      split at hstep
      · cases hstep
        exact ⟨rfl, rfl, rfl⟩
      · cases hstep
  | thread t =>
      apply sameRead_of_eq
      obtain ⟨σ, -, hrel⟩ := run_inSessions hidle hguard hrun
      cases hrel with
      | free _ _ hout => exact thread_queue_of_outside (hout t) hstep
      | @held o p _ _ hother hheld =>
          by_cases hne : t = o
          · subst hne
            obtain ⟨c, hwaits⟩ := hheld.waits_of_busy hbusy
            exact thread_queue_of_waits hwaits hstep
          · exact thread_queue_of_outside (hother t hne) hstep

/-- Two threads of which one has published a request. -/
theorem run_stable_two :
  ∃ s' s'', Run.exec State.step idleDriver published = some s' ∧ s'.thread false = some s''
    ∧ s'.queue.SameRead s''.queue
  := ⟨_, _, rfl, rfl, run_stable (a := .thread false) idleDriver_idle
    (patient_of_le published (by decide)) rfl (Or.inl (by decide)) rfl⟩

/-! ### Presentations that come to their end -/

/-- The presentations that have got the lock, in order. -/
def entered (es : List (Event T)) : List Present :=
  es.filterMap (fun
    | .enter _ p => some p
    | _ => none)

/-- The requests that the device has taken, in order. -/
def requests (es : List (Event T)) : List (Option GpuRequest) :=
  es.filterMap (fun
    | .take r => some r
    | _ => none)

/-- The requests of a presentation, when every request is answered well. -/
def Present.requests (gpu : Fb.Gpu) (p : Present) : List GpuRequest :=
  (Fb.gpuPresentRect true true gpu p.info p.x p.y p.w p.h).2

theorem Present.requests_eq {gpu : Fb.Gpu} (hready : gpu.ready = true) (p : Present) :
  p.requests gpu = [p.request gpu .transfer, p.request gpu .flush]
  := by
  have hready' : ¬ (gpu.ready = false ∨ p.w = 0 ∨ p.h = 0) := by
    rw [hready]
    rintro (hcon | hempty)
    · cases hcon
    · exact p.nonempty hempty
  rw [Present.requests, Fb.gpuPresentRect, if_neg hready', if_neg p.inside]
  simp only [if_neg p.shown]
  rfl

/-- The requests of the session that the device has taken. -/
inductive Asked (gpu : Fb.Gpu) (p : Present) : Stage → List GpuRequest → Prop where
  | nothing :
    Asked gpu p (.asking .transfer) []
  | takenTransfer :
    Asked gpu p (.taken .transfer) [p.request gpu .transfer]
  | answeredTransfer (type : UInt32) :
    Asked gpu p (.answered .transfer type) [p.request gpu .transfer]
  | askingFlush :
    Asked gpu p (.asking .flush) [p.request gpu .transfer]
  | takenFlush :
    Asked gpu p (.taken .flush) [p.request gpu .transfer, p.request gpu .flush]
  | answeredFlush (type : UInt32) :
    Asked gpu p (.answered .flush type) [p.request gpu .transfer, p.request gpu .flush]
  | ended :
    Asked gpu p (.ended true) [p.request gpu .transfer, p.request gpu .flush]
  | failed (rs : List GpuRequest) :
    Asked gpu p (.ended false) rs

/-- The requests that have been taken are those of the presentations that are over, and of the session
that is not. -/
inductive Progress (gpu : Fb.Gpu) (es : List (Event T)) : Option (Session T) → Prop where
  | free (h : requests es = ((entered es).flatMap (Present.requests gpu)).map some) :
    Progress gpu es none
  | held {t : T} {p : Present} {stage : Stage} {ps : List Present} {rs : List GpuRequest}
      (hentered : entered es = ps ++ [p])
      (hrequests : requests es = (ps.flatMap (Present.requests gpu) ++ rs).map some)
      (hasked : Asked gpu p stage rs) :
    Progress gpu es (some ⟨t, p, stage⟩)

/-- No session ends without having been carried out. -/
def Succeed (es : List (Event T)) : Prop :=
  ∀ t, .leave t false ∉ es

omit [DecidableEq T] in
theorem Sessions.progress {gpu : Fb.Gpu} (hready : gpu.ready = true) {es : List (Event T)}
    (h : Sessions (· = gpu) es σ) (hok : Succeed es) :
  Progress gpu es σ
  := by
  induction h with
  | nil => exact .free rfl
  | @snoc es e σ σ' hes he ih =>
      have hprogress := ih (fun t ht => hok t (List.mem_append_left _ ht))
      have hentered : entered (es ++ [e]) = entered es ++ entered [e] := List.filterMap_append
      have hrequests : requests (es ++ [e]) = requests es ++ requests [e] := List.filterMap_append
      cases he with
      | @enter t p =>
          cases hprogress with
          | free heq =>
              refine .held hentered ?_ .nothing
              rw [hrequests, heq, List.append_nil]
              exact List.append_nil _
      | @take t p c gpu' hgpu =>
          subst hgpu
          cases hprogress with
          | @held _ _ _ ps rs hps hrs hasked =>
              have hrequests' : requests (es ++ [.take (some (p.request gpu' c))])
                  = (ps.flatMap (Present.requests gpu') ++ (rs ++ [p.request gpu' c])).map some := by
                rw [hrequests, hrs, ← List.append_assoc, @List.map_append _ _ some _ [_]]
                rfl
              refine .held (hentered.trans ((List.append_nil _).trans hps)) hrequests' ?_
              cases hasked with
              | nothing => exact .takenTransfer
              | askingFlush => exact .takenFlush
      | @answer t p c type =>
          cases hprogress with
          | held hps hrs hasked =>
              refine .held (hentered.trans ((List.append_nil _).trans hps))
                (hrequests.trans ((List.append_nil _).trans hrs)) ?_
              cases hasked with
              | takenTransfer => exact .answeredTransfer type
              | takenFlush => exact .answeredFlush type
      | @accept t p c type =>
          cases hprogress with
          | held hps hrs hasked =>
              refine .held (hentered.trans ((List.append_nil _).trans hps))
                (hrequests.trans ((List.append_nil _).trans hrs)) ?_
              unfold Stage.next
              split
              · cases hasked with
                | answeredTransfer => exact .askingFlush
                | answeredFlush => exact .ended
              · exact .failed _
      | @leave t p ok =>
          cases hprogress with
          | held hps hrs hasked =>
              cases hasked with
              | ended =>
                  apply Progress.free
                  rw [hrequests, hrs, hentered, hps]
                  simp [entered, requests, Present.requests_eq hready]
              | failed => exact absurd (List.mem_append_right es (List.mem_singleton_self _)) (hok t)
      | @refuse t p c => exact absurd (List.mem_append_right es (List.mem_singleton_self _)) (hok t)

/-- No thread is on its way out, and the flags of the driver are as they were. -/
structure Calm (gpu : Fb.Gpu) (s : State T) : Prop where
  gpu : s.gpu = gpu
  phases : ∀ t, s.phases t ≠ .failReady ∧ s.phases t ≠ .failActive

theorem events_isPrefix {a : Action T} (hstep : s.step a = some s') :
  s.events <+: s'.events
  := by
  have hsame : s.events <+: s.events := List.prefix_rfl
  cases a with
  | call t info x y w h =>
      simpa only [(call_aside hstep).events] using hsame
  | take =>
      simp only [State.step, State.take] at hstep
      split at hstep
      · cases hstep
      · cases hstep
        exact List.prefix_append _ _
  | complete type =>
      simp only [State.step, State.complete] at hstep
      split at hstep
      · cases hstep
        exact List.prefix_append _ _
      · cases hstep
  | thread t =>
      simp only [State.step, State.thread] at hstep
      split at hstep
      all_goals try split_ifs at hstep
      all_goals cases hstep
      all_goals first | exact hsame | exact List.prefix_append _ _

variable {gpu : Fb.Gpu} {t : T} {phase : Phase}

omit [DecidableEq T] in
theorem Calm.see (h : Calm gpu s) (e : Event T) :
  Calm gpu (s.see e)
  := ⟨h.gpu, h.phases⟩

theorem Calm.goto (h : Calm gpu s) {u : State T} (hgpu : u.gpu = s.gpu) (hphases : u.phases = s.phases)
    (hphase : phase ≠ .failReady ∧ phase ≠ .failActive) :
  Calm gpu (u.goto t phase)
  := by
  refine ⟨hgpu.trans h.gpu, fun t' => ?_⟩
  by_cases hne : t' = t
  · subst hne
    rw [State.goto_phases]
    exact hphase
  · rw [u.goto_phases_of_ne phase hne, hphases]
    exact h.phases t'

theorem Calm.thread (h : Calm gpu s) (hstep : s.thread t = some s') (hok : Succeed s'.events) :
  Calm gpu s'
  := by
  have hphases := h.phases t
  generalize hphase : s.phases t = phase at hphases
  rw [State.thread, hphase] at hstep
  cases phase with
  | idle => cases hstep
  | locking p =>
      dsimp only at hstep
      split at hstep
      · cases hstep
        exact h
      · cases hstep
        apply Calm.see
        exact h.goto rfl rfl ⟨by simp, by simp⟩
  | fill c p todo =>
      cases todo with
      | nil =>
          cases hstep
          exact h.goto rfl rfl ⟨by simp, by simp⟩
      | cons f todo =>
          cases hstep
          exact h.goto rfl rfl ⟨by simp, by simp⟩
  | check c p =>
      dsimp only at hstep
      split at hstep
      · cases hstep
        exact h.goto rfl rfl ⟨by simp, by simp⟩
      · cases hstep
        exact h.goto rfl rfl ⟨by simp, by simp⟩
  | describeReq c p =>
      cases hstep
      exact h.goto rfl rfl ⟨by simp, by simp⟩
  | describeResp c p =>
      cases hstep
      exact h.goto rfl rfl ⟨by simp, by simp⟩
  | post c p =>
      cases hstep
      exact h.goto rfl rfl ⟨by simp, by simp⟩
  | publish c p availIdx =>
      cases hstep
      exact h.goto rfl rfl ⟨by simp, by simp⟩
  | notify c p =>
      cases hstep
      exact h.goto rfl rfl ⟨by simp, by simp⟩
  | wait c p spin =>
      dsimp only at hstep
      split_ifs at hstep
      all_goals
        cases hstep
        exact h.goto rfl rfl ⟨by simp, by simp⟩
  | consume c p =>
      cases hstep
      exact h.goto rfl rfl ⟨by simp, by simp⟩
  | accept c p =>
      cases hstep
      apply Calm.see
      split
      · cases c with
        | transfer => exact h.goto rfl rfl ⟨by simp [State.afterAccept], by simp [State.afterAccept]⟩
        | flush => exact h.goto rfl rfl ⟨by simp [State.afterAccept], by simp [State.afterAccept]⟩
      · exact h.goto rfl rfl ⟨by simp, by simp⟩
  | unlock =>
      cases hstep
      apply Calm.see
      exact h.goto rfl rfl ⟨by simp, by simp⟩
  | unlockFailed =>
      cases hstep
      exact absurd (List.mem_append_right s.events (List.mem_singleton_self _)) (hok t)
  | failReady => exact absurd rfl hphases.1
  | failActive => exact absurd rfl hphases.2

theorem Calm.step (h : Calm gpu s) {a : Action T} (hstep : s.step a = some s')
    (hok : Succeed s'.events) :
  Calm gpu s'
  := by
  cases a with
  | call t info x y w h' =>
      simp only [State.step, State.call] at hstep
      split_ifs at hstep
      all_goals cases hstep
      · exact h
      · exact h
      · exact h
      · exact h
      · exact h.goto rfl rfl ⟨by simp, by simp⟩
  | take =>
      simp only [State.step, State.take] at hstep
      split at hstep
      · cases hstep
      · cases hstep
        exact ⟨h.gpu, h.phases⟩
  | complete type =>
      simp only [State.step, State.complete] at hstep
      split at hstep
      · cases hstep
        exact ⟨h.gpu, h.phases⟩
      · cases hstep
  | thread t => exact h.thread hstep hok

/-- What holds as long as no session has failed. -/
def Succeeding (gpu : Fb.Gpu) (s : State T) : Prop :=
  Succeed s.events → Calm gpu s ∧ InSessions (· = gpu) s

omit [DecidableEq T] in
theorem State.Idle.succeeding (h : s.Idle) :
  Succeeding s.gpu s
  := by
  intro _
  refine ⟨⟨rfl, fun t => ?_⟩, h.inSessions⟩
  rw [h.phases t]
  exact ⟨by simp, by simp⟩

/-- When no presentation fails, and the lock is free, the device has taken the requests of the
presentations that have got the lock, in that order, each presentation's together. -/
theorem run_presents (hidle : s.Idle) (hready : s.gpu.ready = true)
    (hguard : Run.Guarded State.step Patient s as) (hrun : Run.exec State.step s as = some s')
    (hok : Succeed s'.events) (hfree : s'.lock = false) :
  requests s'.events
    = ((entered s'.events).flatMap
        (fun p => (Fb.gpuPresentRect true true s.gpu p.info p.x p.y p.w p.h).2)).map some
  := by
  have hlast : Succeeding s.gpu s' := by
    apply Run.exec_safe _ (hidle.succeeding) hguard hrun
    intro u a u' hinv hpatient hstep hok'
    obtain ⟨hcalm, hsessions⟩ := hinv (fun t ht => hok' t ((events_isPrefix hstep).subset ht))
    exact ⟨hcalm.step hstep hok', hsessions.step hcalm.gpu hpatient hstep⟩
  obtain ⟨-, σ, hes, hrel⟩ := hlast hok
  have hprogress := hes.progress hready hok
  cases hrel with
  | held hlock => exact absurd (hlock.symm.trans hfree) (by simp)
  | free =>
      cases hprogress with
      | free heq => exact heq

/-- Two threads of which one presents. -/
theorem run_presents_two :
  ∃ s', Run.exec State.step idleDriver presented = some s'
    ∧ requests s'.events
      = [some (.transferToHost2d ⟨2, 3, 1, 1⟩ 104), some (.resourceFlush ⟨2, 3, 1, 1⟩)]
  := by
  obtain ⟨s', hrun, hfree, hevents⟩ := presented_events
  have hok : Succeed s'.events := by
    intro t
    rw [hevents]
    simp
  have hrequests := run_presents idleDriver_idle rfl (patient_of_le presented (by decide)) hrun hok hfree
  use s', hrun
  rw [hrequests, hevents]
  rfl

end VirtioGpu
