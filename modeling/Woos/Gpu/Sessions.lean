import Woos.Gpu.Control

/-!
# Sessions at the GPU

What `gpu_lock` is for: the threads have the device one after the other.  A session belongs to the
thread that has the lock.  In it the device takes the request for the transfer of the thread's
rectangle, answers it, the thread reads that answer, and then the same happens with the request to
flush the rectangle.  `Sessions` says that a sequence of events is a sequence of sessions, of which
the last may not be over.

Any interleaving of the threads and the device shows a sequence of sessions, as long as no thread has
given up waiting: then its request is still with the device when the next thread has the lock, and the
next thread takes the answer to it for its own.
-/

namespace VirtioGpu

open Fb (GpuRequest)

/-! ### Sessions -/

/-- How far a session has come. -/
inductive Stage where
  /-- the device has not taken the request -/
  | asking (c : Slot)
  /-- the device owes an answer -/
  | taken (c : Slot)
  /-- the thread has not read the answer -/
  | answered (c : Slot) (type : UInt32)
  /-- the thread gives the lock back -/
  | ended (ok : Bool)
  deriving DecidableEq, Repr

/-- What follows when an answer has been read. -/
def Stage.next (type : UInt32) (c : Slot) : Stage :=
  if isOk type then
    match c with
    | .transfer => .asking .flush
    | .flush => .ended true
  else .ended false

/-- The thread that has the lock, what it presents, and how far it has come. -/
structure Session (T : Type) where
  owner : T
  present : Present
  stage : Stage

variable {T : Type} {G : Fb.Gpu → Prop}

/-- What may be seen next, when the flags of the driver are as `G` says. -/
inductive Moves (G : Fb.Gpu → Prop) : Option (Session T) → Event T → Option (Session T) → Prop where
  | enter {t : T} {p : Present} :
    Moves G none (.enter t p) (some ⟨t, p, .asking .transfer⟩)
  | take {t : T} {p : Present} {c : Slot} {gpu : Fb.Gpu} (hgpu : G gpu) :
    Moves G (some ⟨t, p, .asking c⟩) (.take (some (p.request gpu c))) (some ⟨t, p, .taken c⟩)
  | answer {t : T} {p : Present} {c : Slot} {type : UInt32} :
    Moves G (some ⟨t, p, .taken c⟩) (.answer type) (some ⟨t, p, .answered c type⟩)
  | accept {t : T} {p : Present} {c : Slot} {type : UInt32} :
    Moves G (some ⟨t, p, .answered c type⟩) (.accept t type) (some ⟨t, p, .next type c⟩)
  | leave {t : T} {p : Present} {ok : Bool} :
    Moves G (some ⟨t, p, .ended ok⟩) (.leave t ok) none
  /-- the driver is not ready any more -/
  | refuse {t : T} {p : Present} {c : Slot} :
    Moves G (some ⟨t, p, .asking c⟩) (.leave t false) none

/-- A sequence of sessions, and the one that is not over. -/
inductive Sessions (G : Fb.Gpu → Prop) : List (Event T) → Option (Session T) → Prop where
  | nil :
    Sessions G [] none
  | snoc {es : List (Event T)} {e : Event T} {σ σ' : Option (Session T)} (hes : Sessions G es σ)
      (he : Moves G σ e σ') :
    Sessions G (es ++ [e]) σ'

/-! ### Filling a request -/

/-- The field has the value that the call assigns to it. -/
def Stored (G : Fb.Gpu → Prop) (p : Present) (c : Slot) (r : Req) (f : Field) : Prop :=
  ∃ gpu, G gpu ∧ f.assign gpu p c r = r

/-- All fields have their values. -/
def Filled (G : Fb.Gpu → Prop) (p : Present) (c : Slot) (r : Req) : Prop :=
  ∀ f ∈ fields c, Stored G p c r f

variable {p : Present} {c : Slot} {r : Req} {gpu : Fb.Gpu} {f g : Field}

theorem assign_assign (gpu : Fb.Gpu) (p : Present) (c : Slot) (r : Req) (f : Field) :
  f.assign gpu p c (f.assign gpu p c r) = f.assign gpu p c r
  := by
  cases f <;> rfl

theorem assign_comm (gpu gpu' : Fb.Gpu) (p : Present) (c : Slot) (r : Req) (hne : f ≠ g) :
  g.assign gpu' p c (f.assign gpu p c r) = f.assign gpu p c (g.assign gpu' p c r)
  := by
  cases f <;> cases g <;> first | rfl | exact absurd rfl hne

theorem stored_assign (hgpu : G gpu) :
  Stored G p c (f.assign gpu p c r) f
  := ⟨gpu, hgpu, assign_assign gpu p c r f⟩

theorem Stored.assign (h : Stored G p c r g) (hgpu : G gpu) :
  Stored G p c (f.assign gpu p c r) g
  := by
  by_cases hne : f = g
  · subst hne
    exact stored_assign hgpu
  · obtain ⟨gpu', hgpu', heq⟩ := h
    use gpu', hgpu'
    rw [assign_comm gpu gpu' p c r hne, heq]

/-- The device reads the request that the call is to make. -/
theorem Filled.request_eq (h : Filled G p c r) :
  ∃ gpu, G gpu ∧ r.request = some (p.request gpu c)
  := by
  have htype : r.type = c.cmd := by
    obtain ⟨_, -, heq⟩ := h .type (by cases c <;> simp [fields])
    exact (congrArg Req.type heq).symm
  have hx : r.x = p.x.toUInt32 := by
    obtain ⟨_, -, heq⟩ := h .x (by cases c <;> simp [fields])
    exact (congrArg Req.x heq).symm
  have hy : r.y = p.y.toUInt32 := by
    obtain ⟨_, -, heq⟩ := h .y (by cases c <;> simp [fields])
    exact (congrArg Req.y heq).symm
  have hwidth : r.width = p.clippedW.toUInt32 := by
    obtain ⟨_, -, heq⟩ := h .width (by cases c <;> simp [fields])
    exact (congrArg Req.width heq).symm
  have hheight : r.height = p.clippedH.toUInt32 := by
    obtain ⟨_, -, heq⟩ := h .height (by cases c <;> simp [fields])
    exact (congrArg Req.height heq).symm
  have hid : r.resourceId = VirtioGpu.resourceId := by
    obtain ⟨_, -, heq⟩ := h .resourceId (by cases c <;> simp [fields])
    exact (congrArg Req.resourceId heq).symm
  rw [Req.request, hx, hy, hwidth, hheight, hid, htype, if_neg (not_not_intro rfl)]
  cases c with
  | transfer =>
      obtain ⟨gpu, hgpu, heq⟩ := h .offset (by simp [fields])
      have hoffset : r.offset = p.offset gpu := (congrArg Req.offset heq).symm
      use gpu, hgpu
      rw [if_pos rfl, hoffset]
      rfl
  | flush =>
      obtain ⟨gpu, hgpu, -⟩ := h .type (by simp [fields])
      use gpu, hgpu
      rfl

/-! ### The queue in a session -/

namespace Queue

/-- Everything that has been published has been taken, answered, and seen by the driver. -/
structure Quiet (q : Queue) : Prop where
  avail : q.availIdx = q.lastUsedIdx
  used : q.usedIdx = q.lastUsedIdx
  device : q.deviceAvailIdx = q.lastUsedIdx
  inFlight : q.inFlight = []

/-- The next slot of the available ring names the descriptors of a request that has been filled. -/
structure Posted (G : Fb.Gpu → Prop) (q : Queue) (p : Present) (c : Slot) : Prop where
  filled : Filled G p c (q.reqs c)
  req : q.desc 0 = reqDesc c
  resp : q.desc 1 = respDesc c
  ring : q.availRing (q.lastUsedIdx % queueSize) = 0

end Queue

/-- A thread waits for the answer to a request. -/
inductive Waits (c : Slot) (p : Present) : Phase → Prop where
  | notify :
    Waits c p (.notify c p)
  | wait (spin : Nat) :
    Waits c p (.wait c p spin)

/-- How the stage of a session, the place of its thread in the call and the queue go together. -/
inductive Held (G : Fb.Gpu → Prop) (q : Queue) (p : Present) : Stage → Phase → Prop where
  | fill {c : Slot} {done todo : List Field} (hquiet : q.Quiet) (hfields : done ++ todo = fields c)
      (hdone : ∀ f ∈ done, Stored G p c (q.reqs c) f) :
    Held G q p (.asking c) (.fill c p todo)
  | check {c : Slot} (hquiet : q.Quiet) (hfilled : Filled G p c (q.reqs c)) :
    Held G q p (.asking c) (.check c p)
  | describeReq {c : Slot} (hquiet : q.Quiet) (hfilled : Filled G p c (q.reqs c)) :
    Held G q p (.asking c) (.describeReq c p)
  | describeResp {c : Slot} (hquiet : q.Quiet) (hfilled : Filled G p c (q.reqs c))
      (hreq : q.desc 0 = reqDesc c) :
    Held G q p (.asking c) (.describeResp c p)
  | post {c : Slot} (hquiet : q.Quiet) (hfilled : Filled G p c (q.reqs c))
      (hreq : q.desc 0 = reqDesc c) (hresp : q.desc 1 = respDesc c) :
    Held G q p (.asking c) (.post c p)
  | publish {c : Slot} (hquiet : q.Quiet) (hposted : q.Posted G p c) :
    Held G q p (.asking c) (.publish c p q.availIdx)
  | asked {c : Slot} {phase : Phase} (hwaits : Waits c p phase) (hposted : q.Posted G p c)
      (havail : q.availIdx = q.lastUsedIdx + 1) (hused : q.usedIdx = q.lastUsedIdx)
      (hdevice : q.deviceAvailIdx = q.lastUsedIdx) (hnone : q.inFlight = []) :
    Held G q p (.asking c) phase
  | taken {c : Slot} {phase : Phase} (hwaits : Waits c p phase)
      (havail : q.availIdx = q.lastUsedIdx + 1) (hused : q.usedIdx = q.lastUsedIdx)
      (hdevice : q.deviceAvailIdx = q.availIdx) (hone : q.inFlight = [.resp c]) :
    Held G q p (.taken c) phase
  | answered {c : Slot} {type : UInt32} {phase : Phase} (hwaits : Waits c p phase ∨ phase = .consume c p)
      (havail : q.availIdx = q.lastUsedIdx + 1) (hused : q.usedIdx = q.availIdx)
      (hdevice : q.deviceAvailIdx = q.availIdx) (hnone : q.inFlight = []) (hresp : q.resps c = type) :
    Held G q p (.answered c type) phase
  | accept {c : Slot} {type : UInt32} (hquiet : q.Quiet) (hresp : q.resps c = type) :
    Held G q p (.answered c type) (.accept c p)
  | unlock (hquiet : q.Quiet) :
    Held G q p (.ended true) .unlock
  | unlockFailed (hquiet : q.Quiet) :
    Held G q p (.ended false) .unlockFailed
  | refused {c : Slot} (hquiet : q.Quiet) :
    Held G q p (.asking c) .unlockFailed

/-- A thread that does not have the lock. -/
inductive Phase.Outside : Phase → Prop where
  | idle :
    Outside .idle
  | locking (p : Present) :
    Outside (.locking p)
  | failReady :
    Outside .failReady
  | failActive :
    Outside .failActive

/-- The state and the session. -/
inductive Rel (G : Fb.Gpu → Prop) (s : State T) : Option (Session T) → Prop where
  | free (hlock : s.lock = false) (hquiet : s.queue.Quiet) (hout : ∀ t, (s.phases t).Outside) :
    Rel G s none
  | held {t : T} {p : Present} {stage : Stage} (hlock : s.lock = true)
      (hother : ∀ t' ≠ t, (s.phases t').Outside) (hheld : Held G s.queue p stage (s.phases t)) :
    Rel G s (some ⟨t, p, stage⟩)

/-- What a step shows, and where the sessions are after it. -/
def Follows (G : Fb.Gpu → Prop) (s s' : State T) (σ σ' : Option (Session T)) : Prop :=
  (s'.events = s.events ∧ σ' = σ) ∨ ∃ e, s'.events = s.events ++ [e] ∧ Moves G σ e σ'

/-- No thread gives up waiting in this step. -/
def Patient (s : State T) : Action T → Prop
  | .thread t =>
      ∀ c p spin, s.phases t = .wait c p spin → maxSpin < spin + 1 →
        s.queue.usedIdx ≠ s.queue.lastUsedIdx
  | _ => True

/-! ### Steps -/

section Steps

variable {s s' : State T} {t o : T} {q : Queue} {stage : Stage} {phase : Phase}
  {σ : Option (Session T)} {type : UInt32}

theorem Waits.not_outside (h : Waits c p phase) :
  ¬ phase.Outside
  := by
  intro hout
  cases h <;> cases hout

theorem Held.not_outside (h : Held G q p stage phase) :
  ¬ phase.Outside
  := by
  intro hout
  cases h with
  | asked hwaits => exact hwaits.not_outside hout
  | taken hwaits => exact hwaits.not_outside hout
  | answered hwaits =>
      rcases hwaits with hwaits | rfl
      · exact hwaits.not_outside hout
      · cases hout
  | _ => cases hout

theorem Rel.see (h : Rel G s σ) (e : Event T) :
  Rel G (s.see e) σ
  := by
  cases h with
  | free hlock hquiet hout => exact .free hlock hquiet hout
  | held hlock hother hheld => exact .held hlock hother hheld

/-- A step without the lock: it moves a thread among the places where the lock is not held, and at
most changes the flags. -/
structure Aside (s s' : State T) : Prop where
  queue : s'.queue = s.queue
  lock : s'.lock = s.lock
  events : s'.events = s.events
  phases : ∀ t, s'.phases t = s.phases t ∨ (s.phases t).Outside ∧ (s'.phases t).Outside

theorem Rel.aside (h : Rel G s σ) (haside : Aside s s') :
  Rel G s' σ
  := by
  cases h with
  | free hlock hquiet hout =>
      refine .free (haside.lock.trans hlock) (haside.queue ▸ hquiet) (fun t => ?_)
      rcases haside.phases t with heq | hout'
      · rw [heq]
        exact hout t
      · exact hout'.2
  | held hlock hother hheld =>
      apply Rel.held (haside.lock.trans hlock)
      · intro t' hne
        rcases haside.phases t' with heq | hout'
        · rw [heq]
          exact hother t' hne
        · exact hout'.2
      · rcases haside.phases _ with heq | hout'
        · rw [heq, haside.queue]
          exact hheld
        · exact absurd hout'.1 hheld.not_outside

theorem follows_aside (h : Rel G s σ) (haside : Aside s s') :
  ∃ σ', Follows G s s' σ σ' ∧ Rel G s' σ'
  := ⟨σ, Or.inl ⟨haside.events, rfl⟩, h.aside haside⟩

/-- The device can take something only when the thread that has the lock has published its
request. -/
theorem Held.of_published (h : Held G q p stage phase) (hne : q.deviceAvailIdx ≠ q.availIdx) :
  ∃ c, stage = .asking c ∧ Waits c p phase ∧ q.Posted G p c ∧ q.availIdx = q.lastUsedIdx + 1
    ∧ q.usedIdx = q.lastUsedIdx ∧ q.deviceAvailIdx = q.lastUsedIdx ∧ q.inFlight = []
  := by
  have hquiet : ¬ q.Quiet := fun h => hne (h.device.trans h.avail.symm)
  cases h with
  | asked hwaits hposted havail hused hdevice hnone =>
      exact ⟨_, rfl, hwaits, hposted, havail, hused, hdevice, hnone⟩
  | taken _ _ _ hdevice => exact absurd hdevice hne
  | answered _ _ _ hdevice => exact absurd hdevice hne
  | _ => contradiction

/-- The device owes an answer only for the request of the thread that has the lock. -/
theorem Held.of_inFlight (h : Held G q p stage phase) (hne : q.inFlight ≠ []) :
  ∃ c, stage = .taken c ∧ Waits c p phase ∧ q.availIdx = q.lastUsedIdx + 1
    ∧ q.usedIdx = q.lastUsedIdx ∧ q.deviceAvailIdx = q.availIdx ∧ q.inFlight = [.resp c]
  := by
  have hquiet : ¬ q.Quiet := fun h => hne h.inFlight
  cases h with
  | taken hwaits havail hused hdevice hone => exact ⟨_, rfl, hwaits, havail, hused, hdevice, hone⟩
  | asked _ _ _ _ _ hnone => exact absurd hnone hne
  | answered _ _ _ _ hnone => exact absurd hnone hne
  | _ => contradiction

/-- The device takes the request of the session. -/
theorem take_follows (h : Rel G s σ) (hstep : s.take = some s') :
  ∃ σ', Follows G s s' σ σ' ∧ Rel G s' σ'
  := by
  rw [State.take] at hstep
  split at hstep
  case isTrue => cases hstep
  case isFalse hne =>
    cases hstep
    cases h with
    | free _ hquiet => exact absurd (hquiet.device.trans hquiet.avail.symm) hne
    | @held t p stage hlock hother hheld =>
        obtain ⟨c, rfl, hwaits, hposted, havail, hused, hdevice, hnone⟩ := hheld.of_published hne
        obtain ⟨gpu, hgpu, hrequest⟩ := hposted.filled.request_eq
        have hhead : s.queue.desc (s.queue.availRing (s.queue.deviceAvailIdx % queueSize))
            = reqDesc c := by
          rw [hdevice, hposted.ring, hposted.req]
        have hread : s.readReq (reqDesc c).addr = some (p.request gpu c) := hrequest
        refine ⟨some ⟨t, p, .taken c⟩, Or.inr ⟨_, rfl, ?_⟩, ?_⟩
        · rw [hhead, hread]
          exact .take hgpu
        · apply Rel.see
          refine .held hlock hother (.taken hwaits havail hused ?_ ?_)
          · show s.queue.deviceAvailIdx + 1 = s.queue.availIdx
            rw [hdevice, havail]
          · have hnext : s.queue.desc (reqDesc c).next = respDesc c := hposted.resp
            show s.queue.inFlight ++ [(s.queue.desc _).addr] = [.resp c]
            rw [hhead, hnext, hnone]
            rfl

/-- The device answers the request of the session. -/
theorem complete_follows (h : Rel G s σ) (hstep : s.complete type = some s') :
  ∃ σ', Follows G s s' σ σ' ∧ Rel G s' σ'
  := by
  have hne : s.queue.inFlight ≠ [] := by
    intro hnone
    rw [State.complete, hnone] at hstep
    cases hstep
  cases h with
  | free _ hquiet => exact absurd hquiet.inFlight hne
  | @held t p stage hlock hother hheld =>
      obtain ⟨c, rfl, hwaits, havail, hused, hdevice, hone⟩ := hheld.of_inFlight hne
      rw [State.complete, hone] at hstep
      cases hstep
      refine ⟨some ⟨t, p, .answered c type⟩, Or.inr ⟨_, rfl, .answer⟩, ?_⟩
      apply Rel.see
      refine .held hlock hother (.answered (Or.inl hwaits) havail ?_ hdevice ?_ ?_)
      · show s.queue.usedIdx + 1 = s.queue.availIdx
        rw [hused, havail]
      · exact congrArg List.tail hone
      · exact s.queue.answer_resps c type

variable [DecidableEq T]

/-- The thread that has the lock goes on. -/
theorem rel_goto (hlock : s.lock = true) (hother : ∀ t' ≠ t, (s.phases t').Outside)
    (hheld : Held G s.queue p stage phase) :
  Rel G (s.goto t phase) (some ⟨t, p, stage⟩)
  := by
  refine .held hlock (fun t' hne => ?_) ?_
  · rw [s.goto_phases_of_ne phase hne]
    exact hother t' hne
  · rw [s.goto_phases t phase]
    exact hheld

theorem aside_goto (hout : (s.phases t).Outside) (hphase : phase.Outside) :
  Aside s (s.goto t phase)
  := by
  refine ⟨rfl, rfl, rfl, fun t' => ?_⟩
  by_cases hne : t' = t
  · subst hne
    right
    rw [State.goto_phases]
    exact ⟨hout, hphase⟩
  · left
    exact s.goto_phases_of_ne phase hne

theorem call_aside {info : Fb.VideoMode} {x y w h : UInt16} (hstep : s.call t info x y w h = some s') :
  Aside s s'
  := by
  have hsame : Aside s s := ⟨rfl, rfl, rfl, fun _ => Or.inl rfl⟩
  rw [State.call] at hstep
  split at hstep
  · cases hstep
  · rename_i hidle
    rw [not_not] at hidle
    split_ifs at hstep
    all_goals cases hstep
    · exact hsame
    · exact hsame
    · exact hsame
    · exact hsame
    · apply aside_goto _ (.locking _)
      rw [hidle]
      exact .idle

/-- A thread that does not have the lock takes it, or steps aside. -/
theorem thread_outside (h : Rel G s σ) (hout : (s.phases t).Outside) (hstep : s.thread t = some s') :
  ∃ σ', Follows G s s' σ σ' ∧ Rel G s' σ'
  := by
  generalize hphase : s.phases t = phase at hout
  rw [State.thread, hphase] at hstep
  cases hout with
  | idle => cases hstep
  | locking p =>
      dsimp only at hstep
      split at hstep
      case isTrue =>
        cases hstep
        exact follows_aside h ⟨rfl, rfl, rfl, fun _ => Or.inl rfl⟩
      case isFalse hlock =>
        cases hstep
        cases h with
        | held hlocked => exact absurd hlocked hlock
        | free _ hquiet hout =>
            refine ⟨some ⟨t, p, .asking .transfer⟩, Or.inr ⟨_, rfl, .enter⟩, ?_⟩
            apply Rel.see
            refine rel_goto (s := { s with lock := true }) rfl (fun t' _ => hout t') ?_
            exact .fill hquiet rfl (fun f hf => absurd hf List.not_mem_nil)
  | failReady =>
      cases hstep
      have haside := aside_goto (s := { s with failed := true, gpu := ⟨s.gpu.active, false⟩ })
        (t := t) (hphase ▸ .failReady) .failActive
      exact follows_aside h ⟨rfl, rfl, rfl, haside.phases⟩
  | failActive =>
      cases hstep
      have haside := aside_goto (s := { s with gpu := ⟨false, s.gpu.ready⟩ })
        (t := t) (hphase ▸ .failActive) .idle
      exact follows_aside h ⟨rfl, rfl, rfl, haside.phases⟩

/-- The lock is given back. -/
theorem follows_leave {ok : Bool} (hquiet : s.queue.Quiet) (hother : ∀ t' ≠ t, (s.phases t').Outside)
    (hphase : phase.Outside) (hmoves : Moves G (some ⟨t, p, stage⟩) (.leave t ok) none) :
  ∃ σ', Follows G s (({ s with lock := false }.goto t phase).see (.leave t ok)) (some ⟨t, p, stage⟩) σ'
    ∧ Rel G (({ s with lock := false }.goto t phase).see (.leave t ok)) σ'
  := by
  refine ⟨none, Or.inr ⟨_, rfl, hmoves⟩, ?_⟩
  apply Rel.see
  refine .free rfl hquiet (fun t' => ?_)
  by_cases hne : t' = t
  · subst hne
    exact (State.goto_phases _ t' phase).symm ▸ hphase
  · exact (State.goto_phases_of_ne _ phase hne).symm ▸ hother t' hne

theorem succ_ne (i : UInt16) :
  i + 1 ≠ i
  := by
  intro heq
  have h := congrArg UInt16.toNat heq
  rw [UInt16.toNat_add, UInt16.toNat_one] at h
  have hlt := i.toNat_lt
  omega

/-- A thread that waits goes on waiting as long as there is no answer. -/
theorem waits_follows (hpatient : Patient s (.thread t)) (hlock : s.lock = true)
    (hother : ∀ t' ≠ t, (s.phases t').Outside) (hwaits : Waits c p (s.phases t))
    (hused : s.queue.usedIdx = s.queue.lastUsedIdx)
    (hheld : ∀ phase, Waits c p phase → Held G s.queue p stage phase) (hstep : s.thread t = some s') :
  ∃ σ', Follows G s s' (some ⟨t, p, stage⟩) σ' ∧ Rel G s' σ'
  := by
  generalize hphase : s.phases t = phase at hwaits
  rw [State.thread, hphase] at hstep
  cases hwaits with
  | notify =>
      cases hstep
      exact ⟨_, Or.inl ⟨rfl, rfl⟩, rel_goto hlock hother (hheld _ (.wait 0))⟩
  | wait spin =>
      dsimp only at hstep
      rw [if_pos hused] at hstep
      split at hstep
      case isTrue hlimit => exact absurd hused (hpatient c p spin hphase hlimit)
      case isFalse =>
        cases hstep
        exact ⟨_, Or.inl ⟨rfl, rfl⟩, rel_goto hlock hother (hheld _ (.wait (spin + 1)))⟩

/-- The thread that has the lock goes on with its session. -/
theorem thread_owner (hgpu : G s.gpu) (hpatient : Patient s (.thread t)) (hlock : s.lock = true)
    (hother : ∀ t' ≠ t, (s.phases t').Outside) (hheld : Held G s.queue p stage (s.phases t))
    (hstep : s.thread t = some s') :
  ∃ σ', Follows G s s' (some ⟨t, p, stage⟩) σ' ∧ Rel G s' σ'
  := by
  generalize hphase : s.phases t = phase at hheld
  have hnext := hstep
  rw [State.thread, hphase] at hnext
  cases hheld with
  | @fill c done todo hquiet hfields hdone =>
      cases todo with
      | nil =>
          cases hnext
          refine ⟨_, Or.inl ⟨rfl, rfl⟩, rel_goto hlock hother (.check hquiet ?_)⟩
          rw [List.append_nil] at hfields
          rw [Filled, ← hfields]
          exact hdone
      | cons f todo =>
          cases hnext
          refine ⟨_, Or.inl ⟨rfl, rfl⟩, rel_goto hlock hother ?_⟩
          apply @Held.fill _ _ _ c (done ++ [f]) todo
          · exact ⟨hquiet.avail, hquiet.used, hquiet.device, hquiet.inFlight⟩
          · rw [List.append_assoc]
            exact hfields
          · intro g hg
            rw [Queue.fill_reqs]
            rcases List.mem_append.mp hg with hg | hg
            · exact (hdone g hg).assign hgpu
            · rw [List.mem_singleton.mp hg]
              exact stored_assign hgpu
  | check hquiet hfilled =>
      dsimp only at hnext
      split at hnext
      · cases hnext
        exact ⟨_, Or.inl ⟨rfl, rfl⟩, rel_goto hlock hother (.describeReq hquiet hfilled)⟩
      · cases hnext
        exact ⟨_, Or.inl ⟨rfl, rfl⟩, rel_goto hlock hother (.refused hquiet)⟩
  | @describeReq c hquiet hfilled =>
      cases hnext
      refine ⟨_, Or.inl ⟨rfl, rfl⟩, rel_goto hlock hother (.describeResp ?_ hfilled ?_)⟩
      · exact ⟨hquiet.avail, hquiet.used, hquiet.device, hquiet.inFlight⟩
      · exact s.queue.describe_desc 0 (reqDesc c)
  | @describeResp c hquiet hfilled hreq =>
      cases hnext
      refine ⟨_, Or.inl ⟨rfl, rfl⟩, rel_goto hlock hother (.post ?_ hfilled ?_ ?_)⟩
      · exact ⟨hquiet.avail, hquiet.used, hquiet.device, hquiet.inFlight⟩
      · exact (s.queue.describe_desc_of_ne (respDesc c) (by decide)).trans hreq
      · exact s.queue.describe_desc 1 (respDesc c)
  | post hquiet hfilled hreq hresp =>
      cases hnext
      refine ⟨_, Or.inl ⟨rfl, rfl⟩, rel_goto hlock hother (.publish ?_ ⟨hfilled, hreq, hresp, ?_⟩)⟩
      · exact ⟨hquiet.avail, hquiet.used, hquiet.device, hquiet.inFlight⟩
      · have hring := s.queue.post_availRing s.queue.availIdx 0
        rw [hquiet.avail] at hring ⊢
        exact hring
  | @publish c hquiet hposted =>
      cases hnext
      refine ⟨_, Or.inl ⟨rfl, rfl⟩, rel_goto hlock hother ?_⟩
      refine .asked .notify ⟨hposted.filled, hposted.req, hposted.resp, hposted.ring⟩ ?_ ?_ ?_ ?_
      · exact congrArg (· + 1) hquiet.avail
      · exact hquiet.used
      · exact hquiet.device
      · exact hquiet.inFlight
  | asked hwaits hposted havail hused hdevice hnone =>
      apply waits_follows hpatient hlock hother (hphase ▸ hwaits) hused _ hstep
      intro phase' hwaits'
      exact .asked hwaits' hposted havail hused hdevice hnone
  | taken hwaits havail hused hdevice hone =>
      apply waits_follows hpatient hlock hother (hphase ▸ hwaits) hused _ hstep
      intro phase' hwaits'
      exact .taken hwaits' havail hused hdevice hone
  | @answered c type _ hwaits havail hused hdevice hnone hresp =>
      rcases hwaits with hwaits | rfl
      · cases hwaits with
        | notify =>
            cases hnext
            exact ⟨_, Or.inl ⟨rfl, rfl⟩, rel_goto hlock hother
              (.answered (Or.inl (.wait 0)) havail hused hdevice hnone hresp)⟩
        | wait spin =>
            dsimp only at hnext
            rw [hused, havail, if_neg (succ_ne _)] at hnext
            cases hnext
            exact ⟨_, Or.inl ⟨rfl, rfl⟩, rel_goto hlock hother
              (.answered (Or.inr rfl) havail hused hdevice hnone hresp)⟩
      · cases hnext
        refine ⟨_, Or.inl ⟨rfl, rfl⟩, rel_goto hlock hother (.accept ?_ hresp)⟩
        exact ⟨hused.symm, rfl, hdevice.trans hused.symm, hnone⟩
  | @accept c type hquiet hresp =>
      subst hresp
      cases hnext
      refine ⟨_, Or.inr ⟨_, rfl, .accept⟩, ?_⟩
      apply Rel.see
      apply rel_goto hlock hother
      unfold Stage.next
      split
      case isTrue =>
        cases c with
        | transfer => exact .fill hquiet rfl (fun f hf => absurd hf List.not_mem_nil)
        | flush => exact .unlock hquiet
      case isFalse => exact .unlockFailed hquiet
  | unlock hquiet =>
      cases hnext
      exact follows_leave hquiet hother .idle .leave
  | unlockFailed hquiet =>
      cases hnext
      exact follows_leave hquiet hother .failReady .leave
  | refused hquiet =>
      cases hnext
      exact follows_leave hquiet hother .failReady .refuse

/-- Every step in which no thread gives up waiting is a step of the sessions. -/
theorem step_follows (hgpu : G s.gpu) (h : Rel G s σ) {a : Action T} (hpatient : Patient s a)
    (hstep : s.step a = some s') :
  ∃ σ', Follows G s s' σ σ' ∧ Rel G s' σ'
  := by
  cases a with
  | call t info x y w h' => exact follows_aside h (call_aside hstep)
  | take => exact take_follows h hstep
  | complete type => exact complete_follows h hstep
  | thread t =>
      cases h with
      | free hlock hquiet hout => exact thread_outside (.free hlock hquiet hout) (hout t) hstep
      | @held o p stage hlock hother hheld =>
          by_cases hne : t = o
          · subst hne
            exact thread_owner hgpu hpatient hlock hother hheld hstep
          · exact thread_outside (.held hlock hother hheld) (hother t hne) hstep

end Steps

end VirtioGpu
