import Woos.Sched.Spawn

/-!
# One thread for each application

Paths denote the same application when they differ only in slashes at their ends and in the
case of letters: `application` is what a path denotes, and `appPathsMatch` compares exactly
that.

`Instances` is the kernel together with the path for which the thread in each slot was spawned.
As long as every path that is spawned denotes the application of its first 63 bytes, no two
live threads were spawned for the same application.
-/

namespace Sched

/-! ### Paths -/

/-- A path without the slashes at its end. -/
def trim : List UInt8 → List UInt8
  | [] => []
  | c :: p => if trim p = [] ∧ c = 47 then [] else c :: trim p

/-- The application that a path denotes: its letters in upper case, without the slashes at its
ends. -/
def application (p : CString) : List UInt8 := (trim (skipSlashes p.bytes)).map upper

theorem upper_eq_slash (c : UInt8) :
  upper c = 47 ↔ c = 47
  := by
  rw [upper]
  split
  case isTrue h =>
    rw [UInt8.le_iff_toNat_le, UInt8.le_iff_toNat_le] at h
    rw [← UInt8.toNat_inj, ← UInt8.toNat_inj, UInt8.toNat_sub_of_le]
    · have hlow : (97 : UInt8).toNat = 97 := rfl
      have hhigh : (122 : UInt8).toNat = 122 := rfl
      have hcase : (32 : UInt8).toNat = 32 := rfl
      have hslash : (47 : UInt8).toNat = 47 := rfl
      omega
    · rw [UInt8.le_iff_toNat_le]
      exact Nat.le_trans (by decide) h.1
  case isFalse => rfl

theorem skipSlashes_eq_nil (p : List UInt8) :
  skipSlashes p = [] ↔ trim p = []
  := by
  induction p with
  | nil => exact Iff.rfl
  | cons c p ih =>
      rw [skipSlashes, trim, List.dropWhile_cons]
      by_cases hc : c = 47
      · simp only [hc, beq_self_eq_true, if_true, and_true]
        rw [← skipSlashes, ih]
        split
        case isTrue h => simp [h]
        case isFalse h => simp [h]
      · simp [hc]

/-- What `app_paths_match` compares after the slashes at the beginning. -/
theorem matchLoop_iff (p₁ p₂ : List UInt8) :
  (match matchLoop p₁ p₂ with
    | none => false
    | some (r₁, r₂) => (skipSlashes r₁).isEmpty && (skipSlashes r₂).isEmpty) = true
    ↔ (trim p₁).map upper = (trim p₂).map upper
  := by
  induction p₁, p₂ using matchLoop.induct with
  | case1 c₁ p₁ c₂ p₂ hne =>
      rw [matchLoop, if_pos hne]
      constructor
      · nofun
      · intro heq
        rw [trim, trim] at heq
        split at heq
        case isTrue h₁ =>
          split at heq
          case isTrue h₂ =>
            rw [h₁.2, h₂.2] at hne
            exact absurd rfl hne
          case isFalse => cases heq
        case isFalse =>
          split at heq
          · cases heq
          · exact absurd (List.cons.inj heq).1 hne
  | case2 c₁ p₁ c₂ p₂ heq ih =>
      have heq' := not_not.mp heq
      have hslash : c₁ = 47 ↔ c₂ = 47 := by
        rw [← upper_eq_slash c₁, heq', upper_eq_slash]
      have hnil : (trim p₁).map upper = (trim p₂).map upper → (trim p₁ = [] ↔ trim p₂ = []) := by
        intro h
        rw [← List.map_eq_nil_iff (f := upper), h, List.map_eq_nil_iff]
      rw [matchLoop, if_neg heq, ih, trim, trim]
      by_cases h₁ : trim p₁ = [] ∧ c₁ = 47
      · by_cases h₂ : trim p₂ = [] ∧ c₂ = 47
        · rw [if_pos h₁, if_pos h₂, h₁.1, h₂.1]
        · rw [if_pos h₁, if_neg h₂]
          constructor
          · exact fun h => absurd ⟨(hnil h).mp h₁.1, hslash.mp h₁.2⟩ h₂
          · nofun
      · by_cases h₂ : trim p₂ = [] ∧ c₂ = 47
        · rw [if_neg h₁, if_pos h₂]
          constructor
          · exact fun h => absurd ⟨(hnil h).mpr h₂.1, hslash.mpr h₂.2⟩ h₁
          · nofun
        · rw [if_neg h₁, if_neg h₂, List.map_cons, List.map_cons, heq', List.cons.injEq]
          exact (and_iff_right rfl).symm
  | case3 p₁ p₂ hnot =>
      have hend : matchLoop p₁ p₂ = some (p₁, p₂) ∧ (trim p₁ = [] ∨ trim p₂ = []) := by
        cases p₁ with
        | nil => exact ⟨rfl, Or.inl rfl⟩
        | cons c₁ p₁ =>
            cases p₂ with
            | nil => exact ⟨rfl, Or.inr rfl⟩
            | cons c₂ p₂ => exact absurd rfl (hnot c₁ p₁ c₂ p₂ rfl)
      rw [hend.1]
      simp only [Bool.and_eq_true, List.isEmpty_iff, skipSlashes_eq_nil]
      rcases hend.2 with h | h
      · simp [h]
      · simp [h]

/-- `app_paths_match` compares the applications that the paths denote. -/
theorem appPathsMatch_iff (p₁ p₂ : CString) :
  appPathsMatch p₁ p₂ = true ↔ application p₁ = application p₂
  := matchLoop_iff _ _

end Sched

/-- The kernel, and the path for which the thread in each slot was spawned, if it was. -/
structure Instances where
  kernel : Kernel
  spawnedFor : Nat → Option CString

namespace Instances

open Kernel (Call)

/-- The paths for which the threads are spawned after a call. -/
def record (s : Instances) : Call → Nat → Option CString
  | .spawn (some path) =>
      match s.kernel.spawnMade path with
      | none => s.spawnedFor
      | some slot => Function.update s.spawnedFor slot (some path)
  | _ => s.spawnedFor

/-- Execute a call. -/
def step (s : Instances) (c : Call) : Option Instances :=
  (s.kernel.step c).map (fun k => ⟨k, s.record c⟩)

/-- The state after `sched_init`. -/
def init (k : Kernel) : Instances := ⟨k.schedInit, fun _ => none⟩

/-- Threads that run no application are made at boot, before the first one is spawned; the first
thread neither blocks nor exits, and a thread blocks only while it is not ended. -/
def Permitted (s : Instances) : Call → Prop
  | .block _ => s.kernel.sched.current ≠ 0
      ∧ s.kernel.sched.state s.kernel.sched.current ≠ .terminated
  | .exit _ => s.kernel.sched.current ≠ 0
  | .threadCreate _ | .processCreate => ∀ i, s.spawnedFor i = none
  | _ => True

/-- A path that is spawned denotes the application of its first 63 bytes. -/
def Fits : Call → Prop
  | .spawn (some path) => Sched.appPathsMatch (path.truncate 63) path = true
  | _ => True

/-- No two live threads were spawned for paths that denote the same application. -/
def Single (s : Instances) : Prop :=
  ∀ i < s.kernel.sched.numThreads, ∀ j < s.kernel.sched.numThreads, i ≠ j
    → s.kernel.sched.state i ≠ .terminated → s.kernel.sched.state j ≠ .terminated
    → ∀ p q, s.spawnedFor i = some p → s.spawnedFor j = some q → Sched.appPathsMatch p q = false

/-- The invariant: a live thread keeps a path that denotes the application for which it was
spawned, and of two live threads with such paths, the later one was not spawned. -/
structure Inv (s : Instances) : Prop where
  main : s.kernel.sched.Main
  zero : s.spawnedFor 0 = none
  path : ∀ i < s.kernel.sched.numThreads, s.kernel.sched.state i ≠ .terminated
    → ∀ p, s.spawnedFor i = some p
    → Sched.application (s.kernel.sched.threads i).appPath = Sched.application p
  alone : ∀ i j, 0 < i → i < j → j < s.kernel.sched.numThreads
    → s.kernel.sched.state i ≠ .terminated → s.kernel.sched.state j ≠ .terminated
    → Sched.application (s.kernel.sched.threads i).appPath
      = Sched.application (s.kernel.sched.threads j).appPath
    → s.spawnedFor j = none

theorem Inv.single {s : Instances} (h : s.Inv) :
  s.Single
  := by
  have hlt : ∀ i j, i < j → j < s.kernel.sched.numThreads
      → s.kernel.sched.state i ≠ .terminated → s.kernel.sched.state j ≠ .terminated
      → ∀ p q, s.spawnedFor i = some p → s.spawnedFor j = some q
      → Sched.application p ≠ Sched.application q := by
    intro i j hij hj hi hlive p q hp hq heq
    have hpos : 0 < i := by
      rw [Nat.pos_iff_ne_zero]
      rintro rfl
      rw [h.zero] at hp
      cases hp
    have hnone := h.alone i j hpos hij hj hi hlive (by
      rw [h.path i (Nat.lt_trans hij hj) hi p hp, heq, h.path j hj hlive q hq])
    rw [hnone] at hq
    cases hq
  intro i hi j hj hne hlive hlive' p q hp hq
  rw [Bool.eq_false_iff, ne_eq, Sched.appPathsMatch_iff]
  rcases Nat.lt_or_gt_of_ne hne with hij | hji
  · exact hlt i j hij hj hlive hlive' p q hp hq
  · exact (hlt j i hji hi hlive' hlive q p hq hp).symm

/-- Before the first application is spawned there is nothing to keep. -/
theorem inv_of_none {s : Instances} (hmain : s.kernel.sched.Main) (h : ∀ i, s.spawnedFor i = none) :
  s.Inv
  where
  main := hmain
  zero := h 0
  path i _ _ p hp := by
    rw [h i] at hp
    cases hp
  alone _ j _ _ _ _ _ _ := h j

/-! ### Steps that make no thread -/

/-- The threads that are live were so before, with the same path. -/
structure Fewer (s s' : Sched) : Prop where
  numThreads : s'.numThreads = s.numThreads
  live : ∀ i < s.numThreads, s'.state i ≠ .terminated → s.state i ≠ .terminated
    ∧ (s'.threads i).appPath = (s.threads i).appPath

theorem Fewer.trans {s s' s'' : Sched} (h : Fewer s s') (h' : Fewer s' s'') :
  Fewer s s''
  := by
  use h'.numThreads.trans h.numThreads
  intro i hi hlive
  obtain ⟨hlive', hpath'⟩ := h'.live i (h.numThreads ▸ hi) hlive
  obtain ⟨hlive'', hpath⟩ := h.live i hi hlive'
  exact ⟨hlive'', hpath'.trans hpath⟩

theorem fewer_of_keeps {s s' : Sched} (h : Kernel.Keeps s s') :
  Fewer s s'
  := by
  use h.numThreads
  intro i _ hlive
  constructor
  · exact fun hcon => hlive ((h.terminated i).mpr hcon)
  · have hsame := h.same i
    rw [Thread.Same] at hsame
    rw [hsame]

theorem endThread_fewer (s : Sched) (i : Nat) :
  Fewer s (Kernel.endThread s i)
  := by
  use rfl
  intro j _ hlive
  by_cases hj : j = i
  · subst hj
    exact absurd (congrArg Thread.state (s.modify_threads_self _)) hlive
  · rw [Sched.state, Kernel.endThread, Sched.modify_threads_ne _ _ hj] at *
    exact ⟨hlive, rfl⟩

theorem Inv.fewer {s : Instances} {k : Kernel} (h : s.Inv) (hfewer : Fewer s.kernel.sched k.sched)
    (hmain : k.sched.Main) :
  Inv ⟨k, s.spawnedFor⟩
  where
  main := hmain
  zero := h.zero
  path i hi hlive p hp := by
    have hi' : i < s.kernel.sched.numThreads := hfewer.numThreads ▸ hi
    obtain ⟨hlive', hpath⟩ := hfewer.live i hi' hlive
    dsimp only
    rw [hpath]
    exact h.path i hi' hlive' p hp
  alone i j hpos hij hj hi hlive heq := by
    have hj' : j < s.kernel.sched.numThreads := hfewer.numThreads ▸ hj
    obtain ⟨hi', hpath⟩ := hfewer.live i (Nat.lt_trans hij hj') hi
    obtain ⟨hlive', hpath'⟩ := hfewer.live j hj' hlive
    dsimp only at heq
    rw [hpath, hpath'] at heq
    exact h.alone i j hpos hij hj' hi' hlive' heq

/-! ### Spawning -/

section

variable {s : Instances} {k k' : Kernel} {path : CString} {slot : Nat} {t : Thread}

/-- A slot that is not in use can be written. -/
theorem edits_fewer (h : Kernel.Edits slot t k k') (hstate : t.state = (k.sched.threads slot).state)
    (hfree : slot < k.sched.numThreads → k.sched.state slot = .terminated) :
  Fewer k.sched k'.sched
  := by
  obtain ⟨phys, pmm, fpu, rfl⟩ := h
  use rfl
  intro i hi hlive
  by_cases his : i = slot
  · subst his
    have hended := hfree hi
    rw [Sched.state] at hlive hended
    dsimp only at hlive
    rw [Function.update_self, hstate] at hlive
    exact absurd hended hlive
  · rw [Sched.state] at hlive
    dsimp only at hlive ⊢
    rw [Function.update_of_ne his] at hlive ⊢
    exact ⟨hlive, rfl⟩

/-- A thread that is made for a path keeps the invariant, when the live threads whose paths
denote the same application are behind it and were not spawned. -/
theorem Inv.creates (h : Inv ⟨k, s.spawnedFor⟩) (hcreates : Kernel.Creates slot t k k')
    (hpath : Sched.application t.appPath = Sched.application path) (hslot : slot ≠ 0)
    (hmain : k'.sched.Main)
    (halone : ∀ j, 0 < j → j < k.sched.numThreads → k.sched.state j ≠ .terminated
      → Sched.application (k.sched.threads j).appPath = Sched.application path
      → slot < j ∧ s.spawnedFor j = none) :
  Inv ⟨k', Function.update s.spawnedFor slot (some path)⟩
  := by
  have hthreads : ∀ i, i ≠ slot → k'.sched.threads i = k.sched.threads i := by
    intro i hi
    rw [hcreates.threads, Function.update_of_ne hi]
  have hslotThread : k'.sched.threads slot = t := by
    rw [hcreates.threads, Function.update_self]
  have hlt : ∀ i < k'.sched.numThreads, i ≠ slot → i < k.sched.numThreads := by
    intro i hi hne
    rw [hcreates.numThreads] at hi
    split at hi
    · omega
    · exact hi
  constructor
  case main => exact hmain
  case zero => exact (Function.update_of_ne hslot.symm _ _).trans h.zero
  case path =>
    intro i hi hlive p hp
    by_cases his : i = slot
    · subst his
      dsimp only at hp ⊢
      rw [Function.update_self] at hp
      cases hp
      rw [hslotThread, hpath]
    · dsimp only at hp hlive ⊢
      rw [Function.update_of_ne his] at hp
      rw [Sched.state, hthreads i his] at hlive
      rw [hthreads i his]
      exact h.path i (hlt i hi his) hlive p hp
  case alone =>
    intro i j hpos hij hj hi hlive heq
    dsimp only at hj hi hlive heq ⊢
    by_cases hjs : j = slot
    · subst hjs
      have his := Nat.ne_of_lt hij
      have hi' : i < k.sched.numThreads := hlt i (Nat.lt_trans hij hj) his
      rw [hthreads i his, hslotThread, hpath] at heq
      rw [Sched.state, hthreads i his] at hi
      exact absurd (halone i hpos hi' hi heq).1 (Nat.lt_asymm hij)
    · rw [Function.update_of_ne hjs]
      rw [Sched.state, hthreads j hjs] at hlive
      rw [hthreads j hjs] at heq
      have hj' := hlt j hj hjs
      by_cases his : i = slot
      · subst his
        rw [hslotThread, hpath] at heq
        exact (halone j (Nat.zero_lt_of_lt hij) hj' hlive heq.symm).2
      · rw [Sched.state, hthreads i his] at hi
        rw [hthreads i his] at heq
        exact h.alone i j hpos hij hj' hi hlive heq

/-- In the table with which a new thread is started, the live threads whose paths denote the
same application are behind the free slot and were not spawned. -/
theorem alone_of_spawnTable {σ : Sched} (h : s.Inv) (hσ : s.kernel.spawnTable path = some σ) :
  Fewer s.kernel.sched σ ∧ σ.Main ∧ ∀ j, 0 < j → j < σ.numThreads → σ.state j ≠ .terminated
    → Sched.application (σ.threads j).appPath = Sched.application path
    → σ.freeSlot < j ∧ s.spawnedFor j = none
  := by
  have hmatch : ∀ q : CString, Sched.appPathsMatch q path = false
      → Sched.application q ≠ Sched.application path := by
    intro q hq hcon
    rw [← Sched.appPathsMatch_iff, hq] at hcon
    cases hcon
  have hspec := s.kernel.sched.findInstance_spec path (n := s.kernel.sched.numThreads - 1) (i := 1)
  rcases Kernel.spawnTable_cases hσ with ⟨hnone, rfl⟩ | ⟨i, hi, rfl⟩
  · rw [Kernel.findInstance] at hnone
    rw [hnone] at hspec
    refine ⟨fewer_of_keeps (Kernel.Keeps.refl _), h.main, ?_⟩
    intro j hpos hj hlive heq
    exact absurd heq (hmatch _ (hspec j hpos (by omega) hlive))
  · rw [Kernel.findInstance] at hi
    rw [hi] at hspec
    obtain ⟨hle, hlt, hlivei, hmatchi, hbefore⟩ := hspec
    have hmain : (Kernel.endThread s.kernel.sched i).Main := h.main.modify (by omega) _
    have hended : (Kernel.endThread s.kernel.sched i).state i = .terminated :=
      congrArg Thread.state (s.kernel.sched.modify_threads_self _)
    refine ⟨endThread_fewer _ i, hmain, ?_⟩
    intro j hpos hj hlive heq
    have hji : j ≠ i := by
      rintro rfl
      exact hlive hended
    rw [Sched.state, Kernel.endThread, Sched.modify_threads_ne _ _ hji] at hlive
    rw [Kernel.endThread, Sched.modify_threads_ne _ _ hji] at heq
    have hij : i < j := by
      rcases Nat.lt_or_gt_of_ne hji with hcon | hij
      · exact absurd heq (hmatch _ (hbefore j hpos hcon hlive))
      · exact hij
    constructor
    · obtain ⟨-, -, hfirst⟩ := Sched.freeSlot_spec _ hmain.numThreads_pos
      have hfree : ¬ i < (Kernel.endThread s.kernel.sched i).freeSlot :=
        fun hcon => hfirst i hle hcon hended
      omega
    · apply h.alone i j hle hij hj hlivei hlive
      rw [heq, ← Sched.appPathsMatch_iff]
      exact hmatchi

end

/-! ### Runs -/

theorem Inv.step {s s' : Instances} {c : Call} (h : s.Inv) (hc : s.Permitted c) (hfits : Fits c)
    (hstep : s.step c = some s') :
  s'.Inv
  := by
  obtain ⟨k, hk, rfl⟩ := Option.map_eq_some_iff.mp hstep
  obtain ⟨r, hcall, rfl⟩ := Option.map_eq_some_iff.mp hk
  have hquiet : s.kernel.Quiet c → s.record c = s.spawnedFor → Inv ⟨r.1, s.record c⟩ := by
    intro hq hrecord
    obtain ⟨hkeeps, hmain⟩ := Kernel.call_keeps h.main hq hcall
    rw [hrecord]
    exact h.fewer (fewer_of_keeps hkeeps) hmain
  cases c with
  | exit rsp =>
      obtain ⟨b, hkeeps, hmain⟩ := Kernel.threadExit_keeps h.main hc hcall
      have hwake := fewer_of_keeps (Kernel.wake_keeps s.kernel.sched b)
      exact h.fewer ((hwake.trans (endThread_fewer _ _)).trans (fewer_of_keeps hkeeps)) hmain
  | threadCreate entryPoint =>
      obtain rfl := Option.some.inj hcall
      exact inv_of_none (Kernel.threadCreate_main h.main entryPoint) hc
  | processCreate =>
      obtain rfl := Option.some.inj hcall
      exact inv_of_none (Kernel.processCreate_main h.main) hc
  | spawn path =>
      obtain rfl := Option.some.inj hcall
      cases path with
      | none => exact h
      | some path =>
          rcases s.kernel.woosSystemSpawn_cases path with ⟨hnone, b, hwakes⟩ | ⟨σ, hσ, heq⟩
          · obtain ⟨hkeeps, hmain⟩ := hwakes.keeps h.main
            rw [record, Kernel.spawnMade, hnone]
            exact h.fewer (fewer_of_keeps hkeeps) hmain
          · obtain ⟨hfewer, hmain, halone⟩ := alone_of_spawnTable h hσ
            have hinv : Inv ⟨{ s.kernel with sched := σ }, s.spawnedFor⟩ := h.fewer hfewer hmain
            obtain ⟨hpos, hfree, -⟩ := σ.freeSlot_spec hmain.numThreads_pos
            rw [record, Kernel.spawnMade, hσ, heq, Option.bind_some]
            rcases Kernel.spawnNew_cases { s.kernel with sched := σ } path
              with ⟨hnone, t, hedits, hstate, -⟩ | ⟨hsome, -, t, hcreates, hpath⟩
            · rw [hnone]
              apply hinv.fewer (edits_fewer hedits hstate _) (hedits.main hmain hpos.ne')
              intro hlt
              rcases hfree with hended | hend
              · exact hended.2
              · exact absurd hend (Nat.ne_of_lt hlt)
            · rw [hsome]
              refine hinv.creates hcreates ?_ hpos.ne' (hcreates.main hmain hpos.ne') halone
              rw [hpath, ← Sched.appPathsMatch_iff]
              exact hfits
  | timer rsp => exact hquiet trivial rfl
  | yield rsp => exact hquiet trivial rfl
  | irq events rsp => exact hquiet trivial rfl
  | block rsp => exact hquiet hc rfl
  | unblockAll => exact hquiet trivial rfl
  | send destId type arg1 arg2 arg3 arg4 arg5 => exact hquiet trivial rfl
  | recv => exact hquiet trivial rfl
  | other k' => exact hquiet trivial rfl

/-- In every state that a run reaches in which every path that is spawned denotes the application
of its first 63 bytes, no two live threads were spawned for the same application. -/
theorem single_instances (k : Kernel) (calls : List Call)
    (hcalls : Run.Guarded step (fun s c => s.Permitted c ∧ Fits c) (init k) calls)
    {s : Instances} (hrun : Run.exec step (init k) calls = some s) :
  s.Single
  := by
  have hinit : (init k).Inv := inv_of_none k.schedInit_main (fun _ => rfl)
  have hstep : ∀ (s : Instances) (c : Call) (s' : Instances), s.Inv → s.Permitted c ∧ Fits c
      → s.step c = some s' → s'.Inv := by
    intro s c s' hs hc
    exact hs.step hc.1 hc.2
  exact (Run.exec_safe hstep hinit hcalls hrun).single

/-- A path of letters. -/
def letters (n : Nat) : CString where
  bytes := List.replicate n 97
  ne_zero b hb := by
    rw [List.eq_of_mem_replicate hb]
    decide

/-- The case of an application that is spawned twice. -/
theorem single_instances_twice :
  ∃ s, Run.exec step (init Kernel.boot)
      [.threadCreate 0x9000, .spawn (letters 3), .spawn (letters 3)] = some s
    ∧ s.Single
  := by
  have hfits : Sched.appPathsMatch ((letters 3).truncate 63) (letters 3) = true := by
    decide +kernel
  have hguard : Run.Guarded step (fun s c => s.Permitted c ∧ Fits c) (init Kernel.boot)
      [.threadCreate 0x9000, .spawn (letters 3), .spawn (letters 3)] :=
    ⟨⟨fun _ => rfl, trivial⟩, fun _ _ => ⟨⟨trivial, hfits⟩, fun _ _ => ⟨⟨trivial, hfits⟩,
      fun _ _ => trivial⟩⟩⟩
  obtain ⟨s, hs⟩ : ∃ s, Run.exec step (init Kernel.boot)
      [.threadCreate 0x9000, .spawn (letters 3), .spawn (letters 3)] = some s := by
    apply Option.isSome_iff_exists.mp
    decide +kernel
  exact ⟨s, hs, single_instances Kernel.boot _ hguard hs⟩

/-- A path of 64 letters that is spawned twice has two threads. -/
theorem not_single_long :
  Run.Guarded step Permitted (init Kernel.boot) [.spawn (letters 64), .spawn (letters 64)]
    ∧ ∃ s, Run.exec step (init Kernel.boot) [.spawn (letters 64), .spawn (letters 64)] = some s
      ∧ ¬ s.Single
  := by
  have hrun : (Run.exec step (init Kernel.boot)
      [.spawn (letters 64), .spawn (letters 64)]).map (fun s =>
        (s.kernel.sched.numThreads, s.kernel.sched.state 1, s.kernel.sched.state 2,
          s.spawnedFor 1, s.spawnedFor 2))
        = some (3, .ready, .ready, some (letters 64), some (letters 64)) := by
    decide +kernel
  constructor
  · exact ⟨trivial, fun _ _ => ⟨trivial, fun _ _ => trivial⟩⟩
  · obtain ⟨s, hs, hreads⟩ := Option.map_eq_some_iff.mp hrun
    simp only [Prod.mk.injEq] at hreads
    obtain ⟨hnum, hready, hready', hfor, hfor'⟩ := hreads
    use s, hs
    intro hsingle
    have hcon := hsingle 1 (by omega) 2 (by omega) (by decide) (by rw [hready]; nofun)
      (by rw [hready']; nofun) _ _ hfor hfor'
    rw [Bool.eq_false_iff] at hcon
    apply hcon
    rw [Sched.appPathsMatch_iff]

end Instances
