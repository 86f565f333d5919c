import Woos.Lib.Calls

/-!
# Running a program file

`wasm_runtime_run_file` reads a file into a block of the heap, parses the module in it, loads it into
a runtime and calls its entry function.  Every call may fail, and what it answers is given by `Env`.

`Held` follows what is acquired and released meanwhile, by the rules of the interpreter: the bytes of
a module have to stay in place as long as the module lives, a module that has been loaded belongs to
its runtime and goes with it, and an environment goes after its runtimes and modules.  `runFile_ends`
says that the rules are kept whatever the calls answer, that nothing is held in the end, and when the
entry function is called.  The messages on the serial port are left out.
-/

namespace WasmRuntime

/-- The calls, with the handles and pointers that they are given. -/
inductive Op where
  | vfsOpen
  | vfsSize (fd : Int)
  | vfsRead (fd block size : Int)
  | vfsClose (fd : Int)
  | kheapAlloc (size : Int)
  | kheapFree (block : Int)
  | newEnvironment
  | freeEnvironment (environment : Int)
  | newRuntime (environment : Int)
  | freeRuntime (runtime : Int)
  | parseModule (environment block size : Int)
  | loadModule (runtime module : Int)
  | freeModule (module : Int)
  | linkWasi (module : Int)
  | findFunction (runtime : Int) (name : String)
  | call (function : Int)
  | errorInfo (runtime : Int)
  deriving DecidableEq

/-- What a call returns: a handle, a pointer or an error, and the pointer that it stores, if any. -/
structure Answer where
  value : Int
  out : Int
  deriving DecidableEq

/-- A call and its answer. -/
structure Event where
  op : Op
  answer : Answer

/-- The answers to the calls. -/
def Env : Type := Op → Answer

/-- `m3Err_trapExit` is the error with which a program ends itself. -/
def trapExit : Int := 1

/-- Make a call. -/
def ask (env : Env) (op : Op) : Calls Event Answer := do
  Calls.call ⟨op, env op⟩
  pure (env op)

/-- Make a call that returns nothing. -/
def tell (op : Op) : Calls Event Unit := Calls.call ⟨op, ⟨0, 0⟩⟩

/-- The calls with which most branches end. -/
def freeAll (runtime environment block : Int) : Calls Event Unit := do
  tell (.freeRuntime runtime)
  tell (.freeEnvironment environment)
  tell (.kheapFree block)

/-- Call the entry function: the last part of `wasm_runtime_run_file`. -/
def callEntry (env : Env) (environment runtime block function : Int) : Calls Event Unit := do
  let res ← ask env (.call function)
  if res.value ≠ 0 ∧ res.value ≠ trapExit then
    tell (.errorInfo runtime)
    freeAll runtime environment block
  else
    freeAll runtime environment block

/-- Look for the entry function, `_start` or `main`. -/
def findEntry (env : Env) (environment runtime block : Int) : Calls Event Unit := do
  let start ← ask env (.findFunction runtime "_start")
  if start.value ≠ 0 then
    let main ← ask env (.findFunction runtime "main")
    if main.value ≠ 0 then
      freeAll runtime environment block
    else
      callEntry env environment runtime block main.out
  else
    callEntry env environment runtime block start.out

/-- Load the module in the bytes of the block. -/
def runModule (env : Env) (environment runtime block size : Int) : Calls Event Unit := do
  let parsed ← ask env (.parseModule environment block size)
  if parsed.value ≠ 0 then
    freeAll runtime environment block
  else
    let loaded ← ask env (.loadModule runtime parsed.out)
    if loaded.value ≠ 0 then
      tell (.freeModule parsed.out)
      freeAll runtime environment block
    else
      let linked ← ask env (.linkWasi parsed.out)
      if linked.value ≠ 0 then
        freeAll runtime environment block
      else
        findEntry env environment runtime block

/-- Make an environment and a runtime for the bytes of the block. -/
def runBytes (env : Env) (block size : Int) : Calls Event Unit := do
  let environment ← ask env .newEnvironment
  if environment.value = 0 then
    tell (.kheapFree block)
  else
    let runtime ← ask env (.newRuntime environment.value)
    if runtime.value = 0 then
      tell (.freeEnvironment environment.value)
      tell (.kheapFree block)
    else
      runModule env environment.value runtime.value block size

/-- `wasm_runtime_run_file` -/
def runFile (env : Env) : Calls Event Unit := do
  let fd ← ask env .vfsOpen
  if fd.value < 0 then
    pure ()
  else
    let size ← ask env (.vfsSize fd.value)
    if size.value = 0 ∨ size.value = 0xFFFFFFFF then
      tell (.vfsClose fd.value)
    else
      let block ← ask env (.kheapAlloc size.value)
      if block.value = 0 then
        tell (.vfsClose fd.value)
      else
        let readBytes ← ask env (.vfsRead fd.value block.value size.value)
        if readBytes.value ≠ size.value then
          tell (.kheapFree block.value)
          tell (.vfsClose fd.value)
        else
          tell (.vfsClose fd.value)
          runBytes env block.value size.value

/-! ### What is held -/

/-- A module, the bytes that it has been parsed from, and the runtime that it belongs to, if any. -/
structure Module where
  pointer : Int
  environment : Int
  block : Int
  runtime : Option Int
  deriving DecidableEq

/-- What has been acquired, and how often an entry function has been called. -/
structure Held where
  files : List Int
  blocks : List Int
  environments : List Int
  runtimes : List (Int × Int)
  modules : List Module
  functions : List (Int × Int)
  called : Nat
  deriving DecidableEq

namespace Held

/-- Nothing is held. -/
def nothing : Held := ⟨[], [], [], [], [], [], 0⟩

/-- What is held after a call: none when the call uses or releases something that is not held, or
releases something that is still needed. -/
def step : Option Held → Event → Option Held
  | none, _ => none
  | some h, ⟨op, a⟩ =>
    match op with
    | .vfsOpen => if a.value < 0 then some h else some { h with files := a.value :: h.files }
    | .vfsSize fd => if fd ∈ h.files then some h else none
    | .vfsRead fd block _ => if fd ∈ h.files ∧ block ∈ h.blocks then some h else none
    | .vfsClose fd => if fd ∈ h.files then some { h with files := h.files.erase fd } else none
    | .kheapAlloc _ => if a.value = 0 then some h else some { h with blocks := a.value :: h.blocks }
    | .kheapFree block =>
      if block ∈ h.blocks ∧ ∀ m ∈ h.modules, m.block ≠ block then
        some { h with blocks := h.blocks.erase block }
      else none
    | .newEnvironment =>
      if a.value = 0 then some h else some { h with environments := a.value :: h.environments }
    | .freeEnvironment environment =>
      if environment ∈ h.environments ∧ (∀ r ∈ h.runtimes, r.2 ≠ environment)
          ∧ ∀ m ∈ h.modules, m.environment ≠ environment then
        some { h with environments := h.environments.erase environment }
      else none
    | .newRuntime environment =>
      if environment ∈ h.environments then
        if a.value = 0 then some h
        else some { h with runtimes := (a.value, environment) :: h.runtimes }
      else none
    | .freeRuntime runtime =>
      if ∃ r ∈ h.runtimes, r.1 = runtime ∧ r.2 ∈ h.environments then
        some { h with
          runtimes := h.runtimes.filter (fun r => r.1 ≠ runtime)
          modules := h.modules.filter (fun m => m.runtime ≠ some runtime)
          functions := h.functions.filter (fun f => f.2 ≠ runtime) }
      else none
    | .parseModule environment block _ =>
      if environment ∈ h.environments ∧ block ∈ h.blocks then
        if a.value ≠ 0 then some h
        else some { h with modules := ⟨a.out, environment, block, none⟩ :: h.modules }
      else none
    | .loadModule runtime module =>
      if (∃ r ∈ h.runtimes, r.1 = runtime)
          ∧ ∃ m ∈ h.modules, m.pointer = module ∧ m.runtime = none then
        if a.value ≠ 0 then some h
        else some { h with
          modules := h.modules.map (fun m => if m.pointer = module then { m with runtime := some runtime }
            else m) }
      else none
    | .freeModule module =>
      if ∃ m ∈ h.modules, m.pointer = module ∧ m.runtime = none then
        some { h with modules := h.modules.filter (fun m => m.pointer ≠ module) }
      else none
    | .linkWasi module =>
      if ∃ m ∈ h.modules, m.pointer = module ∧ m.runtime ≠ none then some h else none
    | .findFunction runtime _ =>
      if ∃ r ∈ h.runtimes, r.1 = runtime then
        if a.value ≠ 0 then some h else some { h with functions := (a.out, runtime) :: h.functions }
      else none
    | .call function =>
      if ∃ f ∈ h.functions, f.1 = function then some { h with called := h.called + 1 } else none
    | .errorInfo runtime => if ∃ r ∈ h.runtimes, r.1 = runtime then some h else none

end Held

/-- The entry function is found under one of its names. -/
def Found (env : Env) (runtime : Int) : Prop :=
  (env (.findFunction runtime "_start")).value = 0 ∨ (env (.findFunction runtime "main")).value = 0

/-- The module in the bytes of the block can be run. -/
def ModuleLoads (env : Env) (environment runtime block size : Int) : Prop :=
  let parsed := env (.parseModule environment block size)
  parsed.value = 0 ∧ (env (.loadModule runtime parsed.out)).value = 0
    ∧ (env (.linkWasi parsed.out)).value = 0 ∧ Found env runtime

/-- There are an environment and a runtime for the bytes of the block, and the module can be run. -/
def BytesLoad (env : Env) (block size : Int) : Prop :=
  let environment := (env .newEnvironment).value
  let runtime := (env (.newRuntime environment)).value
  environment ≠ 0 ∧ runtime ≠ 0 ∧ ModuleLoads env environment runtime block size

/-- The file is read as a whole, and the module in it can be run. -/
def FileLoads (env : Env) : Prop :=
  let fd := (env .vfsOpen).value
  let size := (env (.vfsSize fd)).value
  let block := (env (.kheapAlloc size)).value
  0 ≤ fd ∧ size ≠ 0 ∧ size ≠ 0xFFFFFFFF ∧ block ≠ 0 ∧ (env (.vfsRead fd block size)).value = size
    ∧ BytesLoad env block size

instance (env : Env) (runtime : Int) : Decidable (Found env runtime) :=
  inferInstanceAs (Decidable (_ ∨ _))

instance (env : Env) (environment runtime block size : Int) :
    Decidable (ModuleLoads env environment runtime block size) :=
  inferInstanceAs (Decidable (_ ∧ _))

instance (env : Env) (block size : Int) : Decidable (BytesLoad env block size) :=
  inferInstanceAs (Decidable (_ ∧ _))

instance (env : Env) : Decidable (FileLoads env) := inferInstanceAs (Decidable (_ ∧ _))

/-- Nothing is held, and an entry function has been called so often. -/
def Held.after (called : Nat) : Held := { Held.nothing with called := called }

variable {env : Env} {h h' : Held} {environment runtime block size : Int} {called : Nat}

/-- The computation returns, and then so much is held. -/
def Runs (h : Held) (x : Calls Event Unit) (h' : Held) : Prop :=
  Calls.Leads Held.step (some h) x (fun _ r => r = some h')

theorem ask_runs {op : Op} {f : Answer → Calls Event Unit} {k : Held}
    (hstep : Held.step (some h) ⟨op, env op⟩ = some k) (hrest : Runs k (f (env op)) h') :
  Runs h (ask env op >>= f) h'
  := by
  apply Calls.Leads.bind (P := fun a r => a = env op ∧ r = some k)
  · apply Calls.Leads.call_bind
    exact Calls.Leads.pure ⟨rfl, hstep⟩
  · rintro a r ⟨rfl, rfl⟩
    exact hrest

theorem tell_runs {op : Op} {f : Unit → Calls Event Unit} {k : Held}
    (hstep : Held.step (some h) ⟨op, ⟨0, 0⟩⟩ = some k) (hrest : Runs k (f ()) h') :
  Runs h (tell op >>= f) h'
  := by
  apply Calls.Leads.call_bind
  rw [hstep]
  exact hrest

theorem tell_last {op : Op} (hstep : Held.step (some h) ⟨op, ⟨0, 0⟩⟩ = some h') :
  Runs h (tell op) h'
  := Calls.Leads.call hstep

/-! ### Every way through -/

/-- The runtime goes with its modules and functions, then the environment, and the bytes last. -/
theorem freeAll_runs {modules : List Module} {functions : List (Int × Int)}
    (hmodules : ∀ m ∈ modules, m.runtime = some runtime) (hfunctions : ∀ f ∈ functions, f.2 = runtime) :
  Runs ⟨[], [block], [environment], [(runtime, environment)], modules, functions, called⟩
    (freeAll runtime environment block) (.after called)
  := by
  apply tell_runs (k := ⟨[], [block], [environment], [], [], [], called⟩)
  · simp only [Held.step]
    rw [if_pos ⟨_, List.mem_singleton_self _, rfl, List.mem_singleton_self _⟩]
    simpa using ⟨hmodules, fun f r hf => hfunctions (f, r) hf⟩
  apply tell_runs (k := ⟨[], [block], [], [], [], [], called⟩)
  · simp [Held.step]
  apply tell_last
  simp [Held.step, Held.after, Held.nothing]

theorem callEntry_runs {modules : List Module} {functions : List (Int × Int)} {function : Int}
    (hmodules : ∀ m ∈ modules, m.runtime = some runtime) (hfunctions : ∀ f ∈ functions, f.2 = runtime)
    (hfunction : (function, runtime) ∈ functions) :
  Runs ⟨[], [block], [environment], [(runtime, environment)], modules, functions, called⟩
    (callEntry env environment runtime block function) (.after (called + 1))
  := by
  have hcall (a : Answer) : Held.step (some ⟨[], [block], [environment], [(runtime, environment)], modules,
        functions, called⟩) ⟨.call function, a⟩
      = some ⟨[], [block], [environment], [(runtime, environment)], modules, functions, called + 1⟩ :=
    if_pos ⟨_, hfunction, rfl⟩
  apply ask_runs (hcall _)
  split_ifs
  · apply tell_runs
    · exact if_pos ⟨_, List.mem_singleton_self _, rfl⟩
    · exact freeAll_runs hmodules hfunctions
  · exact freeAll_runs hmodules hfunctions

theorem findEntry_runs {modules : List Module} (hmodules : ∀ m ∈ modules, m.runtime = some runtime) :
  Runs ⟨[], [block], [environment], [(runtime, environment)], modules, [], called⟩
    (findEntry env environment runtime block)
    (.after (if Found env runtime then called + 1 else called))
  := by
  have hnone : ∀ f ∈ ([] : List (Int × Int)), f.2 = runtime := by simp
  have hone (f : Int) : ∀ g ∈ [(f, runtime)], g.2 = runtime := by simp
  by_cases hstart : (env (.findFunction runtime "_start")).value = 0
  · rw [if_pos (.inl hstart)]
    apply ask_runs (k := ⟨[], [block], [environment], [(runtime, environment)], modules,
      [((env (.findFunction runtime "_start")).out, runtime)], called⟩)
    · simp [Held.step, hstart]
    · rw [if_neg (not_not.mpr hstart)]
      exact callEntry_runs hmodules (hone _) (List.mem_singleton_self _)
  · apply ask_runs (k := ⟨[], [block], [environment], [(runtime, environment)], modules, [], called⟩)
    · simp [Held.step, hstart]
    rw [if_pos hstart]
    by_cases hmain : (env (.findFunction runtime "main")).value = 0
    · rw [if_pos (.inr hmain)]
      apply ask_runs (k := ⟨[], [block], [environment], [(runtime, environment)], modules,
        [((env (.findFunction runtime "main")).out, runtime)], called⟩)
      · simp [Held.step, hmain]
      · rw [if_neg (not_not.mpr hmain)]
        exact callEntry_runs hmodules (hone _) (List.mem_singleton_self _)
    · have hlost : ¬ Found env runtime := not_or.mpr ⟨hstart, hmain⟩
      rw [if_neg hlost]
      apply ask_runs (k := ⟨[], [block], [environment], [(runtime, environment)], modules, [], called⟩)
      · simp [Held.step, hmain]
      · rw [if_pos hmain]
        exact freeAll_runs hmodules hnone

theorem runModule_runs :
  Runs ⟨[], [block], [environment], [(runtime, environment)], [], [], called⟩
    (runModule env environment runtime block size)
    (.after (if ModuleLoads env environment runtime block size then called + 1 else called))
  := by
  have hnone : ∀ m ∈ ([] : List Module), m.runtime = some runtime := by simp
  have hnofunction : ∀ f ∈ ([] : List (Int × Int)), f.2 = runtime := by simp
  by_cases hparsed : (env (.parseModule environment block size)).value = 0
  · have hstep : Held.step (some ⟨[], [block], [environment], [(runtime, environment)], [], [], called⟩)
        ⟨.parseModule environment block size, env (.parseModule environment block size)⟩
        = some ⟨[], [block], [environment], [(runtime, environment)],
          [⟨(env (.parseModule environment block size)).out, environment, block, none⟩], [], called⟩ := by
      simp [Held.step, hparsed]
    apply ask_runs hstep
    rw [if_neg (not_not.mpr hparsed)]
    simp only [ModuleLoads, hparsed, true_and]
    generalize (env (.parseModule environment block size)).out = module
    have hloaded : ∀ m ∈ [(⟨module, environment, block, some runtime⟩ : Module)],
        m.runtime = some runtime := by simp
    by_cases hload : (env (.loadModule runtime module)).value = 0
    · apply ask_runs (k := ⟨[], [block], [environment], [(runtime, environment)],
        [⟨module, environment, block, some runtime⟩], [], called⟩)
      · simp [Held.step, hload]
      rw [if_neg (not_not.mpr hload)]
      apply ask_runs (k := ⟨[], [block], [environment], [(runtime, environment)],
        [⟨module, environment, block, some runtime⟩], [], called⟩)
      · simp [Held.step]
      by_cases hlink : (env (.linkWasi module)).value = 0
      · rw [if_neg (not_not.mpr hlink)]
        simp only [hload, hlink, true_and]
        exact findEntry_runs hloaded
      · have hfails : ¬ ((env (.loadModule runtime module)).value = 0
            ∧ (env (.linkWasi module)).value = 0 ∧ Found env runtime) := fun h => hlink h.2.1
        rw [if_pos hlink, if_neg hfails]
        exact freeAll_runs hloaded hnofunction
    · have hfails : ¬ ((env (.loadModule runtime module)).value = 0
          ∧ (env (.linkWasi module)).value = 0 ∧ Found env runtime) := fun h => hload h.1
      rw [if_neg hfails]
      apply ask_runs (k := ⟨[], [block], [environment], [(runtime, environment)],
        [⟨module, environment, block, none⟩], [], called⟩)
      · simp [Held.step, hload]
      rw [if_pos hload]
      apply tell_runs (k := ⟨[], [block], [environment], [(runtime, environment)], [], [], called⟩)
      · simp [Held.step]
      · exact freeAll_runs hnone hnofunction
  · have hfails : ¬ ModuleLoads env environment runtime block size := fun h => hparsed h.1
    rw [if_neg hfails]
    apply ask_runs (k := ⟨[], [block], [environment], [(runtime, environment)], [], [], called⟩)
    · simp [Held.step, hparsed]
    · rw [if_pos hparsed]
      exact freeAll_runs hnone hnofunction

theorem runBytes_runs :
  Runs ⟨[], [block], [], [], [], [], called⟩ (runBytes env block size)
    (.after (if BytesLoad env block size then called + 1 else called))
  := by
  by_cases henvironment : (env .newEnvironment).value = 0
  · have hfails : ¬ BytesLoad env block size := fun h => h.1 henvironment
    rw [if_neg hfails]
    apply ask_runs (k := ⟨[], [block], [], [], [], [], called⟩)
    · simp [Held.step, henvironment]
    rw [if_pos henvironment]
    apply tell_last
    simp [Held.step, Held.after, Held.nothing]
  apply ask_runs (k := ⟨[], [block], [(env .newEnvironment).value], [], [], [], called⟩)
  · simp [Held.step, henvironment]
  rw [if_neg henvironment]
  by_cases hruntime : (env (.newRuntime (env .newEnvironment).value)).value = 0
  · have hfails : ¬ BytesLoad env block size := fun h => h.2.1 hruntime
    rw [if_neg hfails]
    apply ask_runs (k := ⟨[], [block], [(env .newEnvironment).value], [], [], [], called⟩)
    · simp [Held.step, hruntime]
    rw [if_pos hruntime]
    apply tell_runs (k := ⟨[], [block], [], [], [], [], called⟩)
    · simp [Held.step]
    apply tell_last
    simp [Held.step, Held.after, Held.nothing]
  · have hiff : BytesLoad env block size ↔ ModuleLoads env (env .newEnvironment).value
        (env (.newRuntime (env .newEnvironment).value)).value block size := by
      simp only [BytesLoad, ne_eq, henvironment, hruntime, not_false_eq_true, true_and]
    apply ask_runs (k := ⟨[], [block], [(env .newEnvironment).value],
      [((env (.newRuntime (env .newEnvironment).value)).value, (env .newEnvironment).value)], [], [],
      called⟩)
    · simp [Held.step, hruntime]
    rw [if_neg hruntime]
    simp only [hiff]
    exact runModule_runs

/-- Whatever the calls answer, the function returns, every call uses only what is held and releases it
once, nothing is held in the end, and the entry function has been called once when the program could
be loaded, and not at all otherwise. -/
theorem runFile_runs (env : Env) :
  Runs .nothing (runFile env) (.after (if FileLoads env then 1 else 0))
  := by
  by_cases hopen : (env .vfsOpen).value < 0
  · have hfails : ¬ FileLoads env := fun h => absurd h.1 (by omega)
    rw [if_neg hfails]
    apply ask_runs (k := .nothing)
    · exact if_pos hopen
    rw [if_pos hopen]
    exact Calls.Leads.pure rfl
  apply ask_runs (k := ⟨[(env .vfsOpen).value], [], [], [], [], [], 0⟩)
  · exact if_neg hopen
  rw [if_neg hopen]
  generalize hfd : (env .vfsOpen).value = fd at hopen
  apply ask_runs (k := ⟨[fd], [], [], [], [], [], 0⟩)
  · simp [Held.step]
  have hclose : Held.step (some ⟨[fd], [], [], [], [], [], 0⟩) ⟨.vfsClose fd, ⟨0, 0⟩⟩
      = some (.after 0) := by
    simp [Held.step, Held.after, Held.nothing]
  by_cases hsize : (env (.vfsSize fd)).value = 0 ∨ (env (.vfsSize fd)).value = 0xFFFFFFFF
  · have hfails : ¬ FileLoads env := by
      rintro ⟨-, hne, hne', -⟩
      rw [hfd] at hne hne'
      exact hsize.elim hne hne'
    rw [if_neg hfails, if_pos hsize]
    exact tell_last hclose
  rw [if_neg hsize]
  generalize hn : (env (.vfsSize fd)).value = size at hsize
  by_cases halloc : (env (.kheapAlloc size)).value = 0
  · have hfails : ¬ FileLoads env := by
      rintro ⟨-, -, -, hne, -⟩
      rw [hfd, hn] at hne
      exact hne halloc
    rw [if_neg hfails]
    apply ask_runs (k := ⟨[fd], [], [], [], [], [], 0⟩)
    · exact if_pos halloc
    rw [if_pos halloc]
    exact tell_last hclose
  apply ask_runs (k := ⟨[fd], [(env (.kheapAlloc size)).value], [], [], [], [], 0⟩)
  · exact if_neg halloc
  rw [if_neg halloc]
  generalize hp : (env (.kheapAlloc size)).value = block at halloc
  apply ask_runs (k := ⟨[fd], [block], [], [], [], [], 0⟩)
  · simp [Held.step]
  by_cases hread : (env (.vfsRead fd block size)).value = size
  · have hiff : FileLoads env ↔ BytesLoad env block size := by
      simp only [FileLoads, hfd, hn, hp, hread, ne_eq, halloc, not_or.mp hsize, not_false_eq_true, true_and,
        and_iff_right_iff_imp]
      intro
      omega
    rw [if_neg (not_not.mpr hread)]
    apply tell_runs (k := ⟨[], [block], [], [], [], [], 0⟩)
    · simp [Held.step]
    simp only [hiff]
    exact runBytes_runs
  · have hfails : ¬ FileLoads env := by
      rintro ⟨-, -, -, -, heq, -⟩
      rw [hfd, hn, hp] at heq
      exact hread heq
    rw [if_neg hfails, if_pos hread]
    apply tell_runs (k := ⟨[fd], [], [], [], [], [], 0⟩)
    · simp [Held.step]
    exact tell_last hclose

end WasmRuntime
