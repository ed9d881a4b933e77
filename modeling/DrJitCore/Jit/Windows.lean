import DrJitCore.Jit.Threads

/-!
# The unlocked windows of the sync calls

Every call holds `state.mutex` throughout except the sync calls, whose `unlock_guard` windows
interleave with the calls of other threads (`Sys.run`).  Run serially, the windowed system is the
atomic one (`Sys.run_serialSchedule`); with quiescent shutdowns no step reads a deleted ThreadState
(`run_ne_undefined_of_safeSchedule`), and a shutdown during a window frees what the window reads.
-/

namespace DrJitCore
namespace Jit

/-! ## Calls that hold the mutex throughout -/

/-- How a call of the variable store ends: a failure the store reports is fatal. -/
def JitState.storeOutcome (s : JitState) : Option VarStore → Outcome Unit
  | some store => .done () { s with store }
  | none => .failed

/-- How a call ends when it holds `state.mutex` from its start to its end. -/
def JitOp.outcome (op : JitOp) (s : JitState) : Outcome Unit :=
  match op.call with
  | .init llvm cuda probes => jitInit llvm cuda probes s
  | .shutdown => jitShutdown op.thread s
  | .threadState cuda => (threadState op.thread cuda s).bind fun _ s => .done () s
  | .cudaSetDevice device => jitCudaSetDevice op.thread device s
  | .cudaStream => (jitCudaStream op.thread s).bind fun _ s => .done () s
  | .cudaContext => (jitCudaContext op.thread s).bind fun _ s => .done () s
  | .syncThread => jitSyncThread op.thread s
  | .syncDevice => jitSyncDevice op.thread s
  | .syncAllDevices => jitSyncAllDevices s
  | .varNew v => s.storeOutcome ((jitVarNew v s.store).map (·.2))
  | .varIncRefExt index => s.storeOutcome (jitVarIncRefExt index s.store)
  | .varDecRefExt index => s.storeOutcome (jitVarDecRefExt index s.store)
  | .logSetStderr level => .done () { s with logLevelStderr := level }
  | .setLogCallback level => .done () { s with logLevelCallback := level }

theorem Outcome.state?_bind_done {α : Type} (o : Outcome α) :
    (o.bind fun _ s => (Outcome.done () s : Outcome Unit)).state? = o.state? := by
  cases o <;> rfl

theorem JitState.withStore_eq (s : JitState) (store : Option VarStore) :
    s.withStore store = (s.storeOutcome store).state? := by
  cases store <;> rfl

theorem JitOp.next_eq_state? (op : JitOp) (s : JitState) : op.next s = (op.outcome s).state? := by
  obtain ⟨thread, call⟩ := op
  cases call <;>
    simp only [JitOp.next, JitOp.outcome, Outcome.state?_bind_done, JitState.withStore_eq] <;> rfl

/-! ## Windows -/

/-- What a thread inside a sync call does next, with the mutex released. -/
inductive WindowStep
  /-- `jit_sync_thread` on the caller's own CUDA or LLVM ThreadState, in `jit_sync_thread()`. -/
  | syncOwn (cuda : Bool)
  /-- `cuCtxSynchronize()` in `jit_sync_device`, on the copied `thread_state_cuda`. -/
  | syncContext (address : Nat)
  /-- `jit_sync_device` retakes the mutex and copies `state.tss` if `thread_state_llvm` is set. -/
  | snapshotCpu
  /-- `if (!ts->cuda) jit_sync_thread(ts)` in `jit_sync_device`, on a ThreadState of the copy. -/
  | syncCpu (address : Nat)
  /-- `jit_sync_thread(ts)` in `jit_sync_all_devices`, on a ThreadState of the copy. -/
  | syncThread (address : Nat)
deriving DecidableEq, Repr

/-- The ThreadState pointer a step copied before the mutex was released. -/
def WindowStep.pointer : WindowStep → Option Nat
  | .syncContext address | .syncCpu address | .syncThread address => some address
  | .syncOwn _ | .snapshotCpu => none

/-- The CPU loop of `jit_sync_device`: over a copy of `state.tss` if the caller runs on the CPU. -/
def cpuWindow (thread : Nat) (s : JitState) : List WindowStep :=
  (if (s.threadStateLlvm thread).isSome then s.tss else []).map .syncCpu

/-- One step of a window, and the steps it puts in front of the rest of the window. -/
def WindowStep.run (thread : Nat) : WindowStep → JitState → Outcome (List WindowStep)
  | .syncOwn cuda, s =>
    (jitSyncThreadOf (s.threadStateOf cuda thread) s).bind fun _ s => .done [] s
  | .syncContext address, s =>
    match s.heap address with
    | none => .undefined
    | some ts => .done [] (s.syncContext ts.context)
  | .snapshotCpu, s => .done (cpuWindow thread s) s
  | .syncCpu address, s => (syncCpuThreadState address s).bind fun _ s => .done [] s
  | .syncThread address, s => (jitSyncThreadOf (some address) s).bind fun _ s => .done [] s

/-- A call up to where it releases the mutex: a sync call opens its window, any other call ends. -/
def JitOp.start (op : JitOp) (s : JitState) : Outcome (List WindowStep) :=
  match op.call with
  | .syncThread => .done [.syncOwn true, .syncOwn false] s
  | .syncDevice =>
    .done
      (match s.threadStateCuda op.thread with
        | some address => [.syncContext address, .snapshotCpu]
        | none => cpuWindow op.thread s) s
  | .syncAllDevices => .done (s.tss.map .syncThread) s
  | _ => (op.outcome s).bind fun _ s => .done [] s

/-- The number of steps a call takes with the mutex released when no other thread runs. -/
def JitOp.windowLength (op : JitOp) (s : JitState) : Nat :=
  match op.call with
  | .syncThread => 2
  | .syncDevice =>
    (cpuWindow op.thread s).length + if (s.threadStateCuda op.thread).isSome then 2 else 0
  | .syncAllDevices => s.tss.length
  | _ => 0

/-! ## Schedules -/

/-- The process and the threads inside a window, each with the steps it has left. -/
structure Sys where
  state : JitState
  windows : List (Nat × List WindowStep)

/-- The windows with a thread's replaced; an empty one is a call that has returned. -/
def setWindow (windows : List (Nat × List WindowStep)) (thread : Nat) :
    List WindowStep → List (Nat × List WindowStep)
  | [] => windows.filter (·.1 != thread)
  | step :: rest => (thread, step :: rest) :: windows.filter (·.1 != thread)

/-- The steps a thread has left in its window. -/
def Sys.window (sys : Sys) (thread : Nat) : List WindowStep :=
  (sys.windows.lookup thread).getD []

/-- The thread is inside a sync call with the mutex released. -/
def Sys.inside (sys : Sys) (thread : Nat) : Bool :=
  sys.windows.any (·.1 == thread)

/-- Where a schedule leaves the process. -/
inductive SysOutcome
  /-- Every event so far returned, raised or waited. -/
  | running (sys : Sys)
  /-- `jit_fail` ended the process. -/
  | failed
  /-- A step read a deleted ThreadState. -/
  | undefined

/-- An event of a schedule. -/
inductive Event
  /-- A thread makes a call. -/
  | call (op : JitOp)
  /-- A thread inside a window takes its next step. -/
  | resume (thread : Nat)

/-- The system after a step of `thread` with `rest` of its window left. -/
def Sys.after (sys : Sys) (thread : Nat) (rest : List WindowStep) :
    Outcome (List WindowStep) → SysOutcome
  | .done more s => .running ⟨s, setWindow sys.windows thread (more ++ rest)⟩
  | .raised s => .running ⟨s, setWindow sys.windows thread []⟩
  | .failed => .failed
  | .undefined => .undefined

/-- One event; a call from inside a window, or a step from outside one, changes nothing. -/
def Sys.event (sys : Sys) : Event → SysOutcome
  | .call op => if sys.inside op.thread then .running sys else sys.after op.thread [] (op.start sys.state)
  | .resume thread =>
    match sys.window thread with
    | [] => .running sys
    | step :: rest => sys.after thread rest (step.run thread sys.state)

/-- A schedule, until the process ends. -/
def Sys.run : List Event → Sys → SysOutcome
  | [], sys => .running sys
  | e :: es, sys =>
    match sys.event e with
    | .running sys' => Sys.run es sys'
    | .failed => .failed
    | .undefined => .undefined

/-- The process before any call, with no thread inside a window. -/
def Sys.initial (stderr callback : LogLevel) : Sys := ⟨JitState.initial stderr callback, []⟩

/-- The system an atomic call leaves, with the same windows. -/
def Outcome.toSys (o : Outcome Unit) (windows : List (Nat × List WindowStep)) : SysOutcome :=
  match o with
  | .done _ s | .raised s => .running ⟨s, windows⟩
  | .failed => .failed
  | .undefined => .undefined

/-! ## The windows of a thread -/

section SetWindow

variable (windows : List (Nat × List WindowStep)) (thread : Nat)

theorem windows_lookup_filter_ne {other : Nat} (h : other ≠ thread) :
    (windows.filter (·.1 != thread)).lookup other = windows.lookup other := by
  induction windows with
  | nil => rfl
  | cons p rest ih =>
    obtain ⟨t, steps⟩ := p
    by_cases ht : t = thread
    · subst ht
      rw [List.filter_cons_of_neg (by simp), ih, List.lookup_cons, beq_false_of_ne h]
    · rw [List.filter_cons_of_pos (by simpa using ht), List.lookup_cons, List.lookup_cons, ih]

theorem windows_lookup_filter_self : (windows.filter (·.1 != thread)).lookup thread = none := by
  induction windows with
  | nil => rfl
  | cons p rest ih =>
    obtain ⟨t, steps⟩ := p
    by_cases ht : t = thread
    · rwa [List.filter_cons_of_neg (by simp [ht])]
    · rwa [List.filter_cons_of_pos (by simpa using ht), List.lookup_cons, beq_false_of_ne (Ne.symm ht)]

@[simp] theorem window_setWindow (s : JitState) (steps : List WindowStep) :
    (Sys.mk s (setWindow windows thread steps)).window thread = steps := by
  cases steps with
  | nil => simp only [Sys.window, setWindow, windows_lookup_filter_self, Option.getD_none]
  | cons step rest => simp only [Sys.window, setWindow, List.lookup_cons_self, Option.getD_some]

theorem window_setWindow_ne (s : JitState) (steps : List WindowStep) {other : Nat}
    (h : other ≠ thread) :
    (Sys.mk s (setWindow windows thread steps)).window other = (Sys.mk s windows).window other := by
  cases steps <;>
    simp only [Sys.window, setWindow, List.lookup_cons, beq_false_of_ne h, windows_lookup_filter_ne _ _ h]

@[simp] theorem setWindow_setWindow (steps steps' : List WindowStep) :
    setWindow (setWindow windows thread steps) thread steps' = setWindow windows thread steps' := by
  have hfilter : (setWindow windows thread steps).filter (·.1 != thread) =
      windows.filter (·.1 != thread) := by
    cases steps <;> simp [setWindow, List.filter_cons, List.filter_filter]
  cases steps' with
  | nil => exact hfilter
  | cons step rest => exact congrArg _ hfilter

theorem setWindow_nil {windows : List (Nat × List WindowStep)} {thread : Nat}
    (h : windows.any (·.1 == thread) = false) : setWindow windows thread [] = windows :=
  List.filter_eq_self.mpr fun p hp => by
    simpa using List.any_eq_false.mp h p hp

theorem mem_setWindow {steps : List WindowStep} {p : Nat × List WindowStep}
    (h : p ∈ setWindow windows thread steps) : p = (thread, steps) ∨ p ∈ windows := by
  cases steps <;> simp only [setWindow, List.mem_cons, List.mem_filter] at h
  · exact .inr h.1
  · exact h.imp_right (·.1)

end SetWindow

theorem Sys.window_eq_nil {sys : Sys} {thread : Nat} (h : sys.inside thread = false) :
    sys.window thread = [] := by
  obtain ⟨s, windows⟩ := sys
  have hnil := window_setWindow windows thread s []
  rwa [setWindow_nil h] at hnil

theorem Sys.mem_of_window {sys : Sys} {thread : Nat} {step : WindowStep} {rest : List WindowStep}
    (h : sys.window thread = step :: rest) : (thread, step :: rest) ∈ sys.windows := by
  obtain ⟨s, windows⟩ := sys
  induction windows with
  | nil => cases h
  | cons p more ih =>
    obtain ⟨t, steps⟩ := p
    by_cases ht : thread = t
    · subst ht
      simp only [Sys.window, List.lookup, beq_self_eq_true, Option.getD_some] at h
      exact h ▸ List.mem_cons_self _ _
    · simp only [Sys.window, List.lookup, beq_false_of_ne ht] at h
      exact List.mem_cons_of_mem _ (ih h)

theorem Sys.inside_of_window {sys : Sys} {thread : Nat} {step : WindowStep} {rest : List WindowStep}
    (h : sys.window thread = step :: rest) : sys.inside thread = true := by
  cases hinside : sys.inside thread
  · rw [Sys.window_eq_nil hinside] at h; cases h
  · rfl

/-! ## Serial windows are the atomic calls -/

theorem Sys.run_cons (e : Event) (es : List Event) (sys : Sys) :
    Sys.run (e :: es) sys =
      match sys.event e with
      | .running sys' => Sys.run es sys'
      | .failed => .failed
      | .undefined => .undefined := rfl

theorem Sys.run_call {sys : Sys} {op : JitOp} (h : sys.inside op.thread = false) (es : List Event) :
    Sys.run (.call op :: es) sys =
      match op.start sys.state with
      | .done more s => Sys.run es ⟨s, setWindow sys.windows op.thread more⟩
      | .raised s => Sys.run es ⟨s, setWindow sys.windows op.thread []⟩
      | .failed => .failed
      | .undefined => .undefined := by
  simp only [Sys.run_cons, Sys.event, h, if_false]
  cases op.start sys.state <;> simp [Sys.after]

theorem Sys.run_resume {sys : Sys} {thread : Nat} {step : WindowStep} {rest : List WindowStep}
    (h : sys.window thread = step :: rest) (es : List Event) :
    Sys.run (.resume thread :: es) sys =
      match step.run thread sys.state with
      | .done more s => Sys.run es ⟨s, setWindow sys.windows thread (more ++ rest)⟩
      | .raised s => Sys.run es ⟨s, setWindow sys.windows thread []⟩
      | .failed => .failed
      | .undefined => .undefined := by
  simp only [Sys.run_cons, Sys.event, h]
  cases step.run thread sys.state <;> rfl

theorem Sys.run_resume_idle {sys : Sys} {thread : Nat} (h : sys.window thread = []) (n : Nat) :
    Sys.run (List.replicate n (.resume thread)) sys = .running sys := by
  induction n with
  | zero => rfl
  | succ n ih => simp only [List.replicate_succ, Sys.run_cons, Sys.event, h, ih]

section Serial

variable {thread : Nat} {windows : List (Nat × List WindowStep)}

/-- A window whose steps each run one call of a loop, run serially, is the loop. -/
theorem Sys.run_loop (hout : windows.any (·.1 == thread) = false)
    (f : Nat → JitState → Outcome Unit) (c : Nat → WindowStep)
    (hc : ∀ address s, (c address).run thread s = (f address s).bind fun _ s => .done [] s) :
    ∀ (addresses : List Nat) (s : JitState),
      Sys.run (List.replicate addresses.length (.resume thread))
          ⟨s, setWindow windows thread (addresses.map c)⟩ =
        (forEach f addresses s).toSys windows
  | [], s => by simp [Sys.run, forEach, Outcome.toSys, setWindow_nil hout]
  | address :: rest, s => by
    rw [List.length_cons, List.replicate_succ, List.map_cons, Sys.run_resume (window_setWindow _ _ _ _),
      hc]
    simp only [forEach]
    cases f address s with
    | done _ s₁ => simpa using Sys.run_loop hout f c hc rest s₁
    | raised s₁ =>
      simp only [Outcome.bind_raised, setWindow_setWindow, setWindow_nil hout]
      exact Sys.run_resume_idle (@Sys.window_eq_nil ⟨s₁, windows⟩ thread hout) _
    | failed => rfl
    | undefined => rfl

theorem Sys.run_atomic {op : JitOp} {s : JitState} (hout : windows.any (·.1 == op.thread) = false)
    (hstart : op.start s = (op.outcome s).bind fun _ s => .done [] s) :
    Sys.run [.call op] ⟨s, windows⟩ = (op.outcome s).toSys windows := by
  rw [@Sys.run_call ⟨s, windows⟩ op hout, hstart]
  cases op.outcome s <;> simp [Outcome.toSys, Sys.run, setWindow_nil hout]

end Serial

/-- Run with no other thread in between, every call is the atomic call. -/
theorem Sys.run_serial (op : JitOp) (sys : Sys) (hout : sys.inside op.thread = false) :
    Sys.run (.call op :: List.replicate (op.windowLength sys.state) (.resume op.thread)) sys =
      (op.outcome sys.state).toSys sys.windows := by
  obtain ⟨thread, call⟩ := op
  obtain ⟨s, windows⟩ := sys
  have hcall := @Sys.run_call ⟨s, windows⟩ ⟨thread, call⟩ hout
  replace hout : windows.any (·.1 == thread) = false := hout
  cases call
  case syncThread =>
    rw [hcall]
    simp only [JitOp.start, JitOp.windowLength, List.replicate]
    rw [Sys.run_resume (window_setWindow _ _ _ _)]
    simp only [WindowStep.run, JitOp.outcome, jitSyncThread, JitState.threadStateOf]
    cases jitSyncThreadOf (s.threadStateCuda thread) s with
    | done _ s₁ =>
      simp only [Outcome.bind_done, List.nil_append, setWindow_setWindow]
      rw [Sys.run_resume (window_setWindow _ _ _ _)]
      simp only [WindowStep.run, JitState.threadStateOf]
      cases jitSyncThreadOf (s₁.threadStateLlvm thread) s₁ <;>
        simp [Outcome.toSys, Sys.run, setWindow_nil hout]
    | raised s₁ =>
      simp only [Outcome.bind_raised, setWindow_setWindow, setWindow_nil hout]
      exact Sys.run_resume_idle (@Sys.window_eq_nil ⟨s₁, windows⟩ thread hout) 1
    | failed => rfl
    | undefined => rfl
  case syncAllDevices =>
    rw [hcall]
    simp only [JitOp.start, JitOp.windowLength, JitOp.outcome, jitSyncAllDevices]
    rw [← List.length_map s.tss WindowStep.syncThread]
    simpa using Sys.run_loop hout _ WindowStep.syncThread (fun _ _ => rfl) s.tss s
  case syncDevice =>
    have hcpu : ∀ s₁ : JitState, s₁.threadStateLlvm thread = s.threadStateLlvm thread →
        s₁.tss = s.tss →
        Sys.run (List.replicate (cpuWindow thread s).length (.resume thread))
            ⟨s₁, setWindow windows thread (cpuWindow thread s₁)⟩ =
          (if (s₁.threadStateLlvm thread).isSome then forEach syncCpuThreadState s₁.tss s₁
            else .done () s₁).toSys windows := by
      intro s₁ hllvm htss
      simp only [cpuWindow, hllvm, htss]
      rw [List.length_map, Sys.run_loop hout syncCpuThreadState WindowStep.syncCpu (fun _ _ => rfl)]
      split <;> rfl
    rw [hcall]
    simp only [JitOp.outcome, jitSyncDevice_eq]
    cases hcuda : s.threadStateCuda thread with
    | none =>
      simp only [JitOp.start, JitOp.windowLength, hcuda, Option.isSome_none, if_false, Nat.add_zero,
        Outcome.bind_done]
      exact hcpu s rfl rfl
    | some address =>
      simp only [JitOp.start, JitOp.windowLength, hcuda, Option.isSome_some, if_true,
        List.replicate_succ]
      rw [Sys.run_resume (window_setWindow _ _ _ _)]
      cases hts : s.heap address with
      | none => simp [WindowStep.run, hts, Outcome.toSys]
      | some ts =>
        simp only [WindowStep.run, hts, List.nil_append, setWindow_setWindow, Outcome.bind_done]
        rw [Sys.run_resume (window_setWindow _ _ _ _)]
        simpa using hcpu (s.syncContext ts.context) rfl rfl
  all_goals exact Sys.run_atomic hout rfl

theorem Sys.run_append (es es' : List Event) (sys : Sys) :
    Sys.run (es ++ es') sys =
      match Sys.run es sys with
      | .running sys' => Sys.run es' sys'
      | .failed => .failed
      | .undefined => .undefined := by
  induction es generalizing sys with
  | nil => rfl
  | cons e es ih =>
    rw [List.cons_append, Sys.run_cons, Sys.run_cons]
    cases sys.event e with
    | running sys' => exact ih sys'
    | failed | undefined => rfl

/-- Each call of a run followed by the steps of its window, with no other thread in between. -/
def serialSchedule : List JitOp → JitState → List Event
  | [], _ => []
  | op :: ops, s =>
    .call op :: List.replicate (op.windowLength s) (.resume op.thread) ++
      ((op.next s).map (serialSchedule ops)).getD []

/-- The atomic model of a run: each call one step holding the mutex. -/
def runAtomic (windows : List (Nat × List WindowStep)) : List JitOp → JitState → SysOutcome
  | [], s => .running ⟨s, windows⟩
  | op :: ops, s =>
    match op.outcome s with
    | .done _ s' | .raised s' => runAtomic windows ops s'
    | .failed => .failed
    | .undefined => .undefined

/-- The state a schedule leaves, if the process goes on. -/
def SysOutcome.state? : SysOutcome → Option JitState
  | .running sys => some sys.state
  | _ => none

theorem runAtomic_state? (windows : List (Nat × List WindowStep)) :
    ∀ (ops : List JitOp) (s : JitState), (runAtomic windows ops s).state? = runOps ops s
  | [], _ => rfl
  | op :: ops, s => by
    rw [runOps_cons, JitOp.next_eq_state?, runAtomic]
    cases op.outcome s with
    | done _ s' | raised s' => exact runAtomic_state? windows ops s'
    | failed | undefined => rfl

/-- On every run whose callers are outside the open windows, the serial schedule ends as the atomic
run: the windowed system refines the model in which each call holds `state.mutex` throughout. -/
theorem Sys.run_serialSchedule (windows : List (Nat × List WindowStep)) :
    ∀ (ops : List JitOp) (s : JitState), (∀ op ∈ ops, windows.any (·.1 == op.thread) = false) →
      Sys.run (serialSchedule ops s) ⟨s, windows⟩ = runAtomic windows ops s
  | [], _, _ => rfl
  | op :: ops, s, hout => by
    have hrest : ∀ op' ∈ ops, windows.any (·.1 == op'.thread) = false :=
      fun op' h => hout op' (List.mem_cons_of_mem _ h)
    rw [serialSchedule, Sys.run_append, Sys.run_serial op ⟨s, windows⟩ (hout op (List.mem_cons_self _ _)),
      JitOp.next_eq_state?, runAtomic]
    cases op.outcome s with
    | done _ s' | raised s' => exact Sys.run_serialSchedule windows ops s' hrest
    | failed | undefined => rfl

/-- Thread `1` synchronises while thread `0` is inside `jit_sync_all_devices`. -/
theorem run_serialSchedule_busyCpu :
    (∀ op ∈ [(⟨1, .syncThread⟩ : JitOp), ⟨1, .syncDevice⟩],
        [(0, [WindowStep.syncThread 0])].any (·.1 == op.thread) = false) ∧
      Sys.run (serialSchedule [⟨1, .syncThread⟩, ⟨1, .syncDevice⟩] busyCpuState)
          ⟨busyCpuState, [(0, [.syncThread 0])]⟩ =
        runAtomic [(0, [.syncThread 0])] [⟨1, .syncThread⟩, ⟨1, .syncDevice⟩] busyCpuState :=
  ⟨by decide, Sys.run_serialSchedule _ _ _ (by decide)⟩

/-! ## While the registry holds no call reads a deleted ThreadState -/

section Live

variable {s s' : JitState}

theorem Registry.pointer_live (hr : Registry s) {cuda : Bool} {thread address : Nat}
    (h : s.threadStateOf cuda thread = some address) : (s.heap address).isSome := by
  obtain ⟨-, ts, hts, -⟩ := hr.designated cuda thread address h
  simp [hts]

theorem Registry.mem_live (hr : Registry s) {address : Nat} (h : address ∈ s.tss) :
    (s.heap address).isSome := by
  obtain ⟨ts, hts, -⟩ := hr.owned address h
  simp [hts]

theorem SameThreads.isSome_heap (h : SameThreads s s') (address : Nat) :
    (s'.heap address).isSome = (s.heap address).isSome := by
  simpa using congrArg Option.isSome (h.heap address)

theorem jitSyncThreadOf_done {ts : Option Nat} (h : ∀ address, ts = some address → (s.heap address).isSome) :
    ∃ s', jitSyncThreadOf ts s = .done () s' := by
  cases ts with
  | none => exact ⟨s, rfl⟩
  | some address =>
    obtain ⟨ts, hts⟩ := Option.isSome_iff_exists.mp (h address rfl)
    simp only [jitSyncThreadOf, hts]
    split <;> exact ⟨_, rfl⟩

theorem syncCpuThreadState_done {address : Nat} (h : (s.heap address).isSome) :
    ∃ s', syncCpuThreadState address s = .done () s' := by
  rcases syncCpuThreadState_spec address s with ⟨hnone, -⟩ | ⟨s', hs', -⟩
  · simp [hnone] at h
  · exact ⟨s', hs'⟩

theorem forEach_done_of_live (f : Nat → JitState → Outcome Unit)
    (hf : ∀ address s, (s.heap address).isSome → ∃ s', f address s = .done () s')
    (hsame : ∀ address s s', f address s = .done () s' → SameThreads s s') :
    ∀ (addresses : List Nat) (s : JitState), (∀ address ∈ addresses, (s.heap address).isSome) →
      ∃ s', forEach f addresses s = .done () s'
  | [], s, _ => ⟨s, rfl⟩
  | address :: rest, s, hlive => by
    obtain ⟨s₁, h₁⟩ := hf address s (hlive address (List.mem_cons_self _ _))
    obtain ⟨s', h'⟩ := forEach_done_of_live f hf hsame rest s₁ fun b hb => by
      rw [(hsame address s s₁ h₁).isSome_heap]
      exact hlive b (List.mem_cons_of_mem _ hb)
    exact ⟨s', by simp [forEach, h₁, h']⟩

theorem forEach_releaseThreadState_ne_undefined :
    ∀ (addresses : List Nat), addresses.Nodup → ∀ s : JitState,
      (∀ address ∈ addresses, (s.heap address).isSome) →
        forEach releaseThreadState addresses s ≠ .undefined
  | [], _, _, _ => nofun
  | address :: rest, hnodup, s, hlive => by
    obtain ⟨ts, hts⟩ := Option.isSome_iff_exists.mp (hlive address (List.mem_cons_self _ _))
    obtain ⟨s₁, h₁⟩ : ∃ s₁, releaseThreadState address s = .done () s₁ := by
      simp only [releaseThreadState, hts]
      exact ⟨_, rfl⟩
    have hheap := (releaseThreadState_spec h₁).1
    rw [List.nodup_cons] at hnodup
    simp only [forEach, h₁, Outcome.bind_done]
    refine forEach_releaseThreadState_ne_undefined rest hnodup.2 s₁ fun b hb => ?_
    have hne : b ≠ address := fun h => hnodup.1 (h ▸ hb)
    rw [hheap, Function.update_noteq hne]
    exact hlive b (List.mem_cons_of_mem _ hb)

theorem Registry.jitShutdown_ne_undefined (hr : Registry s) (thread : Nat) :
    jitShutdown thread s ≠ .undefined := by
  unfold jitShutdown
  cases hloop : forEach releaseThreadState s.tss s with
  | done _ s₁ =>
    rcases shutdownRest_cases thread { s₁ with tss := [] } with h | ⟨_, -, h⟩ <;>
      simp only [Outcome.bind_done, h] <;> nofun
  | raised _ => nofun
  | failed => nofun
  | undefined =>
    exact absurd hloop (forEach_releaseThreadState_ne_undefined _ hr.nodup s fun _ => hr.mem_live)

theorem Registry.threadState_live (hr : Registry s) {thread : Nat} {cuda : Bool} {address : Nat}
    (h : threadState thread cuda s = .done address s') : (s'.heap address).isSome := by
  rcases threadState_cases thread cuda s with ⟨_, hptr, heq⟩ | heq | ⟨ts, -, -, heq⟩ <;>
    rw [heq] at h <;> cases h
  · exact hr.pointer_live hptr
  · simp

theorem Registry.threadState_bind_ne_undefined {β : Type} (hr : Registry s) (thread : Nat) (cuda : Bool)
    {g : Nat → JitState → Outcome β}
    (hg : ∀ address s₁, (s₁.heap address).isSome → g address s₁ ≠ .undefined) :
    (threadState thread cuda s).bind g ≠ .undefined := by
  cases h : threadState thread cuda s with
  | done address s₁ => exact hg address s₁ (hr.threadState_live h)
  | raised _ => nofun
  | failed => nofun
  | undefined => rcases threadState_cases thread cuda s with ⟨_, -, heq⟩ | heq | ⟨_, -, -, heq⟩ <;>
      rw [heq] at h <;> cases h

theorem Outcome.ne_undefined_of_done {o : Outcome Unit} (h : ∃ s', o = .done () s') : o ≠ .undefined := by
  obtain ⟨_, rfl⟩ := h
  nofun

theorem Outcome.bind_done_ne_undefined {α : Type} {o : Outcome α} (h : o ≠ .undefined) :
    (o.bind fun _ s => (Outcome.done () s : Outcome Unit)) ≠ .undefined := by
  cases o with
  | undefined => exact absurd rfl h
  | _ => nofun

theorem Registry.jitSyncThread_done (hr : Registry s) (thread : Nat) :
    ∃ s', jitSyncThread thread s = .done () s' := by
  have hcuda : ∀ a, s.threadStateCuda thread = some a → (s.heap a).isSome :=
    fun _ h => hr.pointer_live (show s.threadStateOf true thread = some _ from h)
  obtain ⟨s₁, h₁⟩ := jitSyncThreadOf_done hcuda
  have hsame := jitSyncThreadOf_sameThreads h₁
  have hllvm : ∀ a, s₁.threadStateLlvm thread = some a → (s₁.heap a).isSome := fun _ h => by
    rw [hsame.isSome_heap]
    rw [hsame.threadStateLlvm] at h
    exact hr.pointer_live (show s.threadStateOf false thread = some _ from h)
  obtain ⟨s', h'⟩ := jitSyncThreadOf_done hllvm
  exact ⟨s', by simp [jitSyncThread, h₁, h']⟩

theorem Registry.jitSyncAllDevices_done (hr : Registry s) : ∃ s', jitSyncAllDevices s = .done () s' :=
  forEach_done_of_live _ (fun _ _ h => jitSyncThreadOf_done fun _ ha => Option.some.inj ha ▸ h)
    (fun _ _ _ => jitSyncThreadOf_sameThreads) s.tss s fun _ => hr.mem_live

theorem Registry.jitSyncDevice_done (hr : Registry s) (thread : Nat) :
    ∃ s', jitSyncDevice thread s = .done () s' := by
  have hcpu : ∀ s₁ : JitState, (∀ a, (s₁.heap a).isSome = (s.heap a).isSome) → s₁.tss = s.tss →
      ∃ s', (if (s₁.threadStateLlvm thread).isSome then forEach syncCpuThreadState s₁.tss s₁
        else .done () s₁) = .done () s' := by
    intro s₁ hheap htss
    split
    · exact forEach_done_of_live _ (fun _ _ => syncCpuThreadState_done)
        (fun _ _ _ => syncCpuThreadState_sameThreads) _ _ fun a ha => by
          rw [hheap]; exact hr.mem_live (htss ▸ ha)
    · exact ⟨s₁, rfl⟩
  rw [jitSyncDevice_eq]
  cases hcuda : s.threadStateCuda thread with
  | none => exact hcpu s (fun _ => rfl) rfl
  | some address =>
    obtain ⟨ts, hts⟩ := Option.isSome_iff_exists.mp
      (hr.pointer_live (show s.threadStateOf true thread = some address from hcuda))
    simp only [hts, Outcome.bind_done]
    exact hcpu _ (fun _ => rfl) rfl

theorem JitState.storeOutcome_ne_undefined (s : JitState) (store : Option VarStore) :
    s.storeOutcome store ≠ .undefined := by
  cases store <;> nofun

/-- While the registry holds, no call reads a deleted ThreadState. -/
theorem Registry.outcome_ne_undefined (hr : Registry s) (op : JitOp) : op.outcome s ≠ .undefined := by
  obtain ⟨thread, call⟩ := op
  cases call with
  | init llvm cuda probes =>
    rcases jitInit_cases llvm cuda probes s with
      ⟨-, h⟩ | ⟨-, -, -, h | ⟨_, ⟨h, -⟩ | ⟨h, -⟩, -⟩⟩ <;> simp only [JitOp.outcome, h] <;> nofun
  | shutdown => exact hr.jitShutdown_ne_undefined thread
  | threadState cuda =>
    exact hr.threadState_bind_ne_undefined thread cuda fun _ _ _ => nofun
  | cudaSetDevice device =>
    refine hr.threadState_bind_ne_undefined thread true fun address s₁ hlive => ?_
    rcases setDeviceOf_cases device address s₁ with ⟨hnone, -⟩ | ⟨_, -, ⟨-, h⟩ | ⟨-, -, h⟩ | ⟨_, -, -, h⟩⟩
    · simp [hnone] at hlive
    all_goals rw [h]; nofun
  | cudaStream | cudaContext =>
    refine Outcome.bind_done_ne_undefined (hr.threadState_bind_ne_undefined thread true
      fun address s₁ hlive => ?_)
    obtain ⟨ts, hts⟩ := Option.isSome_iff_exists.mp hlive
    simp only [hts]
    nofun
  | syncThread => exact Outcome.ne_undefined_of_done (hr.jitSyncThread_done thread)
  | syncDevice => exact Outcome.ne_undefined_of_done (hr.jitSyncDevice_done thread)
  | syncAllDevices => exact Outcome.ne_undefined_of_done hr.jitSyncAllDevices_done
  | varNew _ | varIncRefExt _ | varDecRefExt _ => exact JitState.storeOutcome_ne_undefined _ _
  | logSetStderr _ | setLogCallback _ => nofun

end Live

/-- Along every run whose `jit_shutdown` calls are quiescent, no call from a reached state reads a
deleted ThreadState. -/
theorem quiescentRun_reads_no_freed (ops : List JitOp) (stderr callback : LogLevel)
    (hq : quiescentRun ops (JitState.initial stderr callback) = true) :
    ∀ s ∈ runOps ops (JitState.initial stderr callback), ∀ op : JitOp, op.outcome s ≠ .undefined :=
  fun s hs => (Registry.runOps ops _ (Wf.initial stderr callback) (Registry.initial stderr callback)
    hq s hs).outcome_ne_undefined

/-- Thread `1` takes an LLVM ThreadState, thread `0` syncs all devices, thread `1` shuts down. -/
def ownedShutdownRun : List JitOp :=
  [⟨1, .init 1 0 cpuOnlyHost⟩, ⟨1, .threadState false⟩, ⟨0, .syncAllDevices⟩, ⟨1, .shutdown⟩]

theorem quiescentRun_reads_no_freed_ownedShutdown :
    quiescentRun ownedShutdownRun (JitState.initial .warn .warn) = true ∧
      ∀ s ∈ runOps ownedShutdownRun (JitState.initial .warn .warn), ∀ op : JitOp,
        op.outcome s ≠ .undefined :=
  ⟨by decide, quiescentRun_reads_no_freed ownedShutdownRun .warn .warn (by decide)⟩

/-! ## Safe schedules -/

/-- No window holds a pointer it copied before the mutex was released. -/
def Sys.holdsNoCopy (sys : Sys) : Bool :=
  sys.windows.all fun p => p.2.all fun step => step.pointer.isNone

/-- A `jit_shutdown` is allowed when it is quiescent and no window holds a copied pointer. -/
def Event.allowed (e : Event) (sys : Sys) : Bool :=
  match e with
  | .call ⟨thread, .shutdown⟩ =>
    JitOp.quiescent ⟨thread, .shutdown⟩ sys.state && sys.holdsNoCopy
  | _ => true

/-- Every `jit_shutdown` of the schedule is allowed. -/
def safeSchedule : List Event → Sys → Bool
  | [], _ => true
  | e :: es, sys =>
    e.allowed sys &&
      match sys.event e with
      | .running sys' => safeSchedule es sys'
      | _ => true

/-- What holds along a safe schedule: well-formed ThreadStates, the registry, registered copies. -/
structure Sys.Safe (sys : Sys) : Prop where
  wf : Wf sys.state
  registry : Registry sys.state
  copied : ∀ p ∈ sys.windows, ∀ step ∈ p.2, ∀ address, step.pointer = some address →
    address ∈ sys.state.tss

theorem Sys.Safe.initial (stderr callback : LogLevel) : (Sys.initial stderr callback).Safe :=
  ⟨Wf.initial stderr callback, Registry.initial stderr callback, fun _ h => nomatch h⟩

section SafeSteps

variable {s s' : JitState} {thread : Nat}

theorem ThreadStep.tss_subset (h : ThreadStep thread s s') : ∀ address ∈ s.tss, address ∈ s'.tss := by
  cases h with
  | keep hsame => exact fun _ ha => hsame.tss ▸ ha
  | data => exact fun _ ha => ha
  | register => exact fun _ ha => List.mem_append_left _ ha
  | switch => exact fun _ ha => ha
  | init _ _ htss => exact fun _ ha => htss ▸ ha

theorem JitOp.tss_subset {op : JitOp} (h : op.next s = some s') (hcall : op.call ≠ .shutdown) :
    ∀ address ∈ s.tss, address ∈ s'.tss := by
  rcases JitOp.next_cases h with ⟨s₁, h₁, h₂⟩ | ⟨hshut, -⟩
  · exact fun a ha => h₂.tss_subset a (h₁.tss_subset a ha)
  · exact absurd hshut hcall

theorem mem_cpuWindow {step : WindowStep} {address : Nat} (hstep : step ∈ cpuWindow thread s)
    (h : step.pointer = some address) : address ∈ s.tss := by
  simp only [cpuWindow, List.mem_map] at hstep
  obtain ⟨b, hb, rfl⟩ := hstep
  cases h
  split at hb
  · exact hb
  · cases hb

/-- A call opens a window on registered pointers, or runs to its end. -/
theorem JitOp.start_cases (hr : Registry s) (op : JitOp) :
    (∃ steps, op.start s = .done steps s ∧
      ∀ step ∈ steps, ∀ address, step.pointer = some address → address ∈ s.tss) ∨
    op.start s = (op.outcome s).bind fun _ s => .done [] s := by
  obtain ⟨thread, call⟩ := op
  cases call
  case syncThread => exact .inl ⟨_, rfl, by simp [WindowStep.pointer]⟩
  case syncAllDevices => exact .inl ⟨_, rfl, by simp [WindowStep.pointer]⟩
  case syncDevice =>
    refine .inl ⟨_, rfl, fun step hstep address hptr => ?_⟩
    cases hcuda : s.threadStateCuda thread with
    | none => exact mem_cpuWindow (by simpa [hcuda] using hstep) hptr
    | some a =>
      simp only [hcuda, List.mem_cons, List.mem_singleton, List.not_mem_nil, or_false] at hstep
      rcases hstep with rfl | rfl <;> cases hptr
      exact (hr.designated true thread _ hcuda).1
  all_goals exact .inr rfl

/-- One window step on registered pointers returns and adds only steps on registered pointers. -/
theorem WindowStep.run_spec (hr : Registry s) (thread : Nat) {step : WindowStep}
    (hstep : ∀ address, step.pointer = some address → address ∈ s.tss) :
    ∃ more s', step.run thread s = .done more s' ∧ SameThreads s s' ∧
      ∀ step' ∈ more, ∀ address, step'.pointer = some address → address ∈ s.tss := by
  cases step with
  | syncOwn cuda =>
    obtain ⟨s', h⟩ := jitSyncThreadOf_done fun _ (ha : s.threadStateOf cuda thread = _) =>
      hr.pointer_live ha
    exact ⟨[], s', by simp [WindowStep.run, h], jitSyncThreadOf_sameThreads h, by simp⟩
  | syncContext address =>
    obtain ⟨ts, hts⟩ := Option.isSome_iff_exists.mp (hr.mem_live (hstep address rfl))
    exact ⟨[], s.syncContext ts.context, by simp [WindowStep.run, hts],
      ⟨rfl, rfl, rfl, rfl, rfl, rfl, rfl, rfl, fun _ => rfl⟩, by simp⟩
  | snapshotCpu => exact ⟨_, s, rfl, .refl s, fun _ h _ => mem_cpuWindow h⟩
  | syncCpu address =>
    obtain ⟨s', h⟩ := syncCpuThreadState_done (hr.mem_live (hstep address rfl))
    exact ⟨[], s', by simp [WindowStep.run, h], syncCpuThreadState_sameThreads h, by simp⟩
  | syncThread address =>
    obtain ⟨s', h⟩ := jitSyncThreadOf_done fun _ (ha : some address = _) =>
      Option.some.inj ha ▸ hr.mem_live (hstep address rfl)
    exact ⟨[], s', by simp [WindowStep.run, h], jitSyncThreadOf_sameThreads h, by simp⟩

theorem Event.allowed_call {op : JitOp} {sys : Sys} (h : (Event.call op).allowed sys = true) :
    op.quiescent sys.state = true ∧ (op.call = .shutdown → sys.holdsNoCopy = true) := by
  obtain ⟨thread, call⟩ := op
  cases call <;> simp_all [Event.allowed, JitOp.quiescent]

end SafeSteps

/-- An allowed event ends the process with `jit_fail` or keeps `Sys.Safe`. -/
theorem Sys.Safe.event {sys : Sys} (hs : sys.Safe) {e : Event} (he : e.allowed sys = true) :
    sys.event e = .failed ∨ ∃ sys', sys.event e = .running sys' ∧ sys'.Safe := by
  obtain ⟨s, windows⟩ := sys
  cases e with
  | call op =>
    by_cases hin : (Sys.mk s windows).inside op.thread = true
    · exact .inr ⟨_, if_pos hin, hs⟩
    rw [Sys.event, if_neg hin]
    rcases JitOp.start_cases hs.registry op with ⟨steps, hstart, hsteps⟩ | hstart
    · refine .inr ⟨⟨s, setWindow windows op.thread (steps ++ [])⟩, by rw [hstart]; rfl, hs.wf,
        hs.registry, fun p hp step hstep => ?_⟩
      rcases @mem_setWindow windows op.thread _ p hp with rfl | hp
      · exact hsteps step (by simpa using hstep)
      · exact hs.copied p hp step hstep
    obtain ⟨hq, hshut⟩ := Event.allowed_call he
    have hkeep : ∀ s', op.next s = some s' → Sys.Safe ⟨s', setWindow windows op.thread []⟩ :=
      fun s' hnext => ⟨hs.wf.next hnext, hs.registry.next hs.wf hq hnext, fun p hp step hstep a ha => by
        have hp' := (@mem_setWindow windows op.thread [] p hp).resolve_left fun h => by
          simp [h] at hstep
        by_cases hcall : op.call = .shutdown
        · have hnone := List.all_eq_true.mp (List.all_eq_true.mp (hshut hcall) p hp') step hstep
          simp [ha] at hnone
        · exact JitOp.tss_subset hnext hcall a (hs.copied p hp' step hstep a ha)⟩
    rw [hstart]
    cases ho : op.outcome s with
    | done _ s' | raised s' => exact .inr ⟨_, rfl, hkeep s' (by rw [JitOp.next_eq_state?, ho]; rfl)⟩
    | failed => exact .inl rfl
    | undefined => exact absurd ho (hs.registry.outcome_ne_undefined op)
  | resume thread =>
    cases hw : (Sys.mk s windows).window thread with
    | nil => exact .inr ⟨_, by simp [Sys.event, hw], hs⟩
    | cons step rest =>
      have hrest := hs.copied _ (Sys.mem_of_window hw)
      obtain ⟨more, s', hrun, hsame, hmore⟩ :=
        WindowStep.run_spec hs.registry thread (hrest step (List.mem_cons_self _ _))
      refine .inr ⟨⟨s', setWindow windows thread (more ++ rest)⟩, by simp [Sys.event, hw, hrun, Sys.after],
        hs.wf.of_sameThreads hsame, hs.registry.of_sameThreads hsame, fun p hp step' hstep' a ha => ?_⟩
      show a ∈ s'.tss
      rw [hsame.tss]
      rcases @mem_setWindow windows thread _ p hp with rfl | hp
      · rcases List.mem_append.mp hstep' with h | h
        · exact hmore step' h a ha
        · exact hrest step' (List.mem_cons_of_mem _ h) a ha
      · exact hs.copied p hp step' hstep' a ha

theorem Sys.Safe.run_ne_undefined :
    ∀ (events : List Event) (sys : Sys), sys.Safe → safeSchedule events sys = true →
      Sys.run events sys ≠ .undefined
  | [], _, _, _ => nofun
  | e :: es, sys, hs, h => by
    simp only [safeSchedule, Bool.and_eq_true] at h
    rcases hs.event h.1 with hfail | ⟨sys', hev, hs'⟩
    · rw [Sys.run_cons, hfail]
      nofun
    · rw [hev] at h
      rw [Sys.run_cons, hev]
      exact Sys.Safe.run_ne_undefined es sys' hs' h.2

/-- Along every schedule whose `jit_shutdown` calls are allowed, however the calls and the window
steps interleave, no step reads a deleted ThreadState. -/
theorem run_ne_undefined_of_safeSchedule (events : List Event) (stderr callback : LogLevel)
    (h : safeSchedule events (Sys.initial stderr callback) = true) :
    Sys.run events (Sys.initial stderr callback) ≠ .undefined :=
  Sys.Safe.run_ne_undefined events _ (Sys.Safe.initial stderr callback) h

/-- Overlapping windows of threads `0` and `1`, then a shutdown once both are closed. -/
def overlappingSyncs : List Event :=
  [.call ⟨1, .init 1 0 cpuOnlyHost⟩, .call ⟨1, .threadState false⟩, .call ⟨0, .syncAllDevices⟩,
    .call ⟨1, .syncThread⟩, .resume 1, .resume 0, .resume 1, .call ⟨1, .shutdown⟩]

theorem run_ne_undefined_of_safeSchedule_overlapping :
    safeSchedule overlappingSyncs (Sys.initial .warn .warn) = true ∧
      Sys.run overlappingSyncs (Sys.initial .warn .warn) ≠ .undefined :=
  ⟨by decide, run_ne_undefined_of_safeSchedule overlappingSyncs .warn .warn (by decide)⟩

/-! ## A shutdown inside another thread's window -/

theorem WindowStep.run_of_deleted {step : WindowStep} {address : Nat} {s : JitState}
    (hptr : step.pointer = some address) (hnone : s.heap address = none) (thread : Nat) :
    step.run thread s = .undefined := by
  cases step <;> cases hptr <;>
    simp [WindowStep.run, syncCpuThreadState, jitSyncThreadOf, hnone]

/-- A `jit_shutdown` while another thread's next step holds a copied pointer ends the process or
makes that step read the deleted ThreadState. -/
theorem Sys.shutdown_frees_window (sys : Sys) (thread other : Nat) (step : WindowStep)
    (rest : List WindowStep) (address : Nat) (hwindow : sys.window thread = step :: rest)
    (hptr : step.pointer = some address) (hmem : address ∈ sys.state.tss)
    (hother : sys.inside other = false) :
    sys.event (.call ⟨other, .shutdown⟩) = .failed ∨
      Sys.run [.call ⟨other, .shutdown⟩, .resume thread] sys = .undefined := by
  obtain ⟨s, windows⟩ := sys
  have hne : thread ≠ other := fun h => by
    rw [← h, Sys.inside_of_window hwindow] at hother
    cases hother
  rw [@Sys.run_call ⟨s, windows⟩ ⟨other, .shutdown⟩ hother]
  simp only [Sys.event, hother, Bool.false_eq_true, if_false, JitOp.start, JitOp.outcome]
  cases hshut : jitShutdown other s with
  | done _ s' =>
    refine .inr ?_
    have hwindow' : (Sys.mk s' (setWindow windows other [])).window thread = step :: rest :=
      (window_setWindow_ne _ _ _ _ hne).trans hwindow
    have hnone : s'.heap address = none := by
      rw [(jitShutdown_spec hshut).2.2.1 address, if_pos hmem]
    simp only [Outcome.bind_done, Sys.run_resume hwindow', WindowStep.run_of_deleted hptr hnone]
  | raised s' => exact absurd hshut (jitShutdown_ne_raised other s s')
  | failed => exact .inl rfl
  | undefined => exact .inr rfl

/-- Thread `0` inside `jit_sync_all_devices` with a copy holding thread `1`'s LLVM ThreadState. -/
def syncAllWindow : Sys := ⟨busyCpuState, [(0, [.syncThread 0])]⟩

theorem syncAllWindow_shutdown_frees :
    syncAllWindow.window 0 = [.syncThread 0] ∧ (WindowStep.syncThread 0).pointer = some 0 ∧
      0 ∈ syncAllWindow.state.tss ∧ syncAllWindow.inside 1 = false ∧
      (syncAllWindow.event (.call ⟨1, .shutdown⟩) = .failed ∨
        Sys.run [.call ⟨1, .shutdown⟩, .resume 0] syncAllWindow = .undefined) :=
  ⟨by decide, rfl, by decide, by decide,
    Sys.shutdown_frees_window syncAllWindow 0 1 (.syncThread 0) [] 0 (by decide) rfl (by decide)
      (by decide)⟩

/-- Thread `0` reads the ThreadState that thread `1`'s quiescent shutdown deleted. -/
example :
    (Sys.run [.call ⟨1, .init 1 0 cpuOnlyHost⟩, .call ⟨1, .threadState false⟩,
      .call ⟨0, .syncAllDevices⟩, .call ⟨1, .shutdown⟩, .resume 0] (Sys.initial .warn .warn) matches
        .undefined) = true := by
  decide

end Jit
end DrJitCore
