import DrJitCore.Jit.Sync
import DrJitCore.Jit.Shutdown

/-!
# Runs of the process

A run is a sequence of API calls, each made by some thread; a call that ends the process or reads
a deleted ThreadState ends the run.  On the ThreadStates every call is a `jit_shutdown` or at most
two `ThreadStep`s (`JitOp.next_cases`).
-/

namespace DrJitCore
namespace Jit

/-- An API call. -/
inductive JitCall
  | init (llvm cuda : Int) (probes : InitProbes)
  | shutdown
  | threadState (cuda : Bool)
  | cudaSetDevice (device : CInt)
  | cudaStream
  | cudaContext
  | syncThread
  | syncDevice
  | syncAllDevices
  | varNew (v : Variable)
  | varIncRefExt (index : Nat)
  | varDecRefExt (index : Nat)
  | logSetStderr (level : LogLevel)
  | setLogCallback (level : LogLevel)

/-- A call made by a thread. -/
structure JitOp where
  thread : Nat
  call : JitCall

/-- The state with the variable store a call left, if the call did not end the process. -/
def JitState.withStore (s : JitState) (store : Option VarStore) : Option JitState :=
  store.map fun store => { s with store }

/-- The state after a call that returns or raises. -/
def JitOp.next (op : JitOp) (s : JitState) : Option JitState :=
  match op.call with
  | .init llvm cuda probes => (jitInit llvm cuda probes s).state?
  | .shutdown => (jitShutdown op.thread s).state?
  | .threadState cuda => (threadState op.thread cuda s).state?
  | .cudaSetDevice device => (jitCudaSetDevice op.thread device s).state?
  | .cudaStream => (jitCudaStream op.thread s).state?
  | .cudaContext => (jitCudaContext op.thread s).state?
  | .syncThread => (jitSyncThread op.thread s).state?
  | .syncDevice => (jitSyncDevice op.thread s).state?
  | .syncAllDevices => (jitSyncAllDevices s).state?
  | .varNew v => s.withStore ((jitVarNew v s.store).map (·.2))
  | .varIncRefExt index => s.withStore (jitVarIncRefExt index s.store)
  | .varDecRefExt index => s.withStore (jitVarDecRefExt index s.store)
  | .logSetStderr level => some { s with logLevelStderr := level }
  | .setLogCallback level => some { s with logLevelCallback := level }

/-- The state after a run, if no call ended it. -/
def runOps : List JitOp → JitState → Option JitState
  | [], s => some s
  | op :: ops, s => (op.next s).bind (runOps ops)

@[simp] theorem runOps_nil (s : JitState) : runOps [] s = some s := rfl

theorem runOps_cons (op : JitOp) (ops : List JitOp) (s : JitState) :
    runOps (op :: ops) s = (op.next s).bind (runOps ops) := rfl

/-! ## What one call does to the ThreadStates -/

/-- One thing a call of `thread` can do to the ThreadStates. -/
inductive ThreadStep (thread : Nat) : JitState → JitState → Prop
  /-- The ThreadStates stay where they are; streams, events and tasks may change. -/
  | keep {s s' : JitState} : SameThreads s s' → ThreadStep thread s s'
  /-- Only the variables and the log levels change. -/
  | data (s : JitState) (store : VarStore) (stderr callback : LogLevel) :
      ThreadStep thread s { s with store, logLevelStderr := stderr, logLevelCallback := callback }
  /-- `thread_state` registers a new ThreadState for the calling thread. -/
  | register {s : JitState} {cuda : Bool} {ts : ThreadState} :
      s.threadStateOf cuda thread = none → newThreadState cuda s = some ts →
      ThreadStep thread s (s.register thread ts)
  /-- `jit_cuda_set_device` moves the calling thread's CUDA ThreadState to a listed device. -/
  | switch {s : JitState} {address : Nat} {ts : ThreadState} {device : CInt} {d : Device} :
      s.threadStateCuda thread = some address → s.heap address = some ts →
      s.devices[sizeT device.val]? = some d →
      ThreadStep thread s (s.switchDevice address ts device.val d)
  /-- `jit_init` past its guard, with no backend active, finds devices. -/
  | init {s s' : JitState} : s.hasLlvm = false → s.hasCuda = false → s'.tss = s.tss →
      s'.heap = s.heap → s'.threadStateCuda = s.threadStateCuda →
      s'.threadStateLlvm = s.threadStateLlvm → s'.nextAddress = s.nextAddress →
      ThreadStep thread s s'

section Steps

variable {s s₁ s' : JitState} {thread : Nat}

/-- `thread_state` returns the caller's pointer, which it had or which names a new ThreadState. -/
theorem threadState_step {cuda : Bool} {address : Nat}
    (h : threadState thread cuda s = .done address s₁) :
    ThreadStep thread s s₁ ∧ s₁.threadStateOf cuda thread = some address := by
  rcases threadState_cases thread cuda s with
    ⟨_, hptr, heq⟩ | heq | ⟨ts, hnone, hnew, heq⟩ <;> rw [heq] at h <;> cases h
  · exact ⟨.keep (.refl s), hptr⟩
  · exact ⟨.register hnone hnew, by simp [(newThreadState_spec hnew).1]⟩

theorem threadState_bind_steps {α : Type} {f : Nat → JitState → Outcome α}
    (hf : ∀ address s₁ s', s₁.threadStateCuda thread = some address →
      (f address s₁).state? = some s' → ThreadStep thread s₁ s')
    (h : ((threadState thread true s).bind f).state? = some s') :
    ∃ s₁, ThreadStep thread s s₁ ∧ ThreadStep thread s₁ s' := by
  rcases threadState_bind_state? h with rfl | ⟨address, s₁, hts, h₁⟩
  · exact ⟨s', .keep (.refl s'), .keep (.refl s')⟩
  · obtain ⟨hstep, hptr⟩ := threadState_step hts
    exact ⟨s₁, hstep, hf address s₁ s' hptr h₁⟩

/-- Every call that returns or raises is at most two steps on the ThreadStates, or a `jit_shutdown`. -/
theorem JitOp.next_cases {op : JitOp} (h : op.next s = some s') :
    (∃ s₁, ThreadStep op.thread s s₁ ∧ ThreadStep op.thread s₁ s') ∨
      (op.call = .shutdown ∧ jitShutdown op.thread s = .done () s') := by
  obtain ⟨thread, call⟩ := op
  have single : ThreadStep thread s s' → ∃ s₁, ThreadStep thread s s₁ ∧ ThreadStep thread s₁ s' :=
    fun hstep => ⟨s', hstep, .keep (.refl s')⟩
  cases call with
  | init llvm cuda probes =>
    refine .inl (single ?_)
    rcases jitInit_cases llvm cuda probes s with
      ⟨-, heq⟩ | ⟨-, hllvm, hcuda, heq | ⟨s₁, hres, htss, hheap, hcudaPtr, hllvmPtr, hnext⟩⟩ <;>
      simp only [JitOp.next] at h
    · rw [heq] at h; cases h; exact .keep (.refl s)
    · rw [heq] at h; cases h
    · rcases hres with ⟨heq, -⟩ | ⟨heq, -⟩ <;> rw [heq] at h <;> cases h <;>
        exact .init hllvm hcuda htss hheap hcudaPtr hllvmPtr hnext
  | shutdown => exact .inr ⟨rfl, Outcome.eq_done_of_state? h (jitShutdown_ne_raised thread s)⟩
  | threadState cuda =>
    refine .inl (single ?_)
    rcases threadState_cases thread cuda s with
      ⟨_, -, heq⟩ | heq | ⟨ts, hnone, hnew, heq⟩ <;> simp only [JitOp.next, heq] at h <;> cases h
    · exact .keep (.refl s)
    · exact .keep (.refl s)
    · exact .register hnone hnew
  | cudaSetDevice device =>
    refine .inl (threadState_bind_steps (fun address s₁ s' hptr h₁ => ?_) h)
    rcases setDeviceOf_cases device address s₁ with
      ⟨-, heq⟩ | ⟨ts, hts, ⟨-, heq⟩ | ⟨-, -, heq⟩ | ⟨d, -, hd, heq⟩⟩ <;> rw [heq] at h₁ <;> cases h₁
    · exact .keep (.refl s₁)
    · exact .keep (.refl s₁)
    · exact .switch hptr hts hd
  | cudaStream | cudaContext =>
    refine .inl (threadState_bind_steps (fun _ s₁ _ _ h₁ => ?_) h)
    split at h₁ <;> cases h₁
    exact .keep (.refl s₁)
  | syncThread =>
    exact .inl (single (.keep (jitSyncThread_sameThreads
      (Outcome.eq_done_of_state? h (jitSyncThread_ne_raised thread s)))))
  | syncDevice =>
    exact .inl (single (.keep (jitSyncDevice_sameThreads
      (Outcome.eq_done_of_state? h (jitSyncDevice_ne_raised thread s)))))
  | syncAllDevices =>
    exact .inl (single (.keep (jitSyncAllDevices_sameThreads
      (Outcome.eq_done_of_state? h (jitSyncAllDevices_ne_raised s)))))
  | varNew _ | varIncRefExt _ | varDecRefExt _ =>
    obtain ⟨_, -, rfl⟩ := Option.map_eq_some'.mp h
    exact .inl (single (.data s _ s.logLevelStderr s.logLevelCallback))
  | logSetStderr _ | setLogCallback _ =>
    cases h
    exact .inl (single (.data s s.store _ _))

end Steps

/-- A machine with the LLVM library and no CUDA driver. -/
def cpuOnlyHost : InitProbes where
  home := []
  tempPathExists := true
  mkdirSucceeds := true
  llvmInit := true
  cudaInit := false
  cudaDevices := []
  canAccessPeer := fun _ _ => false
  enablePeerAccess := fun _ _ => .success

end Jit
end DrJitCore
