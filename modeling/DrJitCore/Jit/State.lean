import DrJitCore.Jit.Variables

/-!
# The global state of `init.cpp`

`State state`, the heap of `ThreadState`s and the two thread-local pointers of each thread.  Every
API call returns, raises, ends the process (`jit_fail`), or reads a deleted `ThreadState`, which is
undefined; the CUDA driver and the CPU task pool are reduced to what the modelled calls do to them.
-/

namespace DrJitCore
namespace Jit

/-- Modelled from the spec: the log levels, by increasing verbosity. -/
inductive LogLevel
  | error
  | warn
  | info
  | debug
  | trace
deriving DecidableEq, Repr

/-- The value of a level in the enumeration, which `std::max` and `>=` compare. -/
def LogLevel.toNat : LogLevel → Nat
  | .error => 1
  | .warn => 2
  | .info => 3
  | .debug => 4
  | .trace => 5

/-- A C `int`. -/
structure CInt where
  val : Int
  range : -2 ^ 31 ≤ val ∧ val < 2 ^ 31
deriving DecidableEq

/-- The conversion `(size_t) value` of a 64-bit target. -/
def sizeT (value : Int) : Nat := (value % 2 ^ 64).toNat

/-- `ThreadState`, with the fields the modelled calls read and write. -/
structure ThreadState where
  /-- The backend: CUDA, or LLVM on the CPU. -/
  cuda : Bool
  /-- The index of the device in `state.devices`, `-1` for LLVM. -/
  device : Int
  /-- The CUDA context of the device. -/
  context : Nat
  /-- The stream the ThreadState owns. -/
  stream : Nat
  /-- The event the ThreadState owns. -/
  event : Nat
  /-- The current task of the CPU pool, `nullptr` as `none`. -/
  task : Option Nat
deriving DecidableEq, Repr

/-- `Device`: an accepted CUDA device. -/
structure Device where
  /-- The CUDA ordinal. -/
  id : Nat
  computeCapability : Int
  sharedMemoryBytes : Nat
  numSm : Nat
  /-- The retained primary context. -/
  context : Nat
deriving DecidableEq, Repr

/-- A CUDA ThreadState stands on a listed device with its context, an LLVM one on device `-1`. -/
def ThreadState.Placed (devices : List Device) (ts : ThreadState) : Prop :=
  if ts.cuda then
    0 ≤ ts.device ∧ ts.device < devices.length ∧
      (devices[ts.device.toNat]?).map Device.context = some ts.context
  else ts.device = -1

/-- The fields of a ThreadState that its placement reads. -/
def ThreadState.placement (ts : ThreadState) : Bool × Int × Nat :=
  (ts.cuda, ts.device, ts.context)

/-- An upper bound of `std::vector<Device>::max_size()`, which is at most `PTRDIFF_MAX`. -/
def deviceMaxSize : Nat := 2 ^ 63 - 1

/-- The state of the process: `state`, the heap of `ThreadState`s and the thread-local pointers. -/
structure JitState where
  hasLlvm : Bool
  hasCuda : Bool
  /-- `state.devices`. -/
  devices : List Device
  /-- `push_back` never grows a vector past its `max_size()`. -/
  devices_length_le : devices.length ≤ deviceMaxSize
  /-- `state.tss`: pointers to the registered ThreadStates. -/
  tss : List Nat
  /-- The ThreadState objects alive on the heap, by address. -/
  heap : Nat → Option ThreadState
  /-- An address that no object, pointer or `state.tss` entry has used yet. -/
  nextAddress : Nat
  /-- `thread_state_cuda` of each thread, `nullptr` as `none`. -/
  threadStateCuda : Nat → Option Nat
  /-- `thread_state_llvm` of each thread, `nullptr` as `none`. -/
  threadStateLlvm : Nat → Option Nat
  /-- `state.variables`, `state.cse_cache`, `state.variable_from_ptr`, `state.variable_index`. -/
  store : VarStore
  /-- `state.kernel_cache`, by kernel. -/
  kernelCache : List Nat
  logLevelStderr : LogLevel
  logLevelCallback : LogLevel
  /-- `jit_temp_path`, as bytes. -/
  tempPath : Option (List UInt8)
  kernelHardMisses : Nat
  kernelSoftMisses : Nat
  kernelHits : Nat
  kernelLaunches : Nat
  /-- The next handle the driver gives to a new stream or event. -/
  nextHandle : Nat
  /-- Work queued on the GPU, as (context, stream) pairs. -/
  gpuWork : List (Nat × Nat)
  /-- The tasks of the CPU pool that have not been waited for. -/
  runningTasks : List Nat

/-- `std::max(stderr, callback) >= LogLevel::Warn`. -/
def warnEnabledAt (stderr callback : LogLevel) : Bool :=
  LogLevel.warn.toNat ≤ max stderr.toNat callback.toNat

namespace JitState

/-- The process before any call, with the log levels it starts with. -/
def initial (stderr callback : LogLevel) : JitState where
  hasLlvm := false
  hasCuda := false
  devices := []
  devices_length_le := Nat.zero_le _
  tss := []
  heap := fun _ => none
  nextAddress := 0
  threadStateCuda := fun _ => none
  threadStateLlvm := fun _ => none
  store := ⟨[], [], [], 1⟩
  kernelCache := []
  logLevelStderr := stderr
  logLevelCallback := callback
  tempPath := none
  kernelHardMisses := 0
  kernelSoftMisses := 0
  kernelHits := 0
  kernelLaunches := 0
  nextHandle := 1
  gpuWork := []
  runningTasks := []

/-- The thread-local pointers for a backend. -/
def threadStateOf (s : JitState) : Bool → Nat → Option Nat
  | true => s.threadStateCuda
  | false => s.threadStateLlvm

/-- The state with a thread's pointer for a backend set. -/
def setThreadState (s : JitState) (cuda : Bool) (thread : Nat) (pointer : Option Nat) : JitState :=
  { s with
    threadStateCuda :=
      if cuda then Function.update s.threadStateCuda thread pointer else s.threadStateCuda
    threadStateLlvm :=
      if cuda then s.threadStateLlvm else Function.update s.threadStateLlvm thread pointer }

@[simp] theorem threadStateOf_setThreadState (s : JitState) (cuda cuda' : Bool) (thread : Nat)
    (pointer : Option Nat) :
    (s.setThreadState cuda thread pointer).threadStateOf cuda' =
      if cuda' = cuda then Function.update (s.threadStateOf cuda') thread pointer
      else s.threadStateOf cuda' := by
  cases cuda <;> cases cuda' <;> rfl

/-- `max(state.log_level_stderr, state.log_level_callback) >= LogLevel::Warn`. -/
def warnEnabled (s : JitState) : Bool :=
  warnEnabledAt s.logLevelStderr s.logLevelCallback

/-- `cuStreamSynchronize(stream)`: the work queued on the stream completes. -/
def syncStream (s : JitState) (stream : Nat) : JitState :=
  { s with gpuWork := s.gpuWork.filter (·.2 != stream) }

/-- `cuCtxSynchronize()` with a context current: the work queued in the context completes. -/
def syncContext (s : JitState) (context : Nat) : JitState :=
  { s with gpuWork := s.gpuWork.filter (·.1 != context) }

/-- `task_wait_and_release(task)`: the pool's task, if any, completes and is released. -/
def taskWaitAndRelease (s : JitState) (task : Option Nat) : JitState :=
  { s with runningTasks := s.runningTasks.filter (some · != task) }

/-- The state with other log levels. -/
def withLogLevels (s : JitState) (stderr callback : LogLevel) : JitState :=
  { s with logLevelStderr := stderr, logLevelCallback := callback }

end JitState

/-- Two states whose ThreadStates differ at most in their streams, events and tasks. -/
structure SameThreads (s s' : JitState) : Prop where
  tss : s'.tss = s.tss
  threadStateCuda : s'.threadStateCuda = s.threadStateCuda
  threadStateLlvm : s'.threadStateLlvm = s.threadStateLlvm
  nextAddress : s'.nextAddress = s.nextAddress
  devices : s'.devices = s.devices
  hasLlvm : s'.hasLlvm = s.hasLlvm
  hasCuda : s'.hasCuda = s.hasCuda
  store : s'.store = s.store
  heap : ∀ address,
    (s'.heap address).map ThreadState.placement = (s.heap address).map ThreadState.placement

namespace SameThreads

theorem refl (s : JitState) : SameThreads s s :=
  ⟨rfl, rfl, rfl, rfl, rfl, rfl, rfl, rfl, fun _ => rfl⟩

theorem trans {s₁ s₂ s₃ : JitState} (h₁₂ : SameThreads s₁ s₂) (h₂₃ : SameThreads s₂ s₃) :
    SameThreads s₁ s₃ :=
  ⟨h₂₃.tss.trans h₁₂.tss, h₂₃.threadStateCuda.trans h₁₂.threadStateCuda,
    h₂₃.threadStateLlvm.trans h₁₂.threadStateLlvm, h₂₃.nextAddress.trans h₁₂.nextAddress,
    h₂₃.devices.trans h₁₂.devices, h₂₃.hasLlvm.trans h₁₂.hasLlvm, h₂₃.hasCuda.trans h₁₂.hasCuda,
    h₂₃.store.trans h₁₂.store, fun address => (h₂₃.heap address).trans (h₁₂.heap address)⟩

theorem threadStateOf {s s' : JitState} (h : SameThreads s s') (cuda : Bool) :
    s'.threadStateOf cuda = s.threadStateOf cuda := by
  cases cuda
  · exact h.threadStateLlvm
  · exact h.threadStateCuda

end SameThreads

/-- How an API call ends. -/
inductive Outcome (α : Type) where
  /-- The call returns a value. -/
  | done (value : α) (state : JitState)
  /-- `jit_raise` throws; the state is what the call left. -/
  | raised (state : JitState)
  /-- `jit_fail` ends the process. -/
  | failed
  /-- The call reads a deleted `ThreadState`. -/
  | undefined

namespace Outcome

variable {α β : Type}

/-- Run a continuation after a call that returns. -/
def bind (o : Outcome α) (f : α → JitState → Outcome β) : Outcome β :=
  match o with
  | done value s => f value s
  | raised s => raised s
  | failed => failed
  | undefined => undefined

/-- The state the caller sees after a call that returns or raises. -/
def state? : Outcome α → Option JitState
  | done _ s => some s
  | raised s => some s
  | _ => none

/-- The same outcome with every state mapped. -/
def mapState (f : JitState → JitState) : Outcome α → Outcome α
  | done value s => done value (f s)
  | raised s => raised (f s)
  | failed => failed
  | undefined => undefined

@[simp] theorem bind_done (value : α) (s : JitState) (f : α → JitState → Outcome β) :
    (done value s).bind f = f value s := rfl

@[simp] theorem bind_raised (s : JitState) (f : α → JitState → Outcome β) :
    (raised s).bind f = raised s := rfl

@[simp] theorem bind_failed (f : α → JitState → Outcome β) : (failed : Outcome α).bind f = failed :=
  rfl

@[simp] theorem bind_undefined (f : α → JitState → Outcome β) :
    (undefined : Outcome α).bind f = undefined := rfl

theorem eq_done_of_state? {o : Outcome Unit} {s : JitState} (h : o.state? = some s)
    (hne : ∀ s', o ≠ raised s') : o = done () s := by
  cases o with
  | done _ s' => cases h; rfl
  | raised s' => exact absurd rfl (hne s')
  | failed => cases h
  | undefined => cases h

theorem bind_cases (o : Outcome α) (f : α → JitState → Outcome β) :
    (∃ value s, o = done value s ∧ o.bind f = f value s) ∨
      (∃ s, o = raised s ∧ o.bind f = raised s) ∨ o.bind f = failed ∨ o.bind f = undefined := by
  cases o with
  | done value s => exact .inl ⟨value, s, rfl, rfl⟩
  | raised s => exact .inr (.inl ⟨s, rfl, rfl⟩)
  | failed => exact .inr (.inr (.inl rfl))
  | undefined => exact .inr (.inr (.inr rfl))

end Outcome

/-- A loop over a snapshot of pointers that stops at the first call that does not return. -/
def forEach (f : Nat → JitState → Outcome Unit) : List Nat → JitState → Outcome Unit
  | [], s => .done () s
  | address :: rest, s => (f address s).bind fun _ s => forEach f rest s

theorem forEach_preserves (f : Nat → JitState → Outcome Unit) (P : JitState → Prop)
    (hf : ∀ address s s', P s → f address s = .done () s' → P s') :
    ∀ (addresses : List Nat) (s s' : JitState), P s → forEach f addresses s = .done () s' → P s'
  | [], _, _, hs, h => by cases h; exact hs
  | address :: rest, s, s', hs, h => by
    simp only [forEach] at h
    rcases Outcome.bind_cases (f address s) _ with ⟨_, mid, hmid, hbind⟩ | ⟨_, _, hbind⟩ | hbind | hbind
    · rw [hbind] at h
      exact forEach_preserves f P hf rest mid s' (hf address s mid hs hmid) h
    all_goals rw [hbind] at h; cases h

theorem forEach_never_raises (f : Nat → JitState → Outcome Unit)
    (hf : ∀ address s s', f address s ≠ .raised s') :
    ∀ (addresses : List Nat) (s s' : JitState), forEach f addresses s ≠ .raised s'
  | [], _, _, h => by cases h
  | address :: rest, s, s', h => by
    simp only [forEach] at h
    rcases Outcome.bind_cases (f address s) _ with ⟨_, mid, _, hbind⟩ | ⟨_, hraise, _⟩ | hbind | hbind
    · rw [hbind] at h; exact forEach_never_raises f hf rest mid s' h
    · exact hf address s _ hraise
    all_goals rw [hbind] at h; cases h

theorem forEach_sameThreads (f : Nat → JitState → Outcome Unit)
    (hf : ∀ address s s', f address s = .done () s' → SameThreads s s')
    (addresses : List Nat) (s s' : JitState) (h : forEach f addresses s = .done () s') :
    SameThreads s s' :=
  forEach_preserves f (SameThreads s) (fun address _ _ h₁ hstep => h₁.trans (hf address _ _ hstep))
    addresses s s' (.refl s) h

theorem SameThreads.update_heap {s : JitState} {address : Nat} {ts ts' : ThreadState}
    (hts : s.heap address = some ts) (hplacement : ts'.placement = ts.placement) (s' : JitState)
    (htss : s'.tss = s.tss) (hcuda : s'.threadStateCuda = s.threadStateCuda)
    (hllvm : s'.threadStateLlvm = s.threadStateLlvm) (hnext : s'.nextAddress = s.nextAddress)
    (hdevices : s'.devices = s.devices) (hhasLlvm : s'.hasLlvm = s.hasLlvm)
    (hhasCuda : s'.hasCuda = s.hasCuda) (hstore : s'.store = s.store)
    (hheap : s'.heap = Function.update s.heap address (some ts')) : SameThreads s s' := by
  refine ⟨htss, hcuda, hllvm, hnext, hdevices, hhasLlvm, hhasCuda, hstore, fun b => ?_⟩
  rw [hheap]
  by_cases hb : b = address
  · subst hb; simp [hts, hplacement]
  · simp [Function.update_noteq hb]

theorem forEach_mapState (f : Nat → JitState → Outcome Unit) (g : JitState → JitState)
    (hf : ∀ address s, f address (g s) = (f address s).mapState g) :
    ∀ (addresses : List Nat) (s : JitState),
      forEach f addresses (g s) = (forEach f addresses s).mapState g
  | [], _ => rfl
  | address :: rest, s => by
    simp only [forEach, hf]
    cases f address s <;> simp only [Outcome.mapState, Outcome.bind, forEach_mapState f g hf rest]

end Jit
end DrJitCore
