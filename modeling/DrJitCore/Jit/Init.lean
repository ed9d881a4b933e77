import DrJitCore.Jit.State

/-!
# Initialisation, ThreadStates and device switching

`jit_init`, `jit_init_thread_state`, `jit_cuda_set_device`, `jit_cuda_stream` and
`jit_cuda_context`.  What the system and the driver answer `jit_init` is an input (`InitProbes`).
`thread_state`, declared in a header outside the sources, is modelled from the spec.
-/

namespace DrJitCore
namespace Jit

/-- What the driver reports for one CUDA ordinal. -/
structure DeviceAttributes where
  numSm : Int
  unifiedAddressing : Int
  managedMemory : Int
  sharedMemoryBytes : Int
  ccMinor : Int
  ccMajor : Int
  /-- The context `cuDevicePrimaryCtxRetain` returns. -/
  context : Nat
deriving DecidableEq, Repr

/-- The result of `cuCtxEnablePeerAccess`. -/
inductive PeerAccess
  | success
  | alreadyEnabled
  | error
deriving DecidableEq, Repr

/-- The outcomes of the system calls, library probes and driver queries of `jit_init`. -/
structure InitProbes where
  /-- `getenv("HOME")`. -/
  home : List UInt8
  /-- `stat` found the temporary directory. -/
  tempPathExists : Bool
  /-- `mkdir` created it. -/
  mkdirSucceeds : Bool
  /-- `jit_llvm_init()`. -/
  llvmInit : Bool
  /-- `jit_cuda_init()`. -/
  cudaInit : Bool
  /-- The ordinals below `jit_cuda_devices`, in order. -/
  cudaDevices : List DeviceAttributes
  /-- `cuDeviceCanAccessPeer` of two ordinals. -/
  canAccessPeer : Nat → Nat → Bool
  /-- `cuCtxEnablePeerAccess` from the first ordinal's context to the second's. -/
  enablePeerAccess : Nat → Nat → PeerAccess

/-- The bytes of `"/.enoki"`. -/
def enokiDir : List UInt8 := [47, 46, 101, 110, 111, 107, 105]

/-- The device `jit_init` builds from ordinal `i`, skipped without unified or managed memory. -/
def acceptedDevice (i : Nat) (attributes : DeviceAttributes) : Option Device :=
  if attributes.unifiedAddressing = 0 then none
  else if attributes.managedMemory = 0 then none
  else
    some
      { id := i
        computeCapability := attributes.ccMajor * 10 + attributes.ccMinor
        sharedMemoryBytes := (attributes.sharedMemoryBytes % 2 ^ 32).toNat
        numSm := (attributes.numSm % 2 ^ 32).toNat
        context := attributes.context }

/-- The devices the enumeration loop of `jit_init` pushes, in order. -/
def acceptedDevices (attributes : List DeviceAttributes) : List Device :=
  attributes.enum.filterMap fun (i, a) => acceptedDevice i a

/-- The P2P loop of `jit_init` meets a failed `cuCtxEnablePeerAccess`, which is fatal. -/
def peerAccessFails (probes : InitProbes) (devices : List Device) : Bool :=
  devices.any fun a => devices.any fun b =>
    a.id != b.id && probes.canAccessPeer a.id b.id && probes.enablePeerAccess a.id b.id == .error

theorem length_append_take_le (devices found : List Device) (h : devices.length ≤ deviceMaxSize) :
    (devices ++ found.take (deviceMaxSize - devices.length)).length ≤ deviceMaxSize := by
  simp only [List.length_append, List.length_take]
  omega

/-- `jit_init(llvm, cuda)`; a `push_back` beyond `max_size()` throws `std::length_error`. -/
def jitInit (llvm cuda : Int) (probes : InitProbes) (s : JitState) : Outcome Unit :=
  if s.hasLlvm || s.hasCuda || (llvm == 0 && cuda == 0) then .done () s
  else if !probes.tempPathExists && !probes.mkdirSucceeds then .failed
  else
    let found := if cuda != 0 then acceptedDevices probes.cudaDevices else []
    let s :=
      { s with
        tempPath := some ((probes.home ++ enokiDir).take 511)
        hasLlvm := llvm != 0 && probes.llvmInit
        hasCuda := cuda != 0 && probes.cudaInit }
    if h : s.devices.length + found.length ≤ deviceMaxSize then
      if peerAccessFails probes (s.devices ++ found) then .failed
      else
        .done ()
          { s with
            devices := s.devices ++ found
            devices_length_le := by simpa only [List.length_append] using h
            store := { s.store with variableIndex := 1 }
            kernelHardMisses := 0
            kernelSoftMisses := 0
            kernelHits := 0
            kernelLaunches := 0 }
    else
      .raised
        { s with
          devices := s.devices ++ found.take (deviceMaxSize - s.devices.length)
          devices_length_le := length_append_take_le _ _ s.devices_length_le }

/-- `jit_init` gets past its guard. -/
def initProceeds (llvm cuda : Int) (s : JitState) : Bool :=
  !(s.hasLlvm || s.hasCuda || (llvm == 0 && cuda == 0))

/-- The ThreadState `jit_init_thread_state` registers, or `none` where it raises. -/
def newThreadState (cuda : Bool) (s : JitState) : Option ThreadState :=
  if cuda then
    if !s.hasCuda then none
    else
      match s.devices with
      | [] => none
      | device :: _ => some ⟨true, 0, device.context, s.nextHandle, s.nextHandle + 1, none⟩
  else if !s.hasLlvm then none
  else some ⟨false, -1, 0, 0, 0, none⟩

/-- `new ThreadState()` at a fresh address, set as the thread's pointer, pushed on `state.tss`. -/
def JitState.register (s : JitState) (thread : Nat) (ts : ThreadState) : JitState :=
  { s.setThreadState ts.cuda thread (some s.nextAddress) with
    heap := Function.update s.heap s.nextAddress (some ts)
    tss := s.tss ++ [s.nextAddress]
    nextAddress := s.nextAddress + 1
    nextHandle := if ts.cuda then s.nextHandle + 2 else s.nextHandle }

/-- `jit_init_thread_state(cuda)` called by a thread; it returns the new pointer. -/
def jitInitThreadState (thread : Nat) (cuda : Bool) (s : JitState) : Outcome Nat :=
  match newThreadState cuda s with
  | none => .raised s
  | some ts => .done s.nextAddress (s.register thread ts)

/-- Modelled from the spec: `thread_state(cuda)`, created at the first request. -/
def threadState (thread : Nat) (cuda : Bool) (s : JitState) : Outcome Nat :=
  match s.threadStateOf cuda thread with
  | some address => .done address s
  | none => jitInitThreadState thread cuda s

/-- The ThreadState `jit_cuda_set_device` moves to another device, with a new stream and event. -/
def JitState.switchDevice (s : JitState) (address : Nat) (ts : ThreadState) (index : Int)
    (device : Device) : JitState :=
  { s.syncStream ts.stream with
    heap := Function.update s.heap address
      (some { ts with
        context := device.context
        device := index
        stream := s.nextHandle
        event := s.nextHandle + 1 })
    nextHandle := s.nextHandle + 2 }

/-- `jit_cuda_set_device(device)` on the ThreadState `thread_state(true)` returned. -/
def setDeviceOf (device : CInt) (address : Nat) (s : JitState) : Outcome Unit :=
  match s.heap address with
  | none => .undefined
  | some ts =>
    if ts.device = device.val then .done () s
    else if h : s.devices.length ≤ sizeT device.val then .raised s
    else .done () (s.switchDevice address ts device.val (s.devices.get ⟨sizeT device.val, by omega⟩))

/-- `jit_cuda_set_device(device)`. -/
def jitCudaSetDevice (thread : Nat) (device : CInt) (s : JitState) : Outcome Unit :=
  (threadState thread true s).bind (setDeviceOf device)

/-- `jit_cuda_stream()`. -/
def jitCudaStream (thread : Nat) (s : JitState) : Outcome Nat :=
  (threadState thread true s).bind fun address s =>
    match s.heap address with
    | none => .undefined
    | some ts => .done ts.stream s

/-- `jit_cuda_context()`. -/
def jitCudaContext (thread : Nat) (s : JitState) : Outcome Nat :=
  (threadState thread true s).bind fun address s =>
    match s.heap address with
    | none => .undefined
    | some ts => .done ts.context s

/-! ## What each call does -/

section Spec

variable {s s' : JitState} {thread : Nat}

@[simp] theorem register_tss (ts : ThreadState) :
    (s.register thread ts).tss = s.tss ++ [s.nextAddress] := rfl

@[simp] theorem register_heap (ts : ThreadState) :
    (s.register thread ts).heap = Function.update s.heap s.nextAddress (some ts) := rfl

@[simp] theorem register_nextAddress (ts : ThreadState) :
    (s.register thread ts).nextAddress = s.nextAddress + 1 := rfl

@[simp] theorem register_devices (ts : ThreadState) : (s.register thread ts).devices = s.devices :=
  rfl

@[simp] theorem register_threadStateOf (ts : ThreadState) (cuda : Bool) :
    (s.register thread ts).threadStateOf cuda =
      if cuda = ts.cuda then Function.update (s.threadStateOf cuda) thread (some s.nextAddress)
      else s.threadStateOf cuda :=
  JitState.threadStateOf_setThreadState s ts.cuda cuda thread _

/-- `jit_init` returns at its guard, or leaves the ThreadStates and pointers alone and restarts the
variable ids at `1`. -/
theorem jitInit_cases (llvm cuda : Int) (probes : InitProbes) (s : JitState) :
    (initProceeds llvm cuda s = false ∧ jitInit llvm cuda probes s = .done () s) ∨
    (initProceeds llvm cuda s = true ∧ s.hasLlvm = false ∧ s.hasCuda = false ∧
      (jitInit llvm cuda probes s = .failed ∨
        ∃ s', (jitInit llvm cuda probes s = .done () s' ∧
            s'.store = { s.store with variableIndex := 1 } ∨
          jitInit llvm cuda probes s = .raised s' ∧ s'.store = s.store) ∧
          s'.tss = s.tss ∧ s'.heap = s.heap ∧ s'.threadStateCuda = s.threadStateCuda ∧
          s'.threadStateLlvm = s.threadStateLlvm ∧ s'.nextAddress = s.nextAddress)) := by
  unfold initProceeds
  cases hguard : (s.hasLlvm || s.hasCuda || (llvm == 0 && cuda == 0))
  case true => exact .inl ⟨rfl, by rw [jitInit, hguard, if_pos rfl]⟩
  have hactive := Bool.or_eq_false_iff.mp (Bool.or_eq_false_iff.mp hguard).1
  refine .inr ⟨rfl, hactive.1, hactive.2, ?_⟩
  generalize ho : jitInit llvm cuda probes s = o
  rw [jitInit, hguard, if_neg Bool.false_ne_true] at ho
  dsimp only at ho
  split_ifs at ho <;> subst ho
  all_goals first
    | exact .inl rfl
    | exact .inr ⟨_, .inl ⟨rfl, rfl⟩, rfl, rfl, rfl, rfl, rfl⟩
    | exact .inr ⟨_, .inr ⟨rfl, rfl⟩, rfl, rfl, rfl, rfl, rfl⟩

theorem register_threadStateOf_eq_some (ts : ThreadState) (cuda : Bool) (thread' address : Nat) :
    (s.register thread ts).threadStateOf cuda thread' = some address ↔
      (cuda = ts.cuda ∧ thread' = thread ∧ address = s.nextAddress) ∨
        (¬(cuda = ts.cuda ∧ thread' = thread) ∧ s.threadStateOf cuda thread' = some address) := by
  rw [register_threadStateOf]
  by_cases hcuda : cuda = ts.cuda <;> by_cases hthread : thread' = thread <;>
    simp [Function.update_apply, hcuda, hthread, eq_comm]

/-- A new ThreadState belongs to the requested active backend, on device `0` or `-1`. -/
theorem newThreadState_spec {cuda : Bool} {ts : ThreadState} (h : newThreadState cuda s = some ts) :
    ts.cuda = cuda ∧ (s.hasLlvm = true ∨ s.hasCuda = true) ∧ ts.Placed s.devices := by
  cases cuda with
  | false =>
    cases hllvm : s.hasLlvm <;> simp [newThreadState, hllvm] at h
    subst h
    exact ⟨rfl, .inl rfl, rfl⟩
  | true =>
    cases hcuda : s.hasCuda <;> cases hdevices : s.devices <;>
      simp [newThreadState, hcuda, hdevices] at h
    subst h
    exact ⟨rfl, .inr rfl, by simp [ThreadState.Placed, hdevices]⟩

theorem threadState_cases (thread : Nat) (cuda : Bool) (s : JitState) :
    (∃ address, s.threadStateOf cuda thread = some address ∧
      threadState thread cuda s = .done address s) ∨
    (threadState thread cuda s = .raised s) ∨
    ∃ ts, s.threadStateOf cuda thread = none ∧ newThreadState cuda s = some ts ∧
      threadState thread cuda s = .done s.nextAddress (s.register thread ts) := by
  unfold threadState jitInitThreadState
  cases hptr : s.threadStateOf cuda thread with
  | some address => exact .inl ⟨address, rfl, rfl⟩
  | none =>
    cases hnew : newThreadState cuda s with
    | none => exact .inr (.inl rfl)
    | some ts => exact .inr (.inr ⟨ts, rfl, rfl, rfl⟩)

theorem threadState_bind_state? {α : Type} {cuda : Bool} {f : Nat → JitState → Outcome α}
    (h : ((threadState thread cuda s).bind f).state? = some s') :
    s' = s ∨ ∃ address s₁, threadState thread cuda s = .done address s₁ ∧ (f address s₁).state? = some s' := by
  rcases threadState_cases thread cuda s with
    ⟨address, -, heq⟩ | heq | ⟨ts, -, -, heq⟩ <;> rw [heq] at h
  · exact .inr ⟨address, s, heq, h⟩
  · cases h; exact .inl rfl
  · exact .inr ⟨_, _, heq, h⟩

/-- `jit_cuda_set_device`: a deleted ThreadState, the same device, an index outside, or a switch. -/
theorem setDeviceOf_cases (device : CInt) (address : Nat) (s : JitState) :
    (s.heap address = none ∧ setDeviceOf device address s = .undefined) ∨
    ∃ ts, s.heap address = some ts ∧
      ((ts.device = device.val ∧ setDeviceOf device address s = .done () s) ∨
        (ts.device ≠ device.val ∧ s.devices.length ≤ sizeT device.val ∧
          setDeviceOf device address s = .raised s) ∨
        ∃ d, ts.device ≠ device.val ∧ s.devices[sizeT device.val]? = some d ∧
          setDeviceOf device address s = .done () (s.switchDevice address ts device.val d)) := by
  unfold setDeviceOf
  cases hts : s.heap address with
  | none => exact .inl ⟨rfl, rfl⟩
  | some ts =>
    refine .inr ⟨ts, rfl, ?_⟩
    by_cases hsame : ts.device = device.val
    · exact .inl ⟨hsame, by simp [hsame]⟩
    by_cases hrange : s.devices.length ≤ sizeT device.val
    · exact .inr (.inl ⟨hsame, hrange, by simp [hsame, hrange]⟩)
    · refine .inr (.inr ⟨_, hsame, List.getElem?_eq_getElem (by omega), ?_⟩)
      simp [hsame, hrange]

/-- An index of the device list is a non-negative `int`, as the `size_t` cast makes it. -/
theorem sizeT_lt_length (device : CInt) (devices : List Device)
    (hdevices : devices.length ≤ deviceMaxSize) (h : sizeT device.val < devices.length) :
    0 ≤ device.val ∧ device.val.toNat = sizeT device.val := by
  obtain ⟨value, hlower, hupper⟩ := device
  simp only [sizeT, deviceMaxSize] at *
  omega

end Spec

end Jit
end DrJitCore
