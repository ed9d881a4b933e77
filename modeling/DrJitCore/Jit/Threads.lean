import DrJitCore.Jit.Run

/-!
# ThreadStates along a run

The ThreadStates stay well formed (`Wf`) along every run, so `jit_cuda_set_device` with an index
outside the list raises.  The registry (`Registry`) holds along the runs whose `jit_shutdown` calls
are quiescent; a shutdown while another thread holds a pointer leaves it dangling.
-/

namespace DrJitCore
namespace Jit

/-- What holds of the ThreadStates of every state a run reaches. -/
structure Wf (s : JitState) : Prop where
  /-- No registered pointer and no thread's pointer uses an address from `nextAddress` on. -/
  fresh : ∀ address, s.nextAddress ≤ address →
    address ∉ s.tss ∧ ∀ cuda thread, s.threadStateOf cuda thread ≠ some address
  /-- Every ThreadState on the heap is registered. -/
  registered : ∀ address ts, s.heap address = some ts → address ∈ s.tss
  /-- A thread's pointer for a backend designates, if anything, a ThreadState of the backend. -/
  kinds : ∀ cuda thread address ts,
    s.threadStateOf cuda thread = some address → s.heap address = some ts → ts.cuda = cuda
  /-- ThreadStates exist only while a backend is active. -/
  active : s.tss ≠ [] → s.hasLlvm = true ∨ s.hasCuda = true
  /-- Every ThreadState stands on the device list. -/
  placed : ∀ address ts, s.heap address = some ts → ts.Placed s.devices

/-- Every pointer designates a registered ThreadState of its backend, designated by no other. -/
structure Registry (s : JitState) : Prop where
  designated : ∀ cuda thread address, s.threadStateOf cuda thread = some address →
    address ∈ s.tss ∧ ∃ ts, s.heap address = some ts ∧ ts.cuda = cuda
  owned : ∀ address ∈ s.tss, ∃ ts, s.heap address = some ts ∧
    ∃ thread, s.threadStateOf ts.cuda thread = some address
  unique : ∀ cuda thread thread' address, s.threadStateOf cuda thread = some address →
    s.threadStateOf cuda thread' = some address → thread = thread'
  nodup : s.tss.Nodup

section Frames

variable {s s' : JitState}

theorem placed_of_placement {devices : List Device} {ts ts' : ThreadState}
    (h : ts'.placement = ts.placement) (hts : ts.Placed devices) : ts'.Placed devices := by
  simp only [ThreadState.placement, Prod.mk.injEq] at h
  obtain ⟨hcuda, hdevice, hcontext⟩ := h
  simpa only [ThreadState.Placed, hcuda, hdevice, hcontext] using hts

theorem SameThreads.heap_some (h : SameThreads s s') {address : Nat} {ts' : ThreadState}
    (hts' : s'.heap address = some ts') :
    ∃ ts, s.heap address = some ts ∧ ts'.placement = ts.placement := by
  have hmap := h.heap address
  rw [hts'] at hmap
  cases hts : s.heap address with
  | none => simp [hts] at hmap
  | some ts => exact ⟨ts, rfl, by simpa [hts] using hmap⟩

theorem Wf.of_sameThreads (hw : Wf s) (h : SameThreads s s') : Wf s' where
  fresh address haddress := by
    rw [h.tss, h.nextAddress] at *
    simpa only [h.threadStateOf] using hw.fresh address haddress
  registered address ts' hts' := by
    obtain ⟨ts, hts, -⟩ := h.heap_some hts'
    exact h.tss ▸ hw.registered address ts hts
  kinds cuda thread address ts' hptr hts' := by
    obtain ⟨ts, hts, hplacement⟩ := h.heap_some hts'
    rw [h.threadStateOf] at hptr
    have hcuda := congrArg Prod.fst hplacement
    exact hcuda.trans (hw.kinds cuda thread address ts hptr hts)
  active hne := by
    rw [h.hasLlvm, h.hasCuda]
    exact hw.active (h.tss ▸ hne)
  placed address ts' hts' := by
    obtain ⟨ts, hts, hplacement⟩ := h.heap_some hts'
    exact h.devices ▸ placed_of_placement hplacement (hw.placed address ts hts)

theorem Registry.congr (hr : Registry s) (htss : s'.tss = s.tss)
    (hptr : ∀ cuda, s'.threadStateOf cuda = s.threadStateOf cuda)
    (hheap : ∀ address, (s'.heap address).map (·.cuda) = (s.heap address).map (·.cuda)) :
    Registry s' := by
  have hsome : ∀ address ts, s.heap address = some ts →
      ∃ ts', s'.heap address = some ts' ∧ ts'.cuda = ts.cuda := by
    intro address ts hts
    have hmap := hheap address
    rw [hts] at hmap
    cases hts' : s'.heap address with
    | none => simp [hts'] at hmap
    | some ts' => exact ⟨ts', rfl, by simpa [hts'] using hmap⟩
  refine ⟨fun cuda thread address h => ?_, fun address haddress => ?_, ?_, htss ▸ hr.nodup⟩
  · rw [hptr] at h
    obtain ⟨hmem, ts, hts, hcuda⟩ := hr.designated cuda thread address h
    obtain ⟨ts', hts', hcuda'⟩ := hsome address ts hts
    exact ⟨htss ▸ hmem, ts', hts', hcuda'.trans hcuda⟩
  · obtain ⟨ts, hts, thread, howner⟩ := hr.owned address (htss ▸ haddress)
    obtain ⟨ts', hts', hcuda'⟩ := hsome address ts hts
    exact ⟨ts', hts', thread, by rw [hptr, hcuda']; exact howner⟩
  · intro cuda thread thread' address h h'
    rw [hptr] at h h'
    exact hr.unique cuda thread thread' address h h'

theorem Registry.of_sameThreads (hr : Registry s) (h : SameThreads s s') : Registry s' :=
  hr.congr h.tss h.threadStateOf fun address => by
    have hmap := congrArg (Option.map Prod.fst) (h.heap address)
    simpa only [Option.map_map] using hmap

end Frames

/-! ## What one call does to the ThreadStates -/

section Steps

variable {s s' : JitState} {thread : Nat}

theorem Wf.initial (stderr callback : LogLevel) : Wf (JitState.initial stderr callback) where
  fresh _ _ := ⟨List.not_mem_nil _, fun cuda _ => by cases cuda <;> nofun⟩
  registered _ _ h := by cases h
  kinds _ _ _ _ _ h := by cases h
  active h := absurd rfl h
  placed _ _ h := by cases h

theorem Registry.initial (stderr callback : LogLevel) : Registry (JitState.initial stderr callback) where
  designated cuda _ _ h := by cases cuda <;> cases h
  owned _ h := absurd h (List.not_mem_nil _)
  unique cuda _ _ _ h := by cases cuda <;> cases h
  nodup := List.nodup_nil

theorem Wf.lt_of_mem (hw : Wf s) {address : Nat} (h : address ∈ s.tss) : address < s.nextAddress :=
  Nat.lt_of_not_le fun hle => (hw.fresh address hle).1 h

theorem Wf.lt_of_pointer (hw : Wf s) {cuda : Bool} {address : Nat}
    (h : s.threadStateOf cuda thread = some address) : address < s.nextAddress :=
  Nat.lt_of_not_le fun hle => (hw.fresh address hle).2 cuda thread h

theorem Wf.heap_eq_none (hw : Wf s) (hllvm : s.hasLlvm = false) (hcuda : s.hasCuda = false)
    (address : Nat) : s.heap address = none := by
  cases hts : s.heap address with
  | none => rfl
  | some ts =>
    have htss : s.tss ≠ [] := List.ne_nil_of_mem (hw.registered address ts hts)
    rcases hw.active htss with h | h <;> simp_all

theorem heap_update_eq_some {heap : Nat → Option ThreadState} {address b : Nat} {ts ts' : ThreadState}
    (h : Function.update heap address (some ts) b = some ts') :
    (b = address ∧ ts' = ts) ∨ heap b = some ts' := by
  by_cases hb : b = address
  · subst hb
    simp only [Function.update_same, Option.some.injEq] at h
    exact .inl ⟨rfl, h.symm⟩
  · rw [Function.update_noteq hb] at h
    exact .inr h

theorem Wf.of_register (hw : Wf s) {ts : ThreadState} {cuda : Bool}
    (hnew : newThreadState cuda s = some ts) : Wf (s.register thread ts) := by
  obtain ⟨hcuda, hactive, hplaced⟩ := newThreadState_spec hnew
  have hfresh := hw.fresh s.nextAddress le_rfl
  have hptr : ∀ cuda' thread' address, (s.register thread ts).threadStateOf cuda' thread' = some address →
      (cuda' = ts.cuda ∧ address = s.nextAddress) ∨ s.threadStateOf cuda' thread' = some address :=
    fun cuda' thread' address h =>
      ((register_threadStateOf_eq_some ts cuda' thread' address).mp h).imp (fun h => ⟨h.1, h.2.2⟩) (·.2)
  refine ⟨fun address haddress => ?_, fun address ts' h => ?_, fun cuda' thread' address ts' h h' => ?_,
    fun _ => hactive, fun address ts' h => ?_⟩
  · simp only [register_nextAddress] at haddress
    have hfresh' := hw.fresh address (by omega)
    refine ⟨by simpa [Nat.ne_of_gt haddress] using hfresh'.1, fun cuda' thread' h => ?_⟩
    rcases hptr cuda' thread' address h with ⟨-, rfl⟩ | h
    · omega
    · exact hfresh'.2 cuda' thread' h
  · rcases heap_update_eq_some h with ⟨rfl, -⟩ | h
    · simp
    · simp [hw.registered address ts' h]
  · rcases hptr cuda' thread' address h with ⟨hc, rfl⟩ | h
    · rcases heap_update_eq_some h' with ⟨-, rfl⟩ | h'
      · exact hc.symm
      · exact absurd (hw.registered _ ts' h') hfresh.1
    · rcases heap_update_eq_some h' with ⟨rfl, -⟩ | h'
      · exact absurd h (hfresh.2 cuda' thread')
      · exact hw.kinds cuda' thread' address ts' h h'
  · rcases heap_update_eq_some h with ⟨-, rfl⟩ | h
    · exact hplaced
    · exact hw.placed address ts' h

theorem length_le_sizeT (device : CInt) (devices : List Device)
    (hdevices : devices.length ≤ deviceMaxSize) (h : ¬(0 ≤ device.val ∧ device.val < devices.length)) :
    devices.length ≤ sizeT device.val := by
  refine Nat.le_of_not_lt fun hlt => h ?_
  obtain ⟨hnonneg, hval⟩ := sizeT_lt_length device devices hdevices hlt
  exact ⟨hnonneg, by omega⟩

theorem Wf.of_switchDevice (hw : Wf s) {address : Nat} {ts : ThreadState} {device : CInt} {d : Device}
    (hptr : s.threadStateCuda thread = some address) (hts : s.heap address = some ts)
    (hd : s.devices[sizeT device.val]? = some d) :
    Wf (s.switchDevice address ts device.val d) := by
  have hcuda : ts.cuda = true := hw.kinds true thread address ts hptr hts
  have hlt : sizeT device.val < s.devices.length := by
    by_contra hle
    simp [List.getElem?_eq_none (Nat.le_of_not_lt hle)] at hd
  obtain ⟨hnonneg, htoNat⟩ := sizeT_lt_length device s.devices s.devices_length_le hlt
  have hheap := fun b ts' (h : (s.switchDevice address ts device.val d).heap b = some ts') =>
    heap_update_eq_some h
  refine ⟨hw.fresh, fun b ts' h => ?_, fun cuda thread' b ts' h h' => ?_, hw.active,
    fun b ts' h => ?_⟩
  · rcases hheap b ts' h with ⟨rfl, -⟩ | h
    · exact hw.registered _ ts hts
    · exact hw.registered b ts' h
  · rcases hheap b ts' h' with ⟨rfl, rfl⟩ | h'
    · exact hw.kinds cuda thread' _ ts h hts
    · exact hw.kinds cuda thread' b ts' h h'
  · rcases hheap b ts' h with ⟨rfl, rfl⟩ | h
    · have hdevices : (s.switchDevice b ts device.val d).devices = s.devices := rfl
      simp only [ThreadState.Placed, hcuda, if_true, hdevices, htoNat, hd, Option.map_some']
      exact ⟨hnonneg, by omega, trivial⟩
    · exact hw.placed b ts' h

theorem Wf.of_shutdown (hw : Wf s) (h : jitShutdown thread s = .done () s') : Wf s' := by
  obtain ⟨htss, hnext, hheap, hptr, -⟩ := jitShutdown_spec h
  have hnone : ∀ address, s'.heap address = none := fun address => by
    rw [hheap]
    split
    · rfl
    · cases hts : s.heap address with
      | none => rfl
      | some ts => exact absurd (hw.registered address ts hts) ‹_›
  refine ⟨fun address haddress => ⟨by simp [htss], fun cuda other => ?_⟩,
    fun address ts h => by simp [hnone] at h, fun _ _ address ts _ h => by simp [hnone] at h,
    fun h => absurd htss h, fun address ts h => by simp [hnone] at h⟩
  rw [hptr]
  split
  · nofun
  · exact (hw.fresh address (hnext ▸ haddress)).2 cuda other

/-- A `jit_init` past its guard, with no backend active, keeps the invariant. -/
theorem Wf.of_inactive (hw : Wf s) (hllvm : s.hasLlvm = false) (hcuda : s.hasCuda = false)
    (htss : s'.tss = s.tss) (hheap : s'.heap = s.heap) (hcudaPtr : s'.threadStateCuda = s.threadStateCuda)
    (hllvmPtr : s'.threadStateLlvm = s.threadStateLlvm) (hnext : s'.nextAddress = s.nextAddress) :
    Wf s' := by
  have hempty : s.tss = [] := by
    by_contra hne
    rcases hw.active hne with h | h <;> simp_all
  have hnone := hw.heap_eq_none hllvm hcuda
  refine ⟨fun address haddress => ⟨by simp [htss, hempty], fun cuda thread' => ?_⟩,
    fun address ts h => by simp [hheap, hnone] at h, fun _ _ address ts _ h => by simp [hheap, hnone] at h,
    fun h => absurd (htss.trans hempty) h, fun address ts h => by simp [hheap, hnone] at h⟩
  have := (hw.fresh address (hnext ▸ haddress)).2 cuda thread'
  cases cuda
  · rwa [JitState.threadStateOf, hllvmPtr]
  · rwa [JitState.threadStateOf, hcudaPtr]

theorem Wf.of_threadStep (hw : Wf s) (h : ThreadStep thread s s') : Wf s' := by
  cases h with
  | keep hsame => exact hw.of_sameThreads hsame
  | data => exact ⟨hw.1, hw.2, hw.3, hw.4, hw.5⟩
  | register _ hnew => exact hw.of_register hnew
  | switch hptr hts hd => exact hw.of_switchDevice hptr hts hd
  | init hllvm hcuda htss hheap hcudaPtr hllvmPtr hnext =>
    exact hw.of_inactive hllvm hcuda htss hheap hcudaPtr hllvmPtr hnext

/-- Every call keeps the invariant. -/
theorem Wf.next (hw : Wf s) {op : JitOp} (h : op.next s = some s') : Wf s' := by
  rcases JitOp.next_cases h with ⟨s₁, h₁, h₂⟩ | ⟨-, hshut⟩
  · exact (hw.of_threadStep h₁).of_threadStep h₂
  · exact hw.of_shutdown hshut

/-- With an index outside the device list, `jit_cuda_set_device` raises. -/
theorem Wf.setDeviceOf_out_of_range (hw : Wf s) {address : Nat} {ts : ThreadState} {device : CInt}
    (hptr : s.threadStateCuda thread = some address) (hts : s.heap address = some ts)
    (hout : ¬(0 ≤ device.val ∧ device.val < s.devices.length)) :
    setDeviceOf device address s = .raised s := by
  have hplaced := hw.placed address ts hts
  simp only [ThreadState.Placed, hw.kinds true thread address ts hptr hts, if_true] at hplaced
  rcases setDeviceOf_cases device address s with ⟨hnone, -⟩ | ⟨ts', hts', hcase⟩
  · simp [hts] at hnone
  · obtain rfl : ts = ts' := by simpa [hts] using hts'
    rcases hcase with ⟨hsame, -⟩ | ⟨-, -, hraise⟩ | ⟨d, -, hd, -⟩
    · exact absurd ⟨hsame ▸ hplaced.1, hsame ▸ hplaced.2.1⟩ hout
    · exact hraise
    · have hle := length_le_sizeT device s.devices s.devices_length_le hout
      simp [List.getElem?_eq_none hle] at hd

end Steps

/-! ## Devices -/

/-- Every state a run reaches from a state with the invariant has it. -/
theorem Wf.runOps : ∀ (ops : List JitOp) (s : JitState), Wf s → ∀ s' ∈ runOps ops s, Wf s'
  | [], _, hw, _, h => by cases h; exact hw
  | op :: ops, s, hw, s', h => by
    rw [runOps_cons] at h
    cases hnext : op.next s with
    | none => simp [hnext] at h
    | some s₁ =>
      rw [hnext] at h
      exact Wf.runOps ops s₁ (hw.next hnext) s' h

/-- In every state a run reaches each ThreadState stands on the device list, and an index outside
it makes `jit_cuda_set_device` raise unless the caller's pointer dangles. -/
theorem devices_placed (ops : List JitOp) (stderr callback : LogLevel) :
    ∀ s ∈ runOps ops (JitState.initial stderr callback),
      (∀ address ∈ s.tss, ∀ ts, s.heap address = some ts → ts.Placed s.devices) ∧
      ∀ thread (device : CInt), ¬(0 ≤ device.val ∧ device.val < s.devices.length) →
        (∃ address, s.threadStateCuda thread = some address ∧ s.heap address = none ∧
          jitCudaSetDevice thread device s = .undefined) ∨
        ∃ s₁, (threadState thread true s).state? = some s₁ ∧
          jitCudaSetDevice thread device s = .raised s₁ := by
  intro s hs
  have hw := Wf.runOps ops _ (Wf.initial stderr callback) s hs
  refine ⟨fun address _ ts hts => hw.placed address ts hts, fun thread device hout => ?_⟩
  unfold jitCudaSetDevice
  rcases threadState_cases thread true s with
    ⟨address, hptr, heq⟩ | heq | ⟨ts, -, hnew, heq⟩ <;> rw [heq]
  · cases hts : s.heap address with
    | none => exact .inl ⟨address, hptr, hts, by simp [setDeviceOf, hts]⟩
    | some ts => exact .inr ⟨s, rfl, hw.setDeviceOf_out_of_range hptr hts hout⟩
  · exact .inr ⟨s, rfl, rfl⟩
  · exact .inr ⟨_, rfl,
      (hw.of_register hnew).setDeviceOf_out_of_range (threadState_step heq).2
        (show (s.register thread ts).heap s.nextAddress = some ts by simp) hout⟩

/-- A machine with two CUDA devices, no peer access and no LLVM library. -/
def twoGpuHost : InitProbes where
  home := []
  tempPathExists := true
  mkdirSucceeds := true
  llvmInit := false
  cudaInit := true
  cudaDevices := [⟨80, 1, 1, 49152, 6, 8, 5⟩, ⟨80, 1, 1, 49152, 6, 8, 6⟩]
  canAccessPeer := fun _ _ => false
  enablePeerAccess := fun _ _ => .success

/-- Thread `0` initialises CUDA, takes a CUDA ThreadState and moves it to device `1`. -/
def gpuSwitchRun : List JitOp :=
  [⟨0, .init 0 1 twoGpuHost⟩, ⟨0, .threadState true⟩, ⟨0, .cudaSetDevice ⟨1, by decide⟩⟩]

theorem devices_placed_gpuSwitch :
    ∃ s ∈ runOps gpuSwitchRun (JitState.initial .warn .warn),
      (∀ address ∈ s.tss, ∀ ts, s.heap address = some ts → ts.Placed s.devices) ∧
      ∀ thread (device : CInt), ¬(0 ≤ device.val ∧ device.val < s.devices.length) →
        (∃ address, s.threadStateCuda thread = some address ∧ s.heap address = none ∧
          jitCudaSetDevice thread device s = .undefined) ∨
        ∃ s₁, (threadState thread true s).state? = some s₁ ∧
          jitCudaSetDevice thread device s = .raised s₁ :=
  ⟨_, rfl, devices_placed gpuSwitchRun .warn .warn _ rfl⟩

/-- Thread `0` takes a CUDA ThreadState and thread `1` shuts down. -/
def danglingCudaRun : List JitOp :=
  [⟨0, .init 0 1 twoGpuHost⟩, ⟨0, .threadState true⟩, ⟨1, .shutdown⟩]

/-- After the run, thread `0`'s `jit_cuda_set_device(0)` reads a deleted ThreadState. -/
theorem danglingCudaRun_setDevice_reads_freed :
    (runOps danglingCudaRun (JitState.initial .warn .warn)).map
        (fun s => (s.devices.length, s.threadStateCuda 0, s.heap 0 matches none,
          jitCudaSetDevice 0 ⟨0, by decide⟩ s matches .undefined)) =
      some (0, some 0, true, true) := by
  decide

/-! ## The registry -/

/-- `jit_shutdown` is called while every registered ThreadState is the calling thread's. -/
def JitOp.quiescent (op : JitOp) (s : JitState) : Bool :=
  match op.call with
  | .shutdown => s.tss.all fun address =>
      s.threadStateCuda op.thread == some address || s.threadStateLlvm op.thread == some address
  | _ => true

/-- Every `jit_shutdown` of a run is quiescent. -/
def quiescentRun : List JitOp → JitState → Bool
  | [], _ => true
  | op :: ops, s =>
    op.quiescent s &&
      match op.next s with
      | some s' => quiescentRun ops s'
      | none => true

section RegistrySteps

variable {s s' : JitState} {thread : Nat}

theorem Registry.of_register (hr : Registry s) (hw : Wf s) {cuda : Bool} {ts : ThreadState}
    (hnone : s.threadStateOf cuda thread = none) (hnew : newThreadState cuda s = some ts) :
    Registry (s.register thread ts) := by
  obtain ⟨hcuda, -, -⟩ := newThreadState_spec hnew
  subst hcuda
  have hnext : s.nextAddress ∉ s.tss := (hw.fresh _ le_rfl).1
  have hheap : ∀ address, address ≠ s.nextAddress →
      (s.register thread ts).heap address = s.heap address := fun address h => by
    simp [Function.update_noteq h]
  refine ⟨fun cuda thread' address h => ?_, fun address haddress => ?_,
    fun cuda thread₁ thread₂ address h₁ h₂ => ?_, ?_⟩
  · rcases (register_threadStateOf_eq_some ts cuda thread' address).mp h with
      ⟨rfl, -, rfl⟩ | ⟨-, hold⟩
    · simp
    · obtain ⟨hmem, ts', hts', hcuda'⟩ := hr.designated cuda thread' address hold
      have hne := Nat.ne_of_lt (hw.lt_of_pointer hold)
      exact ⟨by simp [hmem], ts', (hheap address hne).trans hts', hcuda'⟩
  · simp only [register_tss, List.mem_append, List.mem_singleton] at haddress
    rcases haddress with haddress | rfl
    · obtain ⟨ts', hts', owner, howner⟩ := hr.owned address haddress
      have hne := Nat.ne_of_lt (hw.lt_of_mem haddress)
      refine ⟨ts', (hheap address hne).trans hts', owner, ?_⟩
      refine (register_threadStateOf_eq_some ts ts'.cuda owner address).mpr (.inr ⟨?_, howner⟩)
      rintro ⟨hcuda, rfl⟩
      rw [hcuda, hnone] at howner
      cases howner
    · exact ⟨ts, by simp, thread,
        (register_threadStateOf_eq_some ts ts.cuda thread s.nextAddress).mpr (.inl ⟨rfl, rfl, rfl⟩)⟩
  · rcases (register_threadStateOf_eq_some ts cuda thread₁ address).mp h₁ with
      ⟨-, hthread₁, haddress₁⟩ | ⟨-, hold₁⟩ <;>
      rcases (register_threadStateOf_eq_some ts cuda thread₂ address).mp h₂ with
      ⟨-, hthread₂, haddress₂⟩ | ⟨-, hold₂⟩
    · exact hthread₁.trans hthread₂.symm
    · exact absurd (haddress₁ ▸ hold₂) ((hw.fresh _ le_rfl).2 cuda thread₂)
    · exact absurd (haddress₂ ▸ hold₁) ((hw.fresh _ le_rfl).2 cuda thread₁)
    · exact hr.unique cuda thread₁ thread₂ address hold₁ hold₂
  · exact List.pairwise_append.mpr ⟨hr.nodup, List.pairwise_singleton _ _,
      fun a ha b hb => by rw [List.mem_singleton.mp hb]; exact fun h => hnext (h ▸ ha)⟩

theorem Registry.of_switchDevice (hr : Registry s) {address : Nat} {ts : ThreadState} {index : Int}
    {d : Device} (hts : s.heap address = some ts) : Registry (s.switchDevice address ts index d) :=
  hr.congr rfl (fun cuda => by cases cuda <;> rfl) fun b => by
    by_cases hb : b = address
    · subst hb; simp [JitState.switchDevice, hts]
    · simp [JitState.switchDevice, Function.update_noteq hb]

theorem Registry.of_shutdown (hr : Registry s)
    (hq : (⟨thread, .shutdown⟩ : JitOp).quiescent s = true)
    (h : jitShutdown thread s = .done () s') : Registry s' := by
  obtain ⟨htss, -, -, hptr, -⟩ := jitShutdown_spec h
  simp only [JitOp.quiescent, List.all_eq_true, Bool.or_eq_true, beq_iff_eq] at hq
  have hnull : ∀ cuda other address, s'.threadStateOf cuda other ≠ some address := by
    intro cuda other address h'
    rw [hptr] at h'
    split at h'
    · cases h'
    · rename_i hother
      obtain ⟨hmem, ts, hts, hcuda⟩ := hr.designated cuda other address h'
      obtain ⟨cuda', hmine⟩ : ∃ cuda', s.threadStateOf cuda' thread = some address :=
        (hq address hmem).elim (⟨true, ·⟩) (⟨false, ·⟩)
      obtain ⟨-, ts', hts', hcuda'⟩ := hr.designated cuda' thread address hmine
      rw [hts] at hts'
      cases hts'
      rw [← hcuda', hcuda] at hmine
      exact hother (hr.unique cuda other thread address h' hmine)
  exact ⟨fun cuda other address h' => absurd h' (hnull cuda other address),
    fun address haddress => by simp [htss] at haddress,
    fun cuda other _ address h' => absurd h' (hnull cuda other address), by simp [htss]⟩

theorem Registry.of_threadStep (hr : Registry s) (hw : Wf s) (h : ThreadStep thread s s') :
    Registry s' := by
  cases h with
  | keep hsame => exact hr.of_sameThreads hsame
  | data => exact ⟨hr.1, hr.2, hr.3, hr.4⟩
  | register hnone hnew => exact hr.of_register hw hnone hnew
  | switch _ hts _ => exact hr.of_switchDevice hts
  | init _ _ htss hheap hcudaPtr hllvmPtr _ =>
    exact hr.congr htss (fun cuda => by cases cuda <;> assumption) (fun _ => by rw [hheap])

/-- A quiescent call keeps the registry. -/
theorem Registry.next (hr : Registry s) (hw : Wf s) {op : JitOp} (hq : op.quiescent s = true)
    (h : op.next s = some s') : Registry s' := by
  rcases JitOp.next_cases h with ⟨s₁, h₁, h₂⟩ | ⟨hcall, hshut⟩
  · exact (hr.of_threadStep hw h₁).of_threadStep (hw.of_threadStep h₁) h₂
  · obtain ⟨thread, call⟩ := op
    cases hcall
    exact hr.of_shutdown hq hshut

end RegistrySteps

theorem Registry.runOps : ∀ (ops : List JitOp) (s : JitState), Wf s → Registry s →
    quiescentRun ops s = true → ∀ s' ∈ runOps ops s, Registry s'
  | [], _, _, hr, _, _, h => by cases h; exact hr
  | op :: ops, s, hw, hr, hq, s', h => by
    rw [runOps_cons] at h
    simp only [quiescentRun, Bool.and_eq_true] at hq
    cases hnext : op.next s with
    | none => simp [hnext] at h
    | some s₁ =>
      rw [hnext] at h hq
      exact Registry.runOps ops s₁ (hw.next hnext) (hr.next hw hq.1 hnext) hq.2 s' h

end Jit
end DrJitCore
