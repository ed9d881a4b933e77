import DrJitCore.Jit.Init

/-!
# Synchronisation

`jit_sync_thread`, `jit_sync_device` and `jit_sync_all_devices`.  The calls release the global
mutex while they wait; each is one step of the process here.
-/

namespace DrJitCore
namespace Jit

/-- `jit_sync_thread(ts)`: a CUDA ThreadState waits for its stream, an LLVM one for its task. -/
def jitSyncThreadOf (ts : Option Nat) (s : JitState) : Outcome Unit :=
  match ts with
  | none => .done () s
  | some address =>
    match s.heap address with
    | none => .undefined
    | some ts =>
      if ts.cuda then .done () (s.syncStream ts.stream)
      else
        .done ()
          { s.taskWaitAndRelease ts.task with
            heap := Function.update s.heap address (some { ts with task := none }) }

/-- `jit_sync_thread()`: the calling thread's two ThreadStates. -/
def jitSyncThread (thread : Nat) (s : JitState) : Outcome Unit :=
  (jitSyncThreadOf (s.threadStateCuda thread) s).bind fun _ s =>
    jitSyncThreadOf (s.threadStateLlvm thread) s

/-- The body of the CPU loop of `jit_sync_device`: LLVM ThreadStates are synchronised. -/
def syncCpuThreadState (address : Nat) (s : JitState) : Outcome Unit :=
  match s.heap address with
  | none => .undefined
  | some ts => if ts.cuda then .done () s else jitSyncThreadOf (some address) s

/-- `jit_sync_device()`: the caller's CUDA context, then the LLVM ThreadStates if it has one. -/
def jitSyncDevice (thread : Nat) (s : JitState) : Outcome Unit :=
  let cudaSync : Outcome Unit :=
    match s.threadStateCuda thread with
    | none => .done () s
    | some address =>
      match s.heap address with
      | none => .undefined
      | some ts => .done () (s.syncContext ts.context)
  cudaSync.bind fun _ s =>
    if (s.threadStateLlvm thread).isSome then forEach syncCpuThreadState s.tss s
    else .done () s

/-- `jit_sync_all_devices()`: every ThreadState of a snapshot of `state.tss`. -/
def jitSyncAllDevices (s : JitState) : Outcome Unit :=
  forEach (fun address => jitSyncThreadOf (some address)) s.tss s

/-! ## Synchronisation keeps the ThreadStates -/

theorem jitSyncThreadOf_sameThreads {ts : Option Nat} {s s' : JitState}
    (h : jitSyncThreadOf ts s = .done () s') : SameThreads s s' := by
  unfold jitSyncThreadOf at h
  split at h
  · cases h; exact .refl s
  · split at h
    · cases h
    · rename_i ts hts
      split at h
      · cases h; exact ⟨rfl, rfl, rfl, rfl, rfl, rfl, rfl, rfl, fun _ => rfl⟩
      · cases h
        exact @SameThreads.update_heap _ _ _ { ts with task := none } hts rfl _ rfl rfl rfl rfl rfl
          rfl rfl rfl rfl

theorem syncCpuThreadState_sameThreads {address : Nat} {s s' : JitState}
    (h : syncCpuThreadState address s = .done () s') : SameThreads s s' := by
  unfold syncCpuThreadState at h
  split at h
  · cases h
  · split at h
    · cases h; exact .refl s
    · exact jitSyncThreadOf_sameThreads h

theorem jitSyncThreadOf_ne_raised (ts : Option Nat) (s s' : JitState) :
    jitSyncThreadOf ts s ≠ .raised s' := by
  unfold jitSyncThreadOf
  split
  · nofun
  · split
    · nofun
    · split <;> nofun

theorem syncCpuThreadState_ne_raised (address : Nat) (s s' : JitState) :
    syncCpuThreadState address s ≠ .raised s' := by
  unfold syncCpuThreadState
  split
  · nofun
  · split
    · nofun
    · exact jitSyncThreadOf_ne_raised _ _ _

theorem jitSyncThread_sameThreads {thread : Nat} {s s' : JitState}
    (h : jitSyncThread thread s = .done () s') : SameThreads s s' := by
  unfold jitSyncThread at h
  rcases Outcome.bind_cases (jitSyncThreadOf (s.threadStateCuda thread) s) _ with
    ⟨_, s₁, h₁, hbind⟩ | ⟨_, h₁, _⟩ | hbind | hbind
  · rw [hbind] at h
    exact (jitSyncThreadOf_sameThreads h₁).trans (jitSyncThreadOf_sameThreads h)
  · exact absurd h₁ (jitSyncThreadOf_ne_raised _ _ _)
  all_goals rw [hbind] at h; cases h

theorem jitSyncThread_ne_raised (thread : Nat) (s s' : JitState) : jitSyncThread thread s ≠ .raised s' := by
  unfold jitSyncThread
  rcases Outcome.bind_cases (jitSyncThreadOf (s.threadStateCuda thread) s) _ with
    ⟨_, s₁, _, hbind⟩ | ⟨_, h₁, _⟩ | hbind | hbind
  · rw [hbind]; exact jitSyncThreadOf_ne_raised _ _ _
  · exact absurd h₁ (jitSyncThreadOf_ne_raised _ _ _)
  all_goals rw [hbind]; nofun

theorem jitSyncDevice_eq (thread : Nat) (s : JitState) :
    jitSyncDevice thread s =
      Outcome.bind
        (match s.threadStateCuda thread with
          | none => Outcome.done () s
          | some address =>
            match s.heap address with
            | none => Outcome.undefined
            | some ts => Outcome.done () (s.syncContext ts.context)) fun _ s =>
        if (s.threadStateLlvm thread).isSome then forEach syncCpuThreadState s.tss s
        else .done () s := rfl

theorem syncDevice_cpu_sameThreads {thread : Nat} {s₁ s' : JitState}
    (h : (if (s₁.threadStateLlvm thread).isSome then forEach syncCpuThreadState s₁.tss s₁
      else .done () s₁) = .done () s') : SameThreads s₁ s' := by
  split at h
  · exact forEach_sameThreads _ (fun _ _ _ => syncCpuThreadState_sameThreads) _ _ _ h
  · cases h; exact .refl s₁

theorem jitSyncDevice_sameThreads {thread : Nat} {s s' : JitState}
    (h : jitSyncDevice thread s = .done () s') : SameThreads s s' := by
  rw [jitSyncDevice_eq] at h
  split at h
  · exact syncDevice_cpu_sameThreads h
  · split at h
    · cases h
    · rw [Outcome.bind_done] at h
      refine SameThreads.trans ?_ (syncDevice_cpu_sameThreads h)
      exact ⟨rfl, rfl, rfl, rfl, rfl, rfl, rfl, rfl, fun _ => rfl⟩

theorem jitSyncDevice_ne_raised (thread : Nat) (s s' : JitState) : jitSyncDevice thread s ≠ .raised s' := by
  have hcpu : ∀ s₁ : JitState, (if (s₁.threadStateLlvm thread).isSome
      then forEach syncCpuThreadState s₁.tss s₁ else .done () s₁) ≠ .raised s' := by
    intro s₁
    split
    · exact forEach_never_raises _ syncCpuThreadState_ne_raised _ _ _
    · nofun
  rw [jitSyncDevice_eq]
  split
  · exact hcpu s
  · split
    · nofun
    · exact hcpu _

theorem jitSyncAllDevices_sameThreads {s s' : JitState}
    (h : jitSyncAllDevices s = .done () s') : SameThreads s s' :=
  forEach_sameThreads _ (fun _ _ _ => jitSyncThreadOf_sameThreads) _ _ _ h

theorem jitSyncAllDevices_ne_raised (s s' : JitState) : jitSyncAllDevices s ≠ .raised s' :=
  forEach_never_raises _ (fun _ => jitSyncThreadOf_ne_raised _) _ _ _

/-! ## What `jit_sync_device` synchronises -/

/-- After the CPU loop of `jit_sync_device`, an LLVM ThreadState among `addresses` has no task. -/
def cpuSynced (addresses : List Nat) (address : Nat) (ts : ThreadState) : ThreadState :=
  if address ∈ addresses ∧ ts.cuda = false then { ts with task := none } else ts

@[simp] theorem cpuSynced_cuda (addresses : List Nat) (address : Nat) (ts : ThreadState) :
    (cpuSynced addresses address ts).cuda = ts.cuda := by
  unfold cpuSynced; split <;> rfl

theorem cpuSynced_cons (address : Nat) (rest : List Nat) (a : Nat) (ts : ThreadState) :
    cpuSynced rest a (cpuSynced [address] a ts) = cpuSynced (address :: rest) a ts := by
  unfold cpuSynced
  by_cases ha : a = address <;> by_cases hr : a ∈ rest <;> cases hc : ts.cuda <;> simp [ha, hr, hc]

theorem syncCpuThreadState_spec (address : Nat) (s : JitState) :
    (s.heap address = none ∧ syncCpuThreadState address s = .undefined) ∨
    ∃ s₁, syncCpuThreadState address s = .done () s₁ ∧ s₁.gpuWork = s.gpuWork ∧
      (∀ t ∈ s₁.runningTasks, t ∈ s.runningTasks) ∧
      (∀ a, s₁.heap a = (s.heap a).map (cpuSynced [address] a)) ∧
      ∀ ts, s.heap address = some ts → ts.cuda = false → ∀ t, ts.task = some t → t ∉ s₁.runningTasks := by
  cases hts : s.heap address with
  | none => exact .inl ⟨rfl, by simp [syncCpuThreadState, hts]⟩
  | some ts =>
    right
    cases hc : ts.cuda
    · have hs₁ : syncCpuThreadState address s = .done ()
          { s.taskWaitAndRelease ts.task with
            heap := Function.update s.heap address (some { ts with task := none }) } := by
        simp [syncCpuThreadState, jitSyncThreadOf, hts, hc]
      refine ⟨_, hs₁, rfl, fun t ht => by simp_all [JitState.taskWaitAndRelease], fun a => ?_, ?_⟩
      · by_cases ha : a = address
        · subst ha; simp [hts, cpuSynced, hc]
        · simp only [Function.update_noteq ha]
          cases s.heap a <;> simp [cpuSynced, ha]
      · intro ts' hts' _ t ht
        obtain rfl : ts = ts' := by simpa [hts] using hts'
        simp [JitState.taskWaitAndRelease, ht]
    · refine ⟨s, by simp [syncCpuThreadState, hts, hc], rfl, fun _ h => h, fun a => ?_,
        fun ts' hts' hc' => by simp_all⟩
      by_cases ha : a = address
      · subst ha; simp [hts, cpuSynced, hc]
      · cases s.heap a <;> simp [cpuSynced, ha]

/-- The CPU loop of `jit_sync_device`: every LLVM ThreadState of the snapshot loses its task. -/
theorem forEach_syncCpu (addresses : List Nat) : ∀ s : JitState,
    (forEach syncCpuThreadState addresses s = .undefined ∧ ∃ a ∈ addresses, s.heap a = none) ∨
    ∃ s', forEach syncCpuThreadState addresses s = .done () s' ∧
      s'.gpuWork = s.gpuWork ∧ (∀ t ∈ s'.runningTasks, t ∈ s.runningTasks) ∧
      (∀ a, s'.heap a = (s.heap a).map (cpuSynced addresses a)) ∧
      ∀ a ∈ addresses, ∀ ts, s.heap a = some ts → ts.cuda = false →
        ∀ t, ts.task = some t → t ∉ s'.runningTasks := by
  induction addresses with
  | nil =>
    intro s
    refine .inr ⟨s, rfl, rfl, fun _ h => h, fun a => ?_, by simp⟩
    cases s.heap a <;> simp [cpuSynced]
  | cons address rest ih =>
    intro s
    rcases syncCpuThreadState_spec address s with ⟨hnone, hu⟩ | ⟨s₁, hs₁, hgpu₁, hrun₁, hheap₁, htask₁⟩
    · exact .inl ⟨by simp [forEach, hu, Outcome.bind], address, List.mem_cons_self _ _, hnone⟩
    simp only [forEach, hs₁, Outcome.bind_done]
    rcases ih s₁ with ⟨hu, b, hb, hnone⟩ | ⟨s', hs', hgpu, hrun, hheap, htask⟩
    · refine .inl ⟨hu, b, List.mem_cons_of_mem _ hb, ?_⟩
      simpa [hheap₁] using hnone
    refine .inr ⟨s', hs', hgpu.trans hgpu₁, fun t ht => hrun₁ t (hrun t ht), fun a => ?_, ?_⟩
    · rw [hheap, hheap₁]
      cases s.heap a <;> simp [cpuSynced_cons]
    · intro a ha ts hts hc t ht
      by_cases hfirst : a = address
      · subst hfirst
        exact fun hin => htask₁ ts hts hc t ht (hrun t hin)
      · have hmem : a ∈ rest := by simpa [hfirst] using ha
        refine htask a hmem ts ?_ hc t ht
        simp [hheap₁, hts, cpuSynced, hfirst]

/-- `jit_sync_device` reads a deleted ThreadState. -/
def SyncDangles (thread : Nat) (s : JitState) : Prop :=
  (∃ address, s.threadStateCuda thread = some address ∧ s.heap address = none) ∨
    ((s.threadStateLlvm thread).isSome ∧ ∃ address ∈ s.tss, s.heap address = none)

theorem syncDevice_cpu (thread : Nat) (s₁ : JitState) :
    ((s₁.threadStateLlvm thread).isSome ∧ (∃ address ∈ s₁.tss, s₁.heap address = none) ∧
      (if (s₁.threadStateLlvm thread).isSome then forEach syncCpuThreadState s₁.tss s₁
        else .done () s₁) = .undefined) ∨
    ∃ s', (if (s₁.threadStateLlvm thread).isSome then forEach syncCpuThreadState s₁.tss s₁
        else .done () s₁) = .done () s' ∧ s'.gpuWork = s₁.gpuWork ∧
      ((s₁.threadStateLlvm thread).isSome → ∀ address ∈ s₁.tss, ∀ ts, s₁.heap address = some ts →
        ts.cuda = false →
          s'.heap address = some { ts with task := none } ∧
            ∀ task, ts.task = some task → task ∉ s'.runningTasks) ∧
      (s₁.threadStateLlvm thread = none → s'.heap = s₁.heap ∧ s'.runningTasks = s₁.runningTasks) := by
  cases hllvm : s₁.threadStateLlvm thread with
  | none => exact .inr ⟨s₁, rfl, rfl, by simp, fun _ => ⟨rfl, rfl⟩⟩
  | some _ =>
    simp only [Option.isSome_some, if_true, true_and]
    rcases forEach_syncCpu s₁.tss s₁ with ⟨hu, hdangle⟩ | ⟨s', hs', hgpu, -, hheap, htask⟩
    · exact .inl ⟨hdangle, hu⟩
    · refine .inr ⟨s', hs', hgpu, fun _ address hmem ts hts hc => ⟨?_, htask address hmem ts hts hc⟩,
        by simp⟩
      simp [hheap, hts, cpuSynced, hmem, hc]

/-- `jit_sync_device` is undefined exactly where it reads a deleted ThreadState; otherwise it syncs
the caller's context, and every LLVM ThreadState only when the caller has one itself. -/
theorem jitSyncDevice_spec (thread : Nat) (s : JitState) :
    (SyncDangles thread s ∧ jitSyncDevice thread s = .undefined) ∨
    ∃ s', jitSyncDevice thread s = .done () s' ∧
      (∀ address ts, s.threadStateCuda thread = some address → s.heap address = some ts →
        ∀ work ∈ s'.gpuWork, work.1 ≠ ts.context) ∧
      ((s.threadStateLlvm thread).isSome → ∀ address ∈ s.tss, ∀ ts, s.heap address = some ts →
        ts.cuda = false →
          s'.heap address = some { ts with task := none } ∧
            ∀ task, ts.task = some task → task ∉ s'.runningTasks) ∧
      (s.threadStateLlvm thread = none → s'.heap = s.heap ∧ s'.runningTasks = s.runningTasks) := by
  unfold jitSyncDevice
  cases hcuda : s.threadStateCuda thread with
  | none =>
    rcases syncDevice_cpu thread s with ⟨hsome, hdangle, hu⟩ | ⟨s', hs', -, hcpu, hnone⟩
    · exact .inl ⟨.inr ⟨hsome, hdangle⟩, hu⟩
    · exact .inr ⟨s', hs', by simp, hcpu, hnone⟩
  | some address =>
    dsimp only
    cases hts : s.heap address with
    | none => exact .inl ⟨.inl ⟨address, hcuda, hts⟩, rfl⟩
    | some ts =>
      simp only [Outcome.bind_done]
      rcases syncDevice_cpu thread (s.syncContext ts.context) with
        ⟨hsome, hdangle, hu⟩ | ⟨s', hs', hgpu, hcpu, hnone⟩
      · exact .inl ⟨.inr ⟨hsome, hdangle⟩, hu⟩
      · refine .inr ⟨s', hs', fun a ts' ha hts' work hwork => ?_, hcpu, hnone⟩
        obtain rfl : a = address := by simpa [hcuda] using ha.symm
        obtain rfl : ts = ts' := by simpa [hts] using hts'
        rw [hgpu] at hwork
        simpa [JitState.syncContext] using (List.mem_filter.mp hwork).2

/-- Thread `1` has an LLVM ThreadState whose task `7` runs, and thread `0` has none. -/
def busyCpuState : JitState :=
  { JitState.initial .warn .warn with
    hasLlvm := true
    tss := [0]
    heap := fun address => if address = 0 then some ⟨false, -1, 0, 0, 0, some 7⟩ else none
    nextAddress := 1
    threadStateLlvm := fun thread => if thread = 1 then some 0 else none
    runningTasks := [7] }

/-- Thread `0` syncs the device and thread `1`'s task still runs. -/
theorem jitSyncDevice_skips_cpu :
    (jitSyncDevice 0 busyCpuState).state?.map (fun s => ((s.heap 0).map (·.task), s.runningTasks)) =
      some (some (some 7), [7]) := by
  decide

end Jit
end DrJitCore
