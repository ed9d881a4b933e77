import DrJitCore.Jit.Init

/-!
# Shutdown

`jit_shutdown` deletes every registered ThreadState, clears the calling thread's pointers, and,
when warnings are logged, releases the scatters held only by one external reference; with no
variable left, a non-empty CSE cache or pointer-literal map is fatal.
-/

namespace DrJitCore
namespace Jit

/-- The loop body of `jit_shutdown` over `state.tss`: wait for the ThreadState and `delete` it. -/
def releaseThreadState (address : Nat) (s : JitState) : Outcome Unit :=
  match s.heap address with
  | none => .undefined
  | some ts =>
    let s := if ts.cuda then s.syncStream ts.stream else s.taskWaitAndRelease ts.task
    .done () { s with heap := Function.update s.heap address none }

/-- The scatters whose only reference is one external one, in map order. -/
def leakedScatters (store : VarStore) : List Nat :=
  (store.vars.filter fun e => e.2.scatter && e.2.refCountExt == 1 && e.2.refCountInt == 0).map
    (·.1)

/-- `jit_var_dec_ref_ext` on each leaked scatter. -/
def releaseLeakedScatters (store : VarStore) : Option VarStore :=
  (leakedScatters store).foldlM (fun store index => jitVarDecRefExt index store) store

/-- The end of `jit_shutdown`: the devices are released when the CUDA backend is active. -/
def JitState.finishShutdown (s : JitState) : JitState :=
  { s with
    devices := if s.hasCuda then [] else s.devices
    devices_length_le := by
      split
      · exact Nat.zero_le _
      · exact s.devices_length_le
    tempPath := none
    hasCuda := false
    hasLlvm := false }

/-- `jit_shutdown` after the ThreadStates: pointers, kernel cache, leak pass, leak checks, flags. -/
def shutdownRest (thread : Nat) (s : JitState) : Outcome Unit :=
  let s :=
    { (s.setThreadState false thread none).setThreadState true thread none with kernelCache := [] }
  match if s.warnEnabled then releaseLeakedScatters s.store else some s.store with
  | none => .failed
  | some store =>
    if store.vars.isEmpty && !store.cseCache.isEmpty then .failed
    else if store.vars.isEmpty && !store.variableFromPtr.isEmpty then .failed
    else .done () { s with store }.finishShutdown

/-- `jit_shutdown()` called by a thread. -/
def jitShutdown (thread : Nat) (s : JitState) : Outcome Unit :=
  (forEach releaseThreadState s.tss s).bind fun _ s => shutdownRest thread { s with tss := [] }

/-! ## What shutdown leaves -/

theorem releaseThreadState_spec {address : Nat} {s s' : JitState}
    (h : releaseThreadState address s = .done () s') :
    s'.heap = Function.update s.heap address none ∧ s'.tss = s.tss ∧
      s'.threadStateCuda = s.threadStateCuda ∧ s'.threadStateLlvm = s.threadStateLlvm ∧
      s'.nextAddress = s.nextAddress ∧ s'.store = s.store := by
  unfold releaseThreadState at h
  split at h
  · cases h
  · cases h; split <;> exact ⟨rfl, rfl, rfl, rfl, rfl, rfl⟩

/-- The ThreadState loop deletes the ThreadStates of its snapshot and keeps everything else. -/
theorem forEach_releaseThreadState_spec :
    ∀ (addresses : List Nat) (s s' : JitState),
      forEach releaseThreadState addresses s = .done () s' →
        (∀ address, s'.heap address = if address ∈ addresses then none else s.heap address) ∧
        s'.tss = s.tss ∧ s'.threadStateCuda = s.threadStateCuda ∧
        s'.threadStateLlvm = s.threadStateLlvm ∧ s'.nextAddress = s.nextAddress ∧ s'.store = s.store
  | [], s, s', h => by cases h; exact ⟨by simp, rfl, rfl, rfl, rfl, rfl⟩
  | address :: rest, s, s', h => by
    simp only [forEach] at h
    rcases Outcome.bind_cases (releaseThreadState address s) _ with
      ⟨_, s₁, h₁, hbind⟩ | ⟨_, _, hbind⟩ | hbind | hbind
    · rw [hbind] at h
      obtain ⟨hheap₁, htss₁, hcuda₁, hllvm₁, hnext₁, hstore₁⟩ := releaseThreadState_spec h₁
      obtain ⟨hheap, htss, hcuda, hllvm, hnext, hstore⟩ :=
        forEach_releaseThreadState_spec rest s₁ s' h
      refine ⟨fun b => ?_, htss.trans htss₁, hcuda.trans hcuda₁, hllvm.trans hllvm₁,
        hnext.trans hnext₁, hstore.trans hstore₁⟩
      rw [hheap, hheap₁]
      by_cases hb : b = address <;> by_cases hr : b ∈ rest <;> simp [Function.update_apply, hb, hr]
    all_goals rw [hbind] at h; cases h

theorem releaseLeakedScatters_variableIndex {store store' : VarStore}
    (h : releaseLeakedScatters store = some store') : store'.variableIndex = store.variableIndex :=
  foldlM_option_preserves _ (fun st => st.variableIndex = store.variableIndex)
    (fun _ _ _ hst hstep => (jitVarDecRefExt_variableIndex _ _ _ hstep).trans hst) _ _ _ rfl h

theorem shutdownRest_cases (thread : Nat) (s : JitState) :
    shutdownRest thread s = .failed ∨
      ∃ store, (if s.warnEnabled then releaseLeakedScatters s.store else some s.store) = some store ∧
        shutdownRest thread s = .done ()
          { (s.setThreadState false thread none).setThreadState true thread none with
              kernelCache := [], store }.finishShutdown := by
  simp only [shutdownRest, JitState.warnEnabled, JitState.setThreadState]
  cases hleak : (if warnEnabledAt s.logLevelStderr s.logLevelCallback then
      releaseLeakedScatters s.store else some s.store) with
  | none => exact .inl rfl
  | some store =>
    dsimp only
    by_cases h₁ : (store.vars.isEmpty && !store.cseCache.isEmpty) = true
    · exact .inl (if_pos h₁)
    by_cases h₂ : (store.vars.isEmpty && !store.variableFromPtr.isEmpty) = true
    · exact .inl ((if_neg h₁).trans (if_pos h₂))
    · exact .inr ⟨store, rfl, (if_neg h₁).trans (if_neg h₂)⟩

theorem jitShutdown_store {thread : Nat} {s s' : JitState} (h : jitShutdown thread s = .done () s') :
    s'.store = s.store ∨ releaseLeakedScatters s.store = some s'.store := by
  unfold jitShutdown at h
  rcases Outcome.bind_cases (forEach releaseThreadState s.tss s) _ with
    ⟨_, s₁, h₁, hbind⟩ | ⟨_, _, hbind⟩ | hbind | hbind
  · rw [hbind] at h
    have hstore := (forEach_releaseThreadState_spec _ _ _ h₁).2.2.2.2.2
    rcases shutdownRest_cases thread { s₁ with tss := [] } with hfail | ⟨store, hleak, hdone⟩
    · rw [hfail] at h; cases h
    rw [hdone] at h; cases h
    show store = s.store ∨ releaseLeakedScatters s.store = some store
    rw [← hstore]
    split at hleak
    · exact .inr hleak
    · cases hleak; exact .inl rfl
  all_goals rw [hbind] at h; cases h

/-- After `jit_shutdown` no ThreadState is registered, the caller's pointers are null, and the other
threads keep theirs. -/
theorem jitShutdown_spec {thread : Nat} {s s' : JitState} (h : jitShutdown thread s = .done () s') :
    s'.tss = [] ∧ s'.nextAddress = s.nextAddress ∧
      (∀ address, s'.heap address = if address ∈ s.tss then none else s.heap address) ∧
      (∀ cuda other, s'.threadStateOf cuda other =
        if other = thread then none else s.threadStateOf cuda other) ∧
      s'.store.variableIndex = s.store.variableIndex := by
  have hindex : s'.store.variableIndex = s.store.variableIndex := by
    rcases jitShutdown_store h with hs | hs
    · rw [hs]
    · exact releaseLeakedScatters_variableIndex hs
  unfold jitShutdown at h
  rcases Outcome.bind_cases (forEach releaseThreadState s.tss s) _ with
    ⟨_, s₁, h₁, hbind⟩ | ⟨_, _, hbind⟩ | hbind | hbind
  · rw [hbind] at h
    obtain ⟨hheap, -, hcuda, hllvm, hnext, -⟩ := forEach_releaseThreadState_spec _ _ _ h₁
    rcases shutdownRest_cases thread { s₁ with tss := [] } with hfail | ⟨store, -, hdone⟩
    · rw [hfail] at h; cases h
    rw [hdone] at h; cases h
    refine ⟨rfl, hnext, hheap, fun cuda other => ?_, hindex⟩
    cases cuda <;> by_cases hother : other = thread <;>
      simp [JitState.finishShutdown, JitState.setThreadState, JitState.threadStateOf, hother,
        Function.update_noteq, hcuda, hllvm]
  all_goals rw [hbind] at h; cases h

theorem jitShutdown_ne_raised (thread : Nat) (s s' : JitState) : jitShutdown thread s ≠ .raised s' := by
  unfold jitShutdown
  rcases Outcome.bind_cases (forEach releaseThreadState s.tss s) _ with
    ⟨_, s₁, _, hbind⟩ | ⟨_, hraise, _⟩ | hbind | hbind
  · rw [hbind]
    rcases shutdownRest_cases thread { s₁ with tss := [] } with h | ⟨_, _, h⟩ <;> rw [h] <;> nofun
  · exact absurd hraise (forEach_never_raises _ (fun _ _ _ => by
      unfold releaseThreadState; split <;> nofun) _ _ _)
  all_goals rw [hbind]; nofun

/-! ## Log levels -/

section LogLevels

variable (stderr callback : LogLevel)

theorem releaseThreadState_withLogLevels (address : Nat) (s : JitState) :
    releaseThreadState address (s.withLogLevels stderr callback) =
      (releaseThreadState address s).mapState (·.withLogLevels stderr callback) := by
  unfold releaseThreadState
  cases h : s.heap address with
  | none => simp only [JitState.withLogLevels, h, Outcome.mapState]
  | some ts =>
    simp only [JitState.withLogLevels, h, Outcome.mapState]
    cases ts.cuda <;> rfl

theorem releaseThreadState_levels (address : Nat) (s s' : JitState)
    (h : releaseThreadState address s = .done () s') :
    s'.logLevelStderr = s.logLevelStderr ∧ s'.logLevelCallback = s.logLevelCallback := by
  unfold releaseThreadState at h
  split at h
  · cases h
  · cases h; split <;> exact ⟨rfl, rfl⟩

theorem forEach_releaseThreadState_levels (addresses : List Nat) (s s' : JitState)
    (h : forEach releaseThreadState addresses s = .done () s') :
    s'.logLevelStderr = s.logLevelStderr ∧ s'.logLevelCallback = s.logLevelCallback :=
  forEach_preserves releaseThreadState
    (fun s' => s'.logLevelStderr = s.logLevelStderr ∧ s'.logLevelCallback = s.logLevelCallback)
    (fun address s₁ s₂ hs₁ hstep => by
      obtain ⟨hstderr, hcallback⟩ := releaseThreadState_levels address s₁ s₂ hstep
      exact ⟨hstderr.trans hs₁.1, hcallback.trans hs₁.2⟩)
    addresses s s' ⟨rfl, rfl⟩ h

theorem shutdownRest_withLogLevels (thread : Nat) (s : JitState)
    (h : warnEnabledAt stderr callback = s.warnEnabled) :
    shutdownRest thread (s.withLogLevels stderr callback) =
      (shutdownRest thread s).mapState (·.withLogLevels stderr callback) := by
  simp only [shutdownRest, JitState.withLogLevels, JitState.setThreadState,
    JitState.warnEnabled] at h ⊢
  rw [h]
  cases (if warnEnabledAt s.logLevelStderr s.logLevelCallback then releaseLeakedScatters s.store
    else some s.store) with
  | none => rfl
  | some store => dsimp only; split_ifs <;> rfl

end LogLevels

/-- Two settings of the log levels on the same side of `Warn` give the same outcome, and states that
differ in the log levels only. -/
theorem jitShutdown_log_levels (thread : Nat) (s : JitState)
    (stderr callback stderr' callback' : LogLevel)
    (h : warnEnabledAt stderr' callback' = warnEnabledAt stderr callback) :
    jitShutdown thread (s.withLogLevels stderr' callback') =
      (jitShutdown thread (s.withLogLevels stderr callback)).mapState
        (·.withLogLevels stderr' callback') := by
  have hlevels : (s.withLogLevels stderr callback).warnEnabled = warnEnabledAt stderr callback := rfl
  rw [show s.withLogLevels stderr' callback' =
    (s.withLogLevels stderr callback).withLogLevels stderr' callback' from rfl]
  generalize s.withLogLevels stderr callback = s₁ at hlevels
  unfold jitShutdown
  rw [show (s₁.withLogLevels stderr' callback').tss = s₁.tss from rfl,
    forEach_mapState _ _ (fun address s => releaseThreadState_withLogLevels _ _ address s)]
  rcases hloop : forEach releaseThreadState s₁.tss s₁ with ⟨_, s₂⟩ | _ | _ | _
  · obtain ⟨hstderr, hcallback⟩ := forEach_releaseThreadState_levels _ _ _ hloop
    exact shutdownRest_withLogLevels stderr' callback' thread { s₂ with tss := [] }
      (by rw [h, ← hlevels]; simp only [JitState.warnEnabled, hstderr, hcallback])
  all_goals rfl

/-- A variable that writes to memory, held by one external reference. -/
def heldScatter : Variable := ⟨0, .float32, 1, [], 0, 1, true⟩

/-- A process whose only variable is a held scatter. -/
def leakedScatterState : JitState :=
  { JitState.initial .warn .warn with store := ⟨[(1, heldScatter)], [], [], 2⟩ }

theorem jitShutdown_log_levels_leakedScatter :
    warnEnabledAt .warn .error = warnEnabledAt .trace .info ∧
      jitShutdown 0 (leakedScatterState.withLogLevels .warn .error) =
        (jitShutdown 0 (leakedScatterState.withLogLevels .trace .info)).mapState
          (·.withLogLevels .warn .error) :=
  ⟨by decide, jitShutdown_log_levels 0 leakedScatterState .trace .info .warn .error (by decide)⟩

/-- The held scatter with a CSE entry that names no variable. -/
def staleCacheState : JitState :=
  { leakedScatterState with store := ⟨[(1, heldScatter)], [(heldScatter.key, 2)], [], 2⟩ }

/-- Warnings release the held scatter and errors keep it, and with a stale CSE entry only warnings
make the cache check fail. -/
theorem jitShutdown_scatter_release_needs_warn :
    (jitShutdown 0 (leakedScatterState.withLogLevels .warn .warn)).state?.map
        (·.store.vars.length) = some 0 ∧
      (jitShutdown 0 (leakedScatterState.withLogLevels .error .error)).state?.map
        (·.store.vars.length) = some 1 ∧
      (jitShutdown 0 (staleCacheState.withLogLevels .warn .warn) matches .failed) = true ∧
      (jitShutdown 0 (staleCacheState.withLogLevels .error .error) matches .done _ _) = true := by
  decide

end Jit
end DrJitCore
