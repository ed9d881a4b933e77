import DrJitCore.Jit.Collection
import DrJitCore.Jit.Ids

/-!
# The reference counts along a run

I1 and I2 hold in the initial state and every call keeps them, since a new variable takes an id
that no variable holds.  So in every state a run reaches, the leak pass of `jit_shutdown` succeeds
and releases every leaked scatter.
-/

namespace DrJitCore
namespace Jit

open VarStore

namespace VarStore

variable {store : VarStore} {index : Nat} {w : Variable}

theorem refs_eq_zero_of_not_mem (h : ∀ e ∈ store.vars, ∀ d ∈ e.2.deps, d ∈ store.ids)
    (hindex : index ∉ store.ids) : store.refs index = 0 :=
  List.sum_eq_zero fun n hn => by
    obtain ⟨e, he, rfl⟩ := List.mem_map.mp hn
    exact List.count_eq_zero.mpr fun hd => hindex (h e he index hd)

theorem remove_vars_of_not_mem (hindex : index ∉ store.ids) :
    (store.remove index).vars = store.vars :=
  List.filter_eq_self.mpr fun _ he =>
    decide_eq_true fun heq => hindex (heq ▸ List.mem_map_of_mem _ he)

end VarStore

namespace VarStore.Counted

variable {store : VarStore} {pending : List Nat} {index : Nat} {v w : Variable}

theorem perm (hc : store.Counted pending) {pending' : List Nat} (h : pending.Perm pending') :
    store.Counted pending' :=
  ⟨hc.nodup, hc.deps_mem, fun d hd => hc.pending_mem d (h.mem_iff.mpr hd),
    fun e he => by rw [hc.refCountInt e he, h.count_eq]⟩

theorem of_vars_eq (hc : store.Counted pending) {store' : VarStore} (h : store'.vars = store.vars) :
    store'.Counted pending := by
  obtain ⟨vars, cseCache, variableFromPtr, variableIndex⟩ := store'
  subst h
  exact ⟨hc.nodup, hc.deps_mem, hc.pending_mem, hc.refCountInt⟩

theorem increment (hc : store.Counted pending) (hfind : store.find index = some v) :
    (store.set index { v with refCountInt := v.refCountInt + 1 }).Counted (index :: pending) :=
  hc.set hfind rfl (List.forall_mem_cons.mpr ⟨mem_ids_of_find hfind, hc.pending_mem⟩)
    (fun d hd => List.count_cons_of_ne hd pending) (by simp only [List.count_cons_self]; omega)

/-- A new variable without internal references takes up the pending references of its deps. -/
theorem insert (hc : store.Counted (w.deps ++ pending)) (hindex : index ∉ store.ids)
    (hzero : w.refCountInt = 0) : (store.set index w).Counted pending := by
  have hdeps : ∀ d ∈ w.deps, d ∈ store.ids := fun d hd =>
    hc.pending_mem d (List.mem_append_left _ hd)
  have hvars := remove_vars_of_not_mem hindex
  have hids : ∀ j, j ∈ (store.set index w).ids ↔ j = index ∨ j ∈ store.ids := fun j => by
    rw [ids_set, ids, hvars, ← ids, List.mem_cons]
  have hrefs : ∀ d, (store.set index w).refs d = w.deps.count d + store.refs d := fun d => by
    rw [refs, refs, ← hvars]
    rfl
  refine ⟨?_, fun e he d hd => (hids d).mpr (.inr ?_),
    fun d hd => (hids d).mpr (.inr (hc.pending_mem d (List.mem_append_right _ hd))), fun e he => ?_⟩
  · rw [ids_set, ids, hvars, ← ids]
    exact List.nodup_cons.mpr ⟨hindex, hc.nodup⟩
  · rcases List.mem_cons.mp he with rfl | he
    · exact hdeps d hd
    · exact hc.deps_mem e (hvars ▸ he) d hd
  · rw [hrefs]
    rcases List.mem_cons.mp he with rfl | he
    · have hnot : index ∉ w.deps := fun hd => hindex (hdeps index hd)
      have hpend : index ∉ pending := fun hd =>
        hindex (hc.pending_mem index (List.mem_append_right _ hd))
      rw [hzero, List.count_eq_zero.mpr hnot, refs_eq_zero_of_not_mem hc.deps_mem hindex,
        List.count_eq_zero.mpr hpend]
    · rw [hc.refCountInt e (hvars ▸ he), List.count_append]
      omega

end VarStore.Counted

/-! ## The variable calls -/

section Calls

variable {store store' : VarStore} {pending : List Nat} {index : Nat}

theorem jitVarIncRefExt_counted (hc : store.Counted pending)
    (h : jitVarIncRefExt index store = some store') : store'.Counted pending := by
  obtain ⟨v, hfind, rfl⟩ := Option.map_eq_some'.mp h
  exact hc.set_same hfind rfl rfl

theorem jitVarDecRefExt_counted (hc : store.Counted pending)
    (h : jitVarDecRefExt index store = some store') : store'.Counted pending := by
  cases hfind : store.find index with
  | none => simp [jitVarDecRefExt, hfind] at h
  | some v =>
    have hc₁ : (store.set index { v with refCountExt := v.refCountExt - 1 }).Counted pending :=
      hc.set_same hfind rfl rfl
    rw [jitVarDecRefExt, hfind] at h
    dsimp only at h
    split_ifs at h with hext hlast
    · obtain ⟨store₁, hfree, hc', -⟩ := jitVarFree_freeSpec _ index _ pending
        { v with refCountExt := v.refCountExt - 1 } hc₁ (by simp) hlast.2 (Nat.lt_succ_self _)
      rw [hfree] at h
      cases h
      exact hc'
    · cases h
      exact hc₁

theorem incRefDeps_counted : ∀ (deps : List Nat) (store store' : VarStore) (pending : List Nat),
    store.Counted pending → incRefDeps deps store = some store' →
      store'.Counted (deps ++ pending) ∧ ∀ j, j ∈ store'.ids ↔ j ∈ store.ids
  | [], _, _, _, hc, h => by cases h; exact ⟨hc, fun _ => Iff.rfl⟩
  | dep :: deps, store, store', pending, hc, h => by
    rw [incRefDeps, List.foldlM_cons] at h
    cases hfind : store.find dep with
    | none => simp [hfind] at h
    | some d =>
      rw [hfind] at h
      obtain ⟨hc', hids⟩ := incRefDeps_counted deps _ store' (dep :: pending) (hc.increment hfind) h
      exact ⟨hc'.perm List.perm_middle, fun j => (hids j).trans (mem_ids_set hfind)⟩

/-- `jit_var_new` keeps the counts: a new variable takes an id that no variable holds. -/
theorem jitVarNew_counted {v : Variable} (hc : store.Counted pending)
    (h : jitVarNew v store = some (index, store')) : store'.Counted pending := by
  unfold jitVarNew at h
  split at h
  · obtain ⟨store₁, hinc, heq⟩ := Option.map_eq_some'.mp h
    cases heq
    exact jitVarIncRefExt_counted hc hinc
  · obtain ⟨store₁, hdeps, heq⟩ := Option.map_eq_some'.mp h
    cases heq
    obtain ⟨hc₁, hids⟩ := incRefDeps_counted v.deps store store₁ pending hc hdeps
    have hc₂ : store₁.Counted (({ v with refCountInt := 0, refCountExt := 1 } : Variable).deps ++
        pending) := hc₁
    exact (hc₂.insert (fun hmem => store.nextId_free.2.2 ((hids _).mp hmem)) rfl).of_vars_eq rfl

end Calls

/-! ## Along a run -/

section Run

variable {s s' : JitState}

/-- A call leaves `state.variables`, runs the leak pass of `jit_shutdown`, or is a variable call. -/
theorem JitOp.next_store_cases {op : JitOp} (h : op.next s = some s') :
    s'.store.vars = s.store.vars ∨ releaseLeakedScatters s.store = some s'.store ∨
      (∃ v index, op.call = .varNew v ∧ jitVarNew v s.store = some (index, s'.store)) ∨
      (∃ index, jitVarIncRefExt index s.store = some s'.store) ∨
      (∃ index, jitVarDecRefExt index s.store = some s'.store) := by
  obtain ⟨thread, call⟩ := op
  cases call with
  | init llvm cuda probes =>
    refine .inl ?_
    simp only [JitOp.next] at h
    rcases jitInit_cases llvm cuda probes s with
      ⟨-, heq⟩ | ⟨-, -, -, heq | ⟨s₁, ⟨heq, hstore⟩ | ⟨heq, hstore⟩, -⟩⟩ <;>
      rw [heq] at h <;> cases h
    all_goals first | rfl | rw [hstore]
  | shutdown =>
    rcases jitShutdown_store (Outcome.eq_done_of_state? h (jitShutdown_ne_raised thread s)) with
      hs | hs
    · exact .inl (congrArg _ hs)
    · exact .inr (.inl hs)
  | threadState cuda =>
    refine .inl ?_
    rcases threadState_cases thread cuda s with
      ⟨_, _, heq⟩ | heq | ⟨_, _, _, heq⟩ <;> simp only [JitOp.next, heq] at h <;> cases h <;> rfl
  | cudaSetDevice device =>
    exact .inl (congrArg _ (threadState_bind_store (fun _ _ _ => setDeviceOf_store) h))
  | cudaStream | cudaContext =>
    exact .inl (congrArg _
      (threadState_bind_store (fun _ _ _ h₁ => by split at h₁ <;> cases h₁; rfl) h))
  | syncThread =>
    exact .inl (congrArg _ (jitSyncThread_sameThreads
      (Outcome.eq_done_of_state? h (jitSyncThread_ne_raised thread s))).store)
  | syncDevice =>
    exact .inl (congrArg _ (jitSyncDevice_sameThreads
      (Outcome.eq_done_of_state? h (jitSyncDevice_ne_raised thread s))).store)
  | syncAllDevices =>
    exact .inl (congrArg _ (jitSyncAllDevices_sameThreads
      (Outcome.eq_done_of_state? h (jitSyncAllDevices_ne_raised s))).store)
  | varNew v =>
    simp only [JitOp.next, JitState.withStore, Option.map_map] at h
    obtain ⟨⟨index, store⟩, hnew, rfl⟩ := Option.map_eq_some'.mp h
    exact .inr (.inr (.inl ⟨v, index, rfl, hnew⟩))
  | varIncRefExt index =>
    obtain ⟨_, hinc, rfl⟩ := Option.map_eq_some'.mp h
    exact .inr (.inr (.inr (.inl ⟨index, hinc⟩)))
  | varDecRefExt index =>
    obtain ⟨_, hdec, rfl⟩ := Option.map_eq_some'.mp h
    exact .inr (.inr (.inr (.inr ⟨index, hdec⟩)))
  | logSetStderr _ | setLogCallback _ => cases h; exact .inl rfl

/-- Every call keeps I1 and I2. -/
theorem VarStore.Consistent.next {op : JitOp} (hc : s.store.Consistent)
    (h : op.next s = some s') : s'.store.Consistent := by
  rcases JitOp.next_store_cases h with
    hvars | hleak | ⟨v, index, -, hnew⟩ | ⟨index, hinc⟩ | ⟨index, hdec⟩
  · exact hc.of_vars_eq hvars
  · obtain ⟨store', hpass, hc', -⟩ := releaseLeakedScatters_consistent hc
    rw [hpass] at hleak
    cases hleak
    exact hc'
  · exact jitVarNew_counted hc hnew
  · exact jitVarIncRefExt_counted hc hinc
  · exact jitVarDecRefExt_counted hc hdec

theorem VarStore.Consistent.runOps : ∀ (ops : List JitOp) (s : JitState), s.store.Consistent →
    ∀ s' ∈ runOps ops s, s'.store.Consistent
  | [], _, hc, _, h => by cases h; exact hc
  | op :: ops, s, hc, s', h => by
    rw [runOps_cons] at h
    obtain ⟨s₁, h₁, h'⟩ := Option.bind_eq_some.mp h
    exact VarStore.Consistent.runOps ops s₁ (hc.next h₁) s' h'

/-- Along every run from the initial state, I1 and I2 hold, and the leak pass of `jit_shutdown`
succeeds and releases every leaked scatter. -/
theorem leakPass_succeeds_along_run (stderr callback : LogLevel) (ops : List JitOp) :
    ∀ s ∈ runOps ops (JitState.initial stderr callback), s.store.Consistent ∧
      ∃ store', releaseLeakedScatters s.store = some store' ∧
        ∀ index ∈ leakedScatters s.store, store'.find index = none := fun s hs => by
  have hc := VarStore.Consistent.runOps ops _ (show VarStore.Consistent ⟨[], [], [], 1⟩ by decide)
    s hs
  obtain ⟨store', hpass, -, hgone⟩ := releaseLeakedScatters_consistent hc
  exact ⟨hc, store', hpass, hgone⟩

/-- The run that hands out id `1` twice reaches a state where the leak pass succeeds. -/
theorem leakPass_succeeds_along_run_reinit :
    ∃ s ∈ runOps reinitRun (JitState.initial .warn .warn), s.store.Consistent ∧
      ∃ store', releaseLeakedScatters s.store = some store' ∧
        ∀ index ∈ leakedScatters s.store, store'.find index = none :=
  ⟨_, rfl, leakPass_succeeds_along_run .warn .warn reinitRun _ rfl⟩

end Run

end Jit
end DrJitCore
