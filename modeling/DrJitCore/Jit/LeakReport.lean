import DrJitCore.Jit.RefCounts

/-!
# The leak report of `jit_shutdown`

Below `2^32` variables the `uint32_t` counter of the report never wraps, and the report is a closed
form (`leakReport_eq`).  Every call leaves each variable with a reference, so along every run each
line of the report names a variable the leak pass left (`shutdownReport_still_referenced`).
-/

namespace DrJitCore
namespace Jit

/-- A line of the leak report. -/
inductive LeakLine
  /-- `jit_shutdown(): detected variable leaks:` -/
  | detected
  /-- ` - variable %u is still being referenced! (internal references=%u, external
  references=%u)` -/
  | variable (index refCountInt refCountExt : Nat)
  /-- ` - (skipping remainder)` -/
  | skipping
  /-- `jit_shutdown(): %u variables are still referenced!` -/
  | total (count : Nat)
deriving DecidableEq, Repr

/-- The text of a line. -/
def LeakLine.message : LeakLine → String
  | .detected => "jit_shutdown(): detected variable leaks:"
  | .variable index refCountInt refCountExt =>
    " - variable " ++ toString index ++ " is still being referenced! (internal references=" ++
      toString refCountInt ++ ", external references=" ++ toString refCountExt ++ ")"
  | .skipping => " - (skipping remainder)"
  | .total count => "jit_shutdown(): " ++ toString count ++ " variables are still referenced!"

/-- The line that names a variable. -/
def leakLine (entry : Nat × Variable) : LeakLine :=
  .variable entry.1 entry.2.refCountInt entry.2.refCountExt

/-- The loop `for (auto &var : state.variables)` from the count `n_leaked`, and its final count. -/
def reportLoop : Nat → List (Nat × Variable) → List LeakLine × Nat
  | n, [] => ([], n)
  | n, entry :: rest =>
    let lines := (if n = 0 then [LeakLine.detected] else []) ++
      (if n < 10 then [leakLine entry] else if n = 10 then [.skipping] else [])
    let after := reportLoop ((n + 1) % 2 ^ 32) rest
    (lines ++ after.1, after.2)

/-- The report on the variables left after the leak pass. -/
def leakReport (vars : List (Nat × Variable)) : List LeakLine :=
  (reportLoop 0 vars).1 ++ if (reportLoop 0 vars).2 > 0 then [.total (reportLoop 0 vars).2] else []

/-- The report `jit_shutdown` logs: none below `Warn`, and none when the leak pass is fatal. -/
def shutdownReport (s : JitState) : List LeakLine :=
  if s.warnEnabled then ((releaseLeakedScatters s.store).map (leakReport ·.vars)).getD [] else []

theorem reportLoop_eq :
    ∀ (vars : List (Nat × Variable)) (n : Nat), n + vars.length < 2 ^ 32 →
      reportLoop n vars =
        ((if n = 0 ∧ vars ≠ [] then [.detected] else []) ++ (vars.take (10 - n)).map leakLine ++
          (if n ≤ 10 ∧ 10 < n + vars.length then [.skipping] else []), n + vars.length)
  | [], n, _ => by simp [reportLoop]
  | entry :: rest, n, h => by
    simp only [List.length_cons] at h
    rw [reportLoop, Nat.mod_eq_of_lt (by omega), reportLoop_eq rest (n + 1) (by omega)]
    refine Prod.ext ?_ (by simp only [List.length_cons]; omega)
    simp only [Nat.add_eq_zero, one_ne_zero, and_false, false_and, if_false, List.nil_append,
      List.length_cons, ne_eq, reduceCtorEq, not_false_eq_true, and_true]
    rcases Nat.lt_or_ge n 10 with hlt | hge
    · have hiff : (n + 1 ≤ 10 ∧ 10 < n + 1 + rest.length) ↔ (n ≤ 10 ∧ 10 < n + (rest.length + 1)) := by
        omega
      rw [show 10 - n = 10 - (n + 1) + 1 by omega, List.take_succ_cons, List.map_cons]
      simp only [hiff, hlt, if_true]
      by_cases hn : n = 0 <;> simp [hn]
    · have hiff : (n ≤ 10 ∧ 10 < n + (rest.length + 1)) ↔ n = 10 := by omega
      have hno : ¬(n + 1 ≤ 10 ∧ 10 < n + 1 + rest.length) := by omega
      rw [Nat.sub_eq_zero_of_le hge, Nat.sub_eq_zero_of_le (by omega)]
      simp only [hiff, hno, if_false]
      simp [show n ≠ 0 by omega, show ¬n < 10 by omega]

/-- Below `2^32` variables, the report is a header, the first ten variables, one skip line past ten,
and the count; nothing when no variable is left. -/
theorem leakReport_eq (vars : List (Nat × Variable)) (h : vars.length < 2 ^ 32) :
    leakReport vars =
      if vars = [] then []
      else .detected :: (vars.take 10).map leakLine ++
        (if 10 < vars.length then [.skipping] else []) ++ [.total vars.length] := by
  rw [leakReport, reportLoop_eq vars 0 (by omega)]
  cases vars with
  | nil => rfl
  | cons entry rest => simp

/-- Twelve leaked variables, a count that stays far from `2^32`. -/
theorem leakReport_eq_twelve :
    (List.replicate 12 ((7 : Nat), heldScatter)).length < 2 ^ 32 ∧
      leakReport (List.replicate 12 (7, heldScatter)) =
        if List.replicate 12 ((7 : Nat), heldScatter) = [] then []
        else .detected :: ((List.replicate 12 (7, heldScatter)).take 10).map leakLine ++
          (if 10 < (List.replicate 12 ((7 : Nat), heldScatter)).length then [.skipping] else []) ++
          [.total (List.replicate 12 ((7 : Nat), heldScatter)).length] :=
  ⟨by decide, leakReport_eq _ (by decide)⟩

/-! ## Every variable of the map is referenced -/

/-- Every variable of `state.variables` holds an internal or an external reference. -/
def VarStore.Referenced (store : VarStore) : Prop :=
  ∀ e ∈ store.vars, 0 < e.2.refCountInt + e.2.refCountExt

instance (store : VarStore) : Decidable store.Referenced :=
  inferInstanceAs (Decidable (∀ e ∈ store.vars, 0 < e.2.refCountInt + e.2.refCountExt))

/-- Every variable but `index` holds a reference: the map while `jit_var_free` collects `index`. -/
def VarStore.ReferencedExcept (store : VarStore) (index : Nat) : Prop :=
  ∀ e ∈ store.vars, e.1 ≠ index → 0 < e.2.refCountInt + e.2.refCountExt

section Referenced

variable {store store' : VarStore} {index : Nat}

theorem VarStore.Referenced.except (h : store.Referenced) (index : Nat) :
    store.ReferencedExcept index :=
  fun e he _ => h e he

theorem VarStore.ReferencedExcept.remove (h : store.ReferencedExcept index) :
    (store.remove index).Referenced := fun e he => by
  simp only [VarStore.remove, List.mem_filter, decide_eq_true_eq] at he
  exact h e he.1 he.2

theorem VarStore.ReferencedExcept.set (h : store.ReferencedExcept index) (w : Variable) :
    (store.set index w).ReferencedExcept index := fun e he hne => by
  simp only [VarStore.set, List.mem_cons, List.mem_filter, decide_eq_true_eq] at he
  rcases he with rfl | ⟨he, -⟩
  · exact absurd rfl hne
  · exact h e he hne

theorem VarStore.ReferencedExcept.set_of_pos (h : store.ReferencedExcept index) {w : Variable}
    (hw : 0 < w.refCountInt + w.refCountExt) : (store.set index w).Referenced := fun e he => by
  simp only [VarStore.set, List.mem_cons, List.mem_filter, decide_eq_true_eq] at he
  rcases he with rfl | ⟨he, hne⟩
  · exact hw
  · exact h e he hne

/-- Collecting `index` where every other variable is referenced leaves every variable referenced. -/
theorem jitVarFree_referenced :
    ∀ (fuel index : Nat) (store store' : VarStore), store.ReferencedExcept index →
      jitVarFree fuel index store = some store' → store'.Referenced
  | 0, _, _, _, _, h => by cases h
  | fuel + 1, index, store, store', hr, h => by
    unfold jitVarFree at h
    split at h
    · cases h
    refine foldlM_option_preserves _ VarStore.Referenced (fun st dep st' hst hstep => ?_) _ _ _
      hr.remove h
    split at hstep
    · cases hstep
    split at hstep
    · cases hstep
    split at hstep
    · exact jitVarFree_referenced fuel dep _ st' ((hst.except dep).set _) hstep
    · cases hstep
      exact (hst.except dep).set_of_pos (by dsimp only; omega)

theorem jitVarDecRefExt_referenced (hr : store.Referenced)
    (h : jitVarDecRefExt index store = some store') : store'.Referenced := by
  unfold jitVarDecRefExt at h
  split at h
  · cases h
  split at h
  · cases h
  dsimp only at h
  split at h
  · exact jitVarFree_referenced _ index _ store' ((hr.except index).set _) h
  · cases h
    exact (hr.except index).set_of_pos (by dsimp only; omega)

theorem jitVarIncRefExt_referenced (hr : store.Referenced)
    (h : jitVarIncRefExt index store = some store') : store'.Referenced := by
  obtain ⟨v, -, rfl⟩ := Option.map_eq_some'.mp h
  exact (hr.except index).set_of_pos (by dsimp only; omega)

theorem incRefDeps_referenced (deps : List Nat) (hr : store.Referenced)
    (h : incRefDeps deps store = some store') : store'.Referenced :=
  foldlM_option_preserves _ VarStore.Referenced (fun st dep _ hst hstep => by
    obtain ⟨d, -, rfl⟩ := Option.map_eq_some'.mp hstep
    exact (hst.except dep).set_of_pos (by dsimp only; omega)) deps store store' hr h

theorem jitVarNew_referenced {v : Variable} (hr : store.Referenced)
    (h : jitVarNew v store = some (index, store')) : store'.Referenced := by
  unfold jitVarNew at h
  split at h
  · obtain ⟨st, hinc, heq⟩ := Option.map_eq_some'.mp h
    cases heq
    exact jitVarIncRefExt_referenced hr hinc
  · obtain ⟨st, hdeps, heq⟩ := Option.map_eq_some'.mp h
    cases heq
    exact ((incRefDeps_referenced _ hr hdeps).except _).set_of_pos Nat.one_pos

theorem releaseLeakedScatters_referenced (hr : store.Referenced)
    (h : releaseLeakedScatters store = some store') : store'.Referenced :=
  foldlM_option_preserves _ VarStore.Referenced (fun _ _ _ hst hstep => jitVarDecRefExt_referenced hst hstep)
    _ _ _ hr h

end Referenced

theorem VarStore.Referenced.next {op : JitOp} {s s' : JitState} (hr : s.store.Referenced)
    (h : op.next s = some s') : s'.store.Referenced := by
  rcases JitOp.next_store_cases h with
    hvars | hleak | ⟨v, index, -, hnew⟩ | ⟨index, hinc⟩ | ⟨index, hdec⟩
  · exact fun e he => hr e (hvars ▸ he)
  · exact releaseLeakedScatters_referenced hr hleak
  · exact jitVarNew_referenced hr hnew
  · exact jitVarIncRefExt_referenced hr hinc
  · exact jitVarDecRefExt_referenced hr hdec

/-- Every state a run reaches has every variable referenced. -/
theorem VarStore.Referenced.runOps : ∀ (ops : List JitOp) (s : JitState), s.store.Referenced →
    ∀ s' ∈ runOps ops s, s'.store.Referenced
  | [], _, hr, _, h => by cases h; exact hr
  | op :: ops, s, hr, s', h => by
    rw [runOps_cons] at h
    obtain ⟨s₁, h₁, h'⟩ := Option.bind_eq_some.mp h
    exact VarStore.Referenced.runOps ops s₁ (hr.next h₁) s' h'

/-! ## The lines that name a variable -/

theorem mem_reportLoop {index a b : Nat} :
    ∀ (vars : List (Nat × Variable)) (n : Nat), LeakLine.variable index a b ∈ (reportLoop n vars).1 →
      ∃ v, (index, v) ∈ vars ∧ v.refCountInt = a ∧ v.refCountExt = b
  | [], _, h => nomatch h
  | (j, w) :: rest, n, h => by
    simp only [reportLoop, List.mem_append] at h
    rcases h with (h | h) | h
    · split at h <;> simp at h
    · split at h
      · simp only [leakLine, List.mem_singleton, LeakLine.variable.injEq] at h
        obtain ⟨rfl, rfl, rfl⟩ := h
        exact ⟨w, List.mem_cons_self _ _, rfl, rfl⟩
      · split at h <;> simp at h
    · obtain ⟨v, hv, ha, hb⟩ := mem_reportLoop rest _ h
      exact ⟨v, List.mem_cons_of_mem _ hv, ha, hb⟩

theorem mem_leakReport {vars : List (Nat × Variable)} {index a b : Nat}
    (h : LeakLine.variable index a b ∈ leakReport vars) :
    ∃ v, (index, v) ∈ vars ∧ v.refCountInt = a ∧ v.refCountExt = b := by
  rw [leakReport, List.mem_append] at h
  rcases h with h | h
  · exact mem_reportLoop vars 0 h
  · split at h <;> simp at h

/-- Along every run, each variable line of the leak report names a variable the leak pass left, with
its counts, at least one nonzero, and no released scatter. -/
theorem shutdownReport_still_referenced (stderr callback : LogLevel) (ops : List JitOp) :
    ∀ s ∈ runOps ops (JitState.initial stderr callback), ∀ index a b,
      LeakLine.variable index a b ∈ shutdownReport s →
        ∃ store' v, releaseLeakedScatters s.store = some store' ∧ store'.find index = some v ∧
          v.refCountInt = a ∧ v.refCountExt = b ∧ 0 < a + b ∧ index ∉ leakedScatters s.store := by
  intro s hs index a b hline
  have hc := VarStore.Consistent.runOps ops _ (show VarStore.Consistent ⟨[], [], [], 1⟩ by decide)
    s hs
  have hr := VarStore.Referenced.runOps ops _ (show VarStore.Referenced ⟨[], [], [], 1⟩ by decide)
    s hs
  obtain ⟨store', hpass, hc', hgone⟩ := releaseLeakedScatters_consistent hc
  unfold shutdownReport at hline
  split at hline
  · rw [hpass, Option.map_some', Option.getD_some] at hline
    obtain ⟨v, hmem, rfl, rfl⟩ := mem_leakReport hline
    have hfind := (VarStore.find_eq_some_iff hc'.nodup).mpr hmem
    exact ⟨store', v, hpass, hfind, rfl, rfl, releaseLeakedScatters_referenced hr hpass _ hmem,
      fun hi => by simp [hgone index hi] at hfind⟩
  · nomatch hline

/-- A literal created after `jit_init` and never released. -/
def leakedLiteralRun : List JitOp :=
  [⟨0, .init 1 0 cpuOnlyHost⟩, ⟨0, .varNew ⟨0, .float32, 1, [], 0, 1, false⟩⟩]

/-- The literal's report line names a variable the leak pass left, with its counts. -/
theorem shutdownReport_still_referenced_leakedLiteral :
    ∃ s ∈ runOps leakedLiteralRun (JitState.initial .warn .warn),
      LeakLine.variable 1 0 1 ∈ shutdownReport s ∧
      ∃ store' v, releaseLeakedScatters s.store = some store' ∧ store'.find 1 = some v ∧
        v.refCountInt = 0 ∧ v.refCountExt = 1 ∧ 0 < 0 + 1 ∧ 1 ∉ leakedScatters s.store :=
  ⟨_, rfl, by decide,
    shutdownReport_still_referenced .warn .warn leakedLiteralRun _ rfl 1 0 1 (by decide)⟩

/-- The report names the literal, under the id `jit_init` resets the counter to. -/
example : (runOps leakedLiteralRun (JitState.initial .warn .warn)).map shutdownReport =
    some [.detected, .variable 1 0 1, .total 1] := by
  decide

end Jit
end DrJitCore
