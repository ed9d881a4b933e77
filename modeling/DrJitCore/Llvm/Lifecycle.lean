import DrJitCore.Llvm.Core

/-!
# Resources and settings of the LLVM backend over every sequence of calls

The `fma` and vector-width checks of `jitc_llvm_init` call `jitc_llvm_shutdown`, which returns at
once while `jitc_llvm_init_success` is false, so the resource invariant holds along the sequences
in which no `jitc_llvm_init` takes one of those two paths.
-/

namespace DrJitCore
namespace Llvm

/-- None of the resources `jitc_llvm_init` acquires is held. -/
def NothingHeld (s : LlvmState) : Prop :=
  s.apiLoaded = false ∧ s.targetTriple = none ∧ s.targetCpu = none ∧ s.targetFeatures = none ∧
    s.disasmCtx = false ∧ s.engine = none ∧ s.onesStr = none

/-- The resources of a usable backend: library, triple and CPU strings, engine and ones table. -/
def BackendHeld (s : LlvmState) : Prop :=
  s.apiLoaded = true ∧ s.targetTriple.isSome ∧ s.targetCpu.isSome ∧ s.engine.isSome ∧
    s.onesStr.isSome

/-- The resource invariant of the backend. -/
structure Resources (s : LlvmState) : Prop where
  /-- A backend that is not usable holds nothing. -/
  released : s.initSuccess = false → NothingHeld s
  /-- A usable backend holds its resources. -/
  held : s.initSuccess = true → BackendHeld s
  /-- Success is only recorded by an attempt. -/
  attempted : s.initSuccess = true → s.initAttempted = true

/-- This `jitc_llvm_init` calls `jitc_llvm_shutdown` while `jitc_llvm_init_success` is false. -/
def TakesSlip (probes : LlvmProbes) (s : LlvmState) : Prop :=
  s.initAttempted = false ∧ probes.apiInit = true ∧ probes.hasCore = true ∧
    (probes.hasPbNew = true ∨ probes.hasPbLegacy = true) ∧
    (strstr probes.hostFeatures "+fma" = false ∨ ¬1 < widthOf probes.hostFeatures)

/-- A call that takes one of those paths. -/
def LlvmCall.TakesSlip : LlvmCall → LlvmState → Prop
  | .init probes, s => Llvm.TakesSlip probes s
  | _, _ => False

/-- A sequence of calls none of which takes one of those paths. -/
def SlipFree (tables : TypeTables) : List LlvmCall → LlvmState → Prop
  | [], _ => True
  | call :: calls, s => ¬call.TakesSlip s ∧ SlipFree tables calls (call.run tables s)

/-- The feature string of the last `jitc_llvm_set_target` so far, once there is one. -/
def LlvmCall.lastFeatures : LlvmCall → Option (Option String) → Option (Option String)
  | .setTarget _ features _, _ => some features
  | _, last => last

/-- The feature string the last `jitc_llvm_set_target` of a sequence passed, if it has one. -/
def lastFeatures (calls : List LlvmCall) : Option (Option String) :=
  calls.foldl (fun last call => call.lastFeatures last) none

/-! ## What one call does -/

theorem jitcLlvmShutdown_of_failed {s : LlvmState} (h : s.initSuccess = false) :
    jitcLlvmShutdown s = s := by
  simp [jitcLlvmShutdown, h]

/-- Past the capability checks, `jitc_llvm_init` returns `initSuccess`; on success the backend holds
the host's strings, an engine and its ones table, and off the slip paths a failure holds nothing. -/
theorem jitcLlvmInitTarget_spec (tables : TypeTables) (probes : LlvmProbes) {s : LlvmState}
    (hs : s.initSuccess = false) :
    (jitcLlvmInitTarget tables probes s).1 = (jitcLlvmInitTarget tables probes s).2.initSuccess ∧
    ((jitcLlvmInitTarget tables probes s).2.initSuccess = true →
      (jitcLlvmInitTarget tables probes s).2.initAttempted = s.initAttempted ∧
      (jitcLlvmInitTarget tables probes s).2.apiLoaded = s.apiLoaded ∧
      (jitcLlvmInitTarget tables probes s).2.targetTriple.isSome ∧
      (jitcLlvmInitTarget tables probes s).2.targetCpu.isSome ∧
      (jitcLlvmInitTarget tables probes s).2.targetFeatures = some probes.hostFeatures ∧
      (jitcLlvmInitTarget tables probes s).2.engine.isSome ∧
      (jitcLlvmInitTarget tables probes s).2.onesStr =
        some (onesString tables (jitcLlvmInitTarget tables probes s).2.vectorWidth.toNat)) ∧
    ((jitcLlvmInitTarget tables probes s).2.initSuccess = false →
      strstr probes.hostFeatures "+fma" = true → 1 < widthOf probes.hostFeatures →
      NothingHeld (jitcLlvmInitTarget tables probes s).2) := by
  unfold jitcLlvmInitTarget
  cases hengine : engineOf probes <;>
    by_cases hwidth : 1 < widthOf probes.hostFeatures <;>
    cases hfma : strstr probes.hostFeatures "+fma" <;>
    simp [hs, hwidth, jitcLlvmShutdown, jitcLlvmApiShutdown, jitcLlvmUpdateStrings, NothingHeld,
      BackendHeld]

theorem jitcLlvmInit_of_attempted (tables : TypeTables) (probes : LlvmProbes) {s : LlvmState}
    (h : s.initAttempted = true) : jitcLlvmInit tables probes s = (s.initSuccess, s) := by
  simp [jitcLlvmInit, h]

/-- `jitc_llvm_init` on a fresh state: a failed capability check, or the part after the checks. -/
theorem jitcLlvmInit_of_fresh (tables : TypeTables) (probes : LlvmProbes) {s : LlvmState}
    (h : s.initAttempted = false) :
    (∃ loaded, jitcLlvmInit tables probes s =
        (false, { s with initAttempted := true, apiLoaded := loaded }) ∧
        (loaded = true → s.apiLoaded = true)) ∨
    (probes.apiInit = true ∧ probes.hasCore = true ∧
      (probes.hasPbNew = true ∨ probes.hasPbLegacy = true) ∧
      jitcLlvmInit tables probes s =
        jitcLlvmInitTarget tables probes { s with initAttempted := true, apiLoaded := true }) := by
  cases hapi : probes.apiInit
  · exact .inl ⟨s.apiLoaded, by simp [jitcLlvmInit, h, hapi], id⟩
  cases hcore : probes.hasCore
  · exact .inl ⟨false, by simp [jitcLlvmInit, h, hapi, hcore, jitcLlvmApiShutdown], nofun⟩
  cases hnew : probes.hasPbNew <;> cases hlegacy : probes.hasPbLegacy
  · exact .inl ⟨false, by simp [jitcLlvmInit, h, hapi, hcore, hnew, hlegacy, jitcLlvmApiShutdown],
      nofun⟩
  all_goals exact .inr ⟨rfl, rfl, by simp, by simp [jitcLlvmInit, h, hapi, hcore, hnew, hlegacy]⟩

/-- A state that has not tried to initialise has not succeeded. -/
theorem initSuccess_of_fresh {s : LlvmState} (hattempted : s.initAttempted = false)
    (h : s.initSuccess = true → s.initAttempted = true) : s.initSuccess = false := by
  cases hs : s.initSuccess
  · rfl
  · simpa [hattempted] using h hs

/-! ## The resource invariant -/

theorem resources_initial : Resources LlvmState.initial :=
  ⟨fun _ => by simp [NothingHeld, LlvmState.initial], fun h => by simp [LlvmState.initial] at h,
    fun h => by simp [LlvmState.initial] at h⟩

theorem resources_shutdown {s : LlvmState} (hs : Resources s) : Resources (jitcLlvmShutdown s) := by
  cases h : s.initSuccess
  · rwa [jitcLlvmShutdown_of_failed h]
  · refine ⟨fun _ => ?_, fun h' => ?_, fun h' => ?_⟩ <;>
      simp_all [jitcLlvmShutdown, jitcLlvmApiShutdown, NothingHeld]

theorem resources_init (tables : TypeTables) (probes : LlvmProbes) {s : LlvmState}
    (hs : Resources s) (hslip : ¬TakesSlip probes s) : Resources (jitcLlvmInit tables probes s).2 := by
  cases hattempted : s.initAttempted
  · have hfailed := initSuccess_of_fresh hattempted hs.attempted
    have hnone := hs.released hfailed
    rcases jitcLlvmInit_of_fresh tables probes hattempted with ⟨loaded, heq, hloaded⟩ |
      ⟨hapi, hcore, hpb, heq⟩
    · rw [heq]
      have : loaded = false := by
        cases loaded
        · rfl
        · simpa [hnone.1] using hloaded rfl
      subst this
      exact ⟨fun _ => ⟨rfl, hnone.2⟩, by simp [hfailed], by simp [hfailed]⟩
    · simp only [TakesSlip, hattempted, hapi, hcore, hpb, true_and, not_or, Bool.not_eq_false,
        not_not] at hslip
      have spec := @jitcLlvmInitTarget_spec tables probes
        { s with initAttempted := true, apiLoaded := true } hfailed
      rw [heq]
      refine ⟨fun h => spec.2.2 h hslip.1 hslip.2, fun h => ?_, fun h => by simp [spec.2.1 h]⟩
      obtain ⟨-, hloaded, htriple, hcpu, -, hengine, hones⟩ := spec.2.1 h
      exact ⟨hloaded, htriple, hcpu, hengine, by simp [hones]⟩
  · rwa [jitcLlvmInit_of_attempted tables probes hattempted]

theorem jitcLlvmInit_fst (tables : TypeTables) (probes : LlvmProbes) {s : LlvmState}
    (hs : Resources s) :
    (jitcLlvmInit tables probes s).1 = (jitcLlvmInit tables probes s).2.initSuccess := by
  cases hattempted : s.initAttempted
  · have hfailed := initSuccess_of_fresh hattempted hs.attempted
    rcases jitcLlvmInit_of_fresh tables probes hattempted with ⟨loaded, heq, -⟩ | ⟨-, -, -, heq⟩
    · simp [heq, hfailed]
    · rw [heq]
      exact (@jitcLlvmInitTarget_spec tables probes
        { s with initAttempted := true, apiLoaded := true } hfailed).1
  · simp [jitcLlvmInit_of_attempted tables probes hattempted]

theorem resources_setTarget (tables : TypeTables) (targetCpu : String)
    (targetFeatures : Option String) (vectorWidth : UInt32) {s : LlvmState} (hs : Resources s) :
    Resources (jitcLlvmSetTarget tables targetCpu targetFeatures vectorWidth s) := by
  cases h : s.initSuccess
  · simpa [jitcLlvmSetTarget, h] using hs
  · have held := hs.held h
    refine ⟨fun h' => ?_, fun _ => ?_, fun _ => ?_⟩
    · simp [jitcLlvmSetTarget, jitcLlvmUpdateStrings, h] at h'
    · simp_all [jitcLlvmSetTarget, jitcLlvmUpdateStrings, BackendHeld]
    · simpa [jitcLlvmSetTarget, jitcLlvmUpdateStrings, h] using hs.attempted h

theorem resources_run (tables : TypeTables) {call : LlvmCall} {s : LlvmState} (hs : Resources s)
    (hslip : ¬call.TakesSlip s) : Resources (call.run tables s) := by
  cases call with
  | init probes => exact resources_init tables probes hs hslip
  | setTarget cpu features width => exact resources_setTarget tables cpu features width hs
  | shutdown => exact resources_shutdown hs

theorem resources_runCalls (tables : TypeTables) {calls : List LlvmCall} {s : LlvmState}
    (hs : Resources s) (hslip : SlipFree tables calls s) : Resources (runCalls tables calls s) := by
  induction calls generalizing s with
  | nil => exact hs
  | cons call calls ih => exact ih (resources_run tables hs hslip.1) hslip.2

/-! ## Settings derived from the width, and the feature string -/

/-- What a usable backend derives from its width, and from `last`, its last retargeting. -/
structure Settings (tables : TypeTables) (s : LlvmState) (last : Option (Option String)) :
    Prop where
  /-- Success is only recorded by an attempt. -/
  attempted : s.initSuccess = true → s.initAttempted = true
  /-- The ones table is the one `jitc_llvm_update_strings` builds for the current width. -/
  ones : s.initSuccess = true → s.onesStr = some (onesString tables s.vectorWidth.toNat)
  /-- Without a feature string, the backend was last retargeted without one. -/
  features : s.initSuccess = true → s.targetFeatures = none → last = some none

theorem settings_initial (tables : TypeTables) : Settings tables LlvmState.initial none :=
  ⟨nofun, nofun, nofun⟩

theorem settings_of_failed (tables : TypeTables) {s : LlvmState} (last : Option (Option String))
    (h : s.initSuccess = false) : Settings tables s last :=
  ⟨fun h' => by simp [h] at h', fun h' => by simp [h] at h', fun h' => by simp [h] at h'⟩

theorem settings_init (tables : TypeTables) (probes : LlvmProbes) {s : LlvmState}
    {last : Option (Option String)} (hs : Settings tables s last) :
    Settings tables (jitcLlvmInit tables probes s).2 last := by
  cases hattempted : s.initAttempted
  · have hfailed := initSuccess_of_fresh hattempted hs.attempted
    rcases jitcLlvmInit_of_fresh tables probes hattempted with ⟨loaded, heq, -⟩ | ⟨-, -, -, heq⟩
    · rw [heq]
      exact settings_of_failed tables last hfailed
    · have spec := (@jitcLlvmInitTarget_spec tables probes
        { s with initAttempted := true, apiLoaded := true } hfailed).2.1
      rw [heq]
      exact ⟨fun h => by simp [(spec h).1], fun h => (spec h).2.2.2.2.2.2,
        fun h hnone => by simp [(spec h).2.2.2.2.1] at hnone⟩
  · rwa [jitcLlvmInit_of_attempted tables probes hattempted]

theorem settings_run (tables : TypeTables) (call : LlvmCall) {s : LlvmState}
    {last : Option (Option String)} (hs : Settings tables s last) :
    Settings tables (call.run tables s) (call.lastFeatures last) := by
  cases call with
  | init probes => exact settings_init tables probes hs
  | setTarget cpu features width =>
    cases h : s.initSuccess
    · simpa [LlvmCall.run, jitcLlvmSetTarget, h] using settings_of_failed tables (some features) h
    · refine ⟨fun _ => ?_, fun _ => ?_, fun _ hnone => ?_⟩ <;>
        simp_all [LlvmCall.run, LlvmCall.lastFeatures, jitcLlvmSetTarget, jitcLlvmUpdateStrings,
          hs.attempted h]
  | shutdown =>
    cases h : s.initSuccess
    · rw [LlvmCall.run, jitcLlvmShutdown_of_failed h]
      exact hs
    · exact settings_of_failed tables _ (by simp [LlvmCall.run, jitcLlvmShutdown, h,
        jitcLlvmApiShutdown])

theorem settings_runCalls (tables : TypeTables) :
    ∀ (calls : List LlvmCall) (s : LlvmState) (last : Option (Option String)),
      Settings tables s last → Settings tables (runCalls tables calls s)
        (calls.foldl (fun last call => call.lastFeatures last) last)
  | [], _, _, hs => hs
  | call :: calls, _, _, hs => settings_runCalls tables calls _ _ (settings_run tables call hs)

/-! ## Every sequence of calls -/

/-- Along every sequence of calls off the two slip paths, a usable backend holds its resources, the
ones table of its width, and a feature string unless the last retargeting passed none; an unusable
one holds nothing, and an initialisation that returns false leaves nothing. -/
theorem llvm_resources_of_slipFree (tables : TypeTables) (calls : List LlvmCall)
    (hslip : SlipFree tables calls LlvmState.initial) :
    Resources (runCalls tables calls LlvmState.initial) ∧
      ((runCalls tables calls LlvmState.initial).initSuccess = true →
        (runCalls tables calls LlvmState.initial).onesStr =
          some (onesString tables (runCalls tables calls LlvmState.initial).vectorWidth.toNat) ∧
        ((runCalls tables calls LlvmState.initial).targetFeatures = none →
          lastFeatures calls = some none)) ∧
      ∀ probes, ¬TakesSlip probes (runCalls tables calls LlvmState.initial) →
        (jitcLlvmInit tables probes (runCalls tables calls LlvmState.initial)).1 = false →
          NothingHeld (jitcLlvmInit tables probes (runCalls tables calls LlvmState.initial)).2 := by
  have hs := resources_runCalls tables resources_initial hslip
  have hsettings := settings_runCalls tables calls _ none (settings_initial tables)
  refine ⟨hs, fun h => ⟨hsettings.ones h, hsettings.features h⟩,
    fun probes hprobe hfalse => (resources_init tables probes hs hprobe).released ?_⟩
  rwa [← jitcLlvmInit_fst tables probes hs]

/-- An x86-64 host with AVX and FMA, and an LLVM with every API. -/
def avxHost : LlvmProbes where
  apiInit := true
  hasCore := true
  hasPbNew := true
  hasPbLegacy := false
  targetTriple := "x86_64-unknown-linux-gnu"
  hostCpu := "haswell"
  hostFeatures := "+sse4.2,+avx,+fma"
  disasmCreated := true
  disasmOptions := true
  hasOrcv2 := true
  orcv2Init := true
  hasMcjit := true
  mcjitInit := true
  versionMajor := 15

/-- The same host without FMA. -/
def noFmaHost : LlvmProbes := { avxHost with hostFeatures := "+sse4.2,+avx" }

/-- The same host with an LLVM that lacks the pass manager. -/
def noPassManagerHost : LlvmProbes := { avxHost with hasPbNew := false }

/-- An AVX host brought up and retargeted without a feature string. -/
def avxRetarget : List LlvmCall := [.init avxHost, .setTarget "haswell" none 8]

/-- The retargeted backend holds no feature string; after a shutdown, an initialisation on an LLVM
without a pass manager returns false and leaves nothing. -/
theorem llvm_resources_avxSession :
    SlipFree llvmIrTables avxRetarget LlvmState.initial ∧
      lastFeatures avxRetarget = some none ∧
    SlipFree llvmIrTables (avxRetarget ++ [.shutdown]) LlvmState.initial ∧
      ¬TakesSlip noPassManagerHost (runCalls llvmIrTables (avxRetarget ++ [.shutdown])
        LlvmState.initial) ∧
      (jitcLlvmInit llvmIrTables noPassManagerHost
        (runCalls llvmIrTables (avxRetarget ++ [.shutdown]) LlvmState.initial)).1 = false ∧
      NothingHeld (jitcLlvmInit llvmIrTables noPassManagerHost
        (runCalls llvmIrTables (avxRetarget ++ [.shutdown]) LlvmState.initial)).2 := by
  have hslip : SlipFree llvmIrTables avxRetarget LlvmState.initial := by
    simp only [avxRetarget, SlipFree, LlvmCall.TakesSlip, LlvmCall.run, TakesSlip]
    decide
  have hslip' : SlipFree llvmIrTables (avxRetarget ++ [.shutdown]) LlvmState.initial := by
    simp only [avxRetarget, List.cons_append, List.nil_append, SlipFree, LlvmCall.TakesSlip,
      LlvmCall.run, TakesSlip]
    decide
  have hprobe : ¬TakesSlip noPassManagerHost
      (runCalls llvmIrTables (avxRetarget ++ [.shutdown]) LlvmState.initial) := by
    simp only [TakesSlip]
    decide
  have hfalse : (jitcLlvmInit llvmIrTables noPassManagerHost
      (runCalls llvmIrTables (avxRetarget ++ [.shutdown]) LlvmState.initial)).1 = false := by
    decide
  exact ⟨hslip, ((llvm_resources_of_slipFree llvmIrTables avxRetarget hslip).2.1
      (by decide)).2 (by decide),
    hslip', hprobe, hfalse,
    (llvm_resources_of_slipFree llvmIrTables _ hslip').2.2 noPassManagerHost hprobe hfalse⟩

/-- A backend retargeted with a null feature string holds none, and without FMA an initialisation
returns false with the library and the triple still held. -/
theorem llvm_resources_counterexample :
    (runCalls llvmIrTables [.init avxHost, .setTarget "haswell" none 8]
      LlvmState.initial).initSuccess = true ∧
    (runCalls llvmIrTables [.init avxHost, .setTarget "haswell" none 8]
      LlvmState.initial).targetFeatures = none ∧
    (jitcLlvmInit llvmIrTables noFmaHost LlvmState.initial).1 = false ∧
    (jitcLlvmInit llvmIrTables noFmaHost LlvmState.initial).2.apiLoaded = true ∧
    (jitcLlvmInit llvmIrTables noFmaHost LlvmState.initial).2.targetTriple =
      some "x86_64-unknown-linux-gnu" := by
  decide

/-- After retargeting an AVX host to width 16, `jitc_llvm_max_align` still holds `4 * 8`. -/
theorem llvm_maxAlign_stale :
    (runCalls llvmIrTables [.init avxHost, .setTarget "skylake-avx512" (some "+avx512vl") 16]
      LlvmState.initial).initSuccess = true ∧
    (runCalls llvmIrTables [.init avxHost, .setTarget "skylake-avx512" (some "+avx512vl") 16]
      LlvmState.initial).vectorWidth = 16 ∧
    (runCalls llvmIrTables [.init avxHost, .setTarget "skylake-avx512" (some "+avx512vl") 16]
      LlvmState.initial).maxAlign = 32 := by
  decide

end Llvm
end DrJitCore
