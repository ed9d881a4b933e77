import DrJitCore.Jit.Shutdown

/-!
# Collection and the leak pass of `jit_shutdown`

The counts are right (`Consistent`) when every dependency names a variable (I1) and each
`ref_count_int` counts the dependency slots naming the variable (I2).  Collecting a variable keeps
them and leaves every other variable without internal references as it was, so the leak pass finds
each leaked scatter as it was listed and releases it exactly once.
-/

namespace DrJitCore
namespace Jit

/-! ## Association lists with one entry per id -/

section Lists

variable {l : List (Nat × Variable)} {index : Nat} {v : Variable}

theorem lookup_cons_ne {j : Nat} {w : Variable} (hj : index ≠ j) :
    ((j, w) :: l).lookup index = l.lookup index := by
  rw [List.lookup_cons, beq_false_of_ne hj]

theorem lookup_eq_some_iff_mem (h : (l.map (·.1)).Nodup) :
    l.lookup index = some v ↔ (index, v) ∈ l := by
  induction l with
  | nil => simp
  | cons e l ih =>
    obtain ⟨j, w⟩ := e
    simp only [List.map_cons, List.nodup_cons] at h
    by_cases hj : index = j
    · subst hj
      have hnot : (index, v) ∉ l := fun hmem => h.1 (List.mem_map.mpr ⟨_, hmem, rfl⟩)
      simp [hnot, eq_comm]
    · rw [lookup_cons_ne hj, ih h.2, List.mem_cons]
      simp [hj]

theorem lookup_filter_ne {j : Nat} (hj : j ≠ index) :
    (l.filter fun e => e.1 ≠ index).lookup j = l.lookup j := by
  induction l with
  | nil => rfl
  | cons e l ih =>
    obtain ⟨k, w⟩ := e
    by_cases hk : k = index
    · subst hk
      rw [List.filter_cons_of_neg (by simp), ih, lookup_cons_ne hj]
    · rw [List.filter_cons_of_pos (by simpa using hk)]
      by_cases hjk : j = k
      · subst hjk; simp only [List.lookup_cons_self]
      · rw [lookup_cons_ne hjk, lookup_cons_ne hjk, ih]

theorem sum_map_filter_ne (f : Nat × Variable → Nat) (h : (l.map (·.1)).Nodup)
    (hmem : (index, v) ∈ l) :
    (l.map f).sum = f (index, v) + ((l.filter fun e => e.1 ≠ index).map f).sum := by
  induction l with
  | nil => cases hmem
  | cons e l ih =>
    obtain ⟨j, w⟩ := e
    simp only [List.map_cons, List.nodup_cons] at h
    rcases List.mem_cons.mp hmem with heq | hmem
    · cases heq
      have hnot : ∀ e ∈ l, e.1 ≠ index := fun e he heq => h.1 (heq ▸ List.mem_map_of_mem _ he)
      rw [List.filter_cons_of_neg (by simp),
        List.filter_eq_self.mpr fun e he => decide_eq_true (hnot e he), List.map_cons, List.sum_cons]
    · have hj : j ≠ index := by rintro rfl; exact h.1 (List.mem_map_of_mem _ hmem)
      rw [List.filter_cons_of_pos (by simpa using hj), List.map_cons, List.map_cons, List.sum_cons,
        List.sum_cons, ih h.2 hmem]
      omega

end Lists

/-! ## The store as a map -/

namespace VarStore

/-- The ids of `state.variables`. -/
def ids (store : VarStore) : List Nat :=
  store.vars.map (·.1)

/-- The dependency slots of the variables of the store that name `index`. -/
def refs (store : VarStore) (index : Nat) : Nat :=
  (store.vars.map fun e => e.2.deps.count index).sum

variable {store : VarStore} {index j : Nat} {v w : Variable}

theorem find_eq_some_iff (h : store.ids.Nodup) :
    store.find index = some v ↔ (index, v) ∈ store.vars :=
  lookup_eq_some_iff_mem h

theorem find_eq_none_iff : store.find index = none ↔ index ∉ store.ids := by
  simp only [find, ids, List.lookup_eq_none_iff, List.mem_map, not_exists, not_and, bne_iff_ne,
    ne_eq]
  exact ⟨fun h e he heq => h e he heq.symm, fun h e he heq => h e he heq.symm⟩

theorem mem_ids_of_find (h : store.find index = some v) : index ∈ store.ids := by
  by_contra hnot
  rw [← find_eq_none_iff] at hnot
  simp [hnot] at h

theorem exists_find_of_mem_ids (h : index ∈ store.ids) : ∃ v, store.find index = some v := by
  cases hfind : store.find index with
  | none => exact absurd h (find_eq_none_iff.mp hfind)
  | some v => exact ⟨v, rfl⟩

theorem ids_remove : (store.remove index).ids = store.ids.filter (· ≠ index) := by
  simp [remove, ids, List.filter_map, Function.comp_def]

theorem ids_set : (store.set index w).ids = index :: (store.remove index).ids := rfl

theorem mem_ids_set (hfind : store.find index = some v) :
    j ∈ (store.set index w).ids ↔ j ∈ store.ids := by
  rw [ids_set, ids_remove]
  by_cases hj : j = index <;> simp [hj, mem_ids_of_find hfind]

@[simp] theorem find_set :
    (store.set index w).find j = if j = index then some w else store.find j := by
  by_cases hj : j = index
  · subst hj; simp [set, find]
  · rw [if_neg hj]
    exact (lookup_cons_ne hj).trans (lookup_filter_ne hj)

@[simp] theorem find_remove :
    (store.remove index).find j = if j = index then none else store.find j := by
  by_cases hj : j = index
  · subst hj
    rw [if_pos rfl, find_eq_none_iff, ids_remove]
    simp
  · rw [if_neg hj]
    exact lookup_filter_ne hj

@[simp] theorem remove_set : (store.set index w).remove index = store.remove index := by
  simp [set, remove, List.filter_filter]

theorem refs_eq_remove (h : store.ids.Nodup) (hfind : store.find index = some v) (d : Nat) :
    store.refs d = v.deps.count d + (store.remove index).refs d :=
  sum_map_filter_ne (fun e => e.2.deps.count d) h ((find_eq_some_iff h).mp hfind)

theorem refs_set (h : store.ids.Nodup) (hfind : store.find index = some v) (hdeps : w.deps = v.deps)
    (d : Nat) : (store.set index w).refs d = store.refs d := by
  rw [refs_eq_remove h hfind d, ← hdeps]
  rfl

theorem length_remove_lt (hfind : store.find index = some v) :
    (store.remove index).vars.length < store.vars.length := by
  obtain ⟨e, he, rfl⟩ := List.mem_map.mp (mem_ids_of_find hfind)
  exact List.length_filter_lt_length_iff_exists.mpr ⟨e, he, by simp⟩

end VarStore

open VarStore

/-! ## What collection keeps -/

/-- What a collection leaves: variables without internal references, and no new id. -/
structure Keeps (store store' : VarStore) : Prop where
  find_of_zero : ∀ j w, store.find j = some w → w.refCountInt = 0 → store'.find j = some w
  ids_subset : ∀ j ∈ store'.ids, j ∈ store.ids
  length_le : store'.vars.length ≤ store.vars.length

namespace Keeps

variable {store store₁ store₂ : VarStore} {index : Nat} {v w : Variable}

theorem refl (store : VarStore) : Keeps store store :=
  ⟨fun _ _ h _ => h, fun _ h => h, le_rfl⟩

theorem trans (h₁ : Keeps store store₁) (h₂ : Keeps store₁ store₂) : Keeps store store₂ :=
  ⟨fun j w h hz => h₂.find_of_zero j w (h₁.find_of_zero j w h hz) hz,
    fun j h => h₁.ids_subset j (h₂.ids_subset j h), h₂.length_le.trans h₁.length_le⟩

theorem remove (hfind : store.find index = some v) (hpos : 0 < v.refCountInt) :
    Keeps store (store.remove index) := by
  refine ⟨fun j w h hz => ?_, fun j hj => ?_, List.length_filter_le _ _⟩
  · have hj : j ≠ index := by rintro rfl; rw [hfind] at h; cases h; omega
    rw [find_remove, if_neg hj, h]
  · rw [ids_remove] at hj
    exact List.mem_of_mem_filter hj

theorem set (hfind : store.find index = some v) (hpos : 0 < v.refCountInt) :
    Keeps store (store.set index w) := by
  refine ⟨fun j w' h' hz => ?_, fun j hj => (mem_ids_set hfind).mp hj, length_remove_lt hfind⟩
  have hj : j ≠ index := by rintro rfl; rw [hfind] at h'; cases h'; omega
  rw [find_set, if_neg hj, h']

end Keeps

/-! ## Reference counts -/

/-- The counts of a store are right up to the internal references in `pending`, which are still to
be dropped. -/
structure VarStore.Counted (store : VarStore) (pending : List Nat) : Prop where
  nodup : store.ids.Nodup
  deps_mem : ∀ e ∈ store.vars, ∀ d ∈ e.2.deps, d ∈ store.ids
  pending_mem : ∀ d ∈ pending, d ∈ store.ids
  refCountInt : ∀ e ∈ store.vars, e.2.refCountInt = store.refs e.1 + pending.count e.1

instance (store : VarStore) (pending : List Nat) : Decidable (store.Counted pending) :=
  decidable_of_iff
    (store.ids.Nodup ∧ (∀ e ∈ store.vars, ∀ d ∈ e.2.deps, d ∈ store.ids) ∧
      (∀ d ∈ pending, d ∈ store.ids) ∧
      ∀ e ∈ store.vars, e.2.refCountInt = store.refs e.1 + pending.count e.1)
    ⟨fun ⟨a, b, c, d⟩ => ⟨a, b, c, d⟩, fun ⟨a, b, c, d⟩ => ⟨a, b, c, d⟩⟩

/-- I1 and I2 on a map: dependencies name variables, `ref_count_int` counts the slots naming one. -/
def VarStore.Consistent (store : VarStore) : Prop :=
  store.Counted []

instance (store : VarStore) : Decidable store.Consistent :=
  inferInstanceAs (Decidable (store.Counted []))

namespace VarStore.Counted

variable {store : VarStore} {pending : List Nat} {index : Nat} {v : Variable}

theorem refs_eq_zero (hc : store.Counted pending) (hfind : store.find index = some v)
    (hzero : v.refCountInt = 0) : store.refs index = 0 ∧ pending.count index = 0 := by
  have := hc.refCountInt _ ((find_eq_some_iff hc.nodup).mp hfind)
  dsimp only at this
  omega

theorem not_mem_deps (hc : store.Counted pending) (hfind : store.find index = some v)
    (hzero : v.refCountInt = 0) {e : Nat × Variable} (he : e ∈ store.vars) : index ∉ e.2.deps := by
  have hsum := refs_eq_remove hc.nodup ((find_eq_some_iff hc.nodup).mpr he) index
  rw [(hc.refs_eq_zero hfind hzero).1] at hsum
  exact List.count_eq_zero.mp (by omega)

theorem set (hc : store.Counted pending) (hfind : store.find index = some v) {w : Variable}
    {pending' : List Nat} (hdeps : w.deps = v.deps) (hmem : ∀ d ∈ pending', d ∈ store.ids)
    (hother : ∀ d, d ≠ index → pending'.count d = pending.count d)
    (hint : w.refCountInt + pending.count index = v.refCountInt + pending'.count index) :
    (store.set index w).Counted pending' := by
  have hv := (find_eq_some_iff hc.nodup).mp hfind
  refine ⟨?_, fun e he d hd => (mem_ids_set hfind).mpr ?_,
    fun d hd => (mem_ids_set hfind).mpr (hmem d hd), fun e he => ?_⟩
  · rw [ids_set, ids_remove]
    exact List.nodup_cons.mpr ⟨by simp, hc.nodup.filter _⟩
  · rcases List.mem_cons.mp he with rfl | he
    · exact hc.deps_mem _ hv d (hdeps ▸ hd)
    · exact hc.deps_mem e (List.mem_of_mem_filter he) d hd
  · rw [refs_set hc.nodup hfind hdeps]
    rcases List.mem_cons.mp he with rfl | he
    · have := hc.refCountInt _ hv
      dsimp only at this ⊢
      omega
    · have hne : e.1 ≠ index := by simpa using (List.mem_filter.mp he).2
      rw [hother _ hne]
      exact hc.refCountInt e (List.mem_of_mem_filter he)

theorem set_same (hc : store.Counted pending) (hfind : store.find index = some v) {w : Variable}
    (hdeps : w.deps = v.deps) (hint : w.refCountInt = v.refCountInt) :
    (store.set index w).Counted pending :=
  hc.set hfind hdeps hc.pending_mem (fun _ _ => rfl) (by rw [hint])

theorem decrement (hc : store.Counted (index :: pending)) (hfind : store.find index = some v) :
    (store.set index { v with refCountInt := v.refCountInt - 1 }).Counted pending ∧
      0 < v.refCountInt := by
  have hcount := hc.refCountInt _ ((find_eq_some_iff hc.nodup).mp hfind)
  simp only [List.count_cons_self] at hcount
  refine ⟨hc.set hfind rfl (fun d hd => hc.pending_mem d (List.mem_cons_of_mem _ hd))
    (fun d hd => (List.count_cons_of_ne hd pending).symm) ?_, by omega⟩
  simp only [List.count_cons_self]
  omega

theorem remove (hc : store.Counted pending) (hfind : store.find index = some v)
    (hzero : v.refCountInt = 0) : (store.remove index).Counted (v.deps ++ pending) := by
  have hv := (find_eq_some_iff hc.nodup).mp hfind
  have hmem : ∀ d ∈ store.ids, d ≠ index → d ∈ (store.remove index).ids := fun d hd hne => by
    rw [ids_remove]
    exact List.mem_filter.mpr ⟨hd, decide_eq_true hne⟩
  refine ⟨?_, fun e he d hd => hmem d (hc.deps_mem e (List.mem_of_mem_filter he) d hd) ?_,
    fun d hd => ?_, fun e he => ?_⟩
  · rw [ids_remove]
    exact hc.nodup.filter _
  · rintro rfl
    exact hc.not_mem_deps hfind hzero (List.mem_of_mem_filter he) hd
  · rcases List.mem_append.mp hd with hd | hd
    · exact hmem d (hc.deps_mem _ hv d hd) (by rintro rfl; exact hc.not_mem_deps hfind hzero hv hd)
    · exact hmem d (hc.pending_mem d hd)
        (by rintro rfl; exact List.count_eq_zero.mp (hc.refs_eq_zero hfind hzero).2 hd)
  · rw [hc.refCountInt e (List.mem_of_mem_filter he), refs_eq_remove hc.nodup hfind,
      List.count_append]
    omega

end VarStore.Counted

/-! ## Collection -/

/-- One pass of the dependency loop of `jit_var_free`, with `free` for the nested collection. -/
def releaseDep (free : Nat → VarStore → Option VarStore) (store : VarStore) (dep : Nat) :
    Option VarStore :=
  match store.find dep with
  | none => none
  | some d =>
      if d.refCountInt = 0 then none
      else
        let store := store.set dep { d with refCountInt := d.refCountInt - 1 }
        if d.refCountInt = 1 ∧ d.refCountExt = 0 then free dep store
        else some store

theorem jitVarFree_succ (fuel index : Nat) (store : VarStore) :
    jitVarFree (fuel + 1) index store =
      (store.find index).bind fun v =>
        v.deps.foldlM (releaseDep (jitVarFree fuel)) (store.remove index) := by
  rw [jitVarFree]
  cases store.find index <;> rfl

/-- `free` collects an unreferenced variable from a store of fewer than `bound` variables. -/
def FreeSpec (free : Nat → VarStore → Option VarStore) (bound : Nat) : Prop :=
  ∀ (index : Nat) (store : VarStore) (pending : List Nat) (v : Variable), store.Counted pending →
    store.find index = some v → v.refCountInt = 0 → store.vars.length < bound →
    ∃ store', free index store = some store' ∧ store'.Counted pending ∧
      Keeps (store.remove index) store'

section Release

variable {free : Nat → VarStore → Option VarStore} {bound : Nat}

theorem releaseDep_spec (hfree : FreeSpec free bound) {store : VarStore} {dep : Nat}
    {pending : List Nat} (hc : store.Counted (dep :: pending)) (hlen : store.vars.length < bound) :
    ∃ store', releaseDep free store dep = some store' ∧ store'.Counted pending ∧
      Keeps store store' := by
  obtain ⟨d, hfind⟩ := exists_find_of_mem_ids (hc.pending_mem dep (List.mem_cons_self _ _))
  obtain ⟨hc₁, hpos⟩ := hc.decrement hfind
  have hkeep : Keeps store (store.set dep { d with refCountInt := d.refCountInt - 1 }) :=
    Keeps.set hfind hpos
  simp only [releaseDep, hfind, Nat.pos_iff_ne_zero.mp hpos, if_false]
  split_ifs with hlast
  · obtain ⟨store', hfree', hc', hkeep'⟩ := hfree dep _ pending
      { d with refCountInt := d.refCountInt - 1 } hc₁ (by simp) (by dsimp only; omega)
      (hkeep.length_le.trans_lt hlen)
    exact ⟨store', hfree', hc', (Keeps.remove hfind hpos).trans (by rwa [remove_set] at hkeep')⟩
  · exact ⟨_, rfl, hc₁, hkeep⟩

theorem foldlM_releaseDep (hfree : FreeSpec free bound) :
    ∀ (deps : List Nat) (store : VarStore) (pending : List Nat), store.Counted (deps ++ pending) →
      store.vars.length < bound →
      ∃ store', deps.foldlM (releaseDep free) store = some store' ∧ store'.Counted pending ∧
        Keeps store store'
  | [], store, _, hc, _ => ⟨store, rfl, hc, Keeps.refl store⟩
  | dep :: deps, store, pending, hc, hlen => by
    obtain ⟨store₁, hstep, hc₁, hkeep₁⟩ := releaseDep_spec hfree hc hlen
    obtain ⟨store', hfold, hc', hkeep'⟩ :=
      foldlM_releaseDep hfree deps store₁ pending hc₁ (hkeep₁.length_le.trans_lt hlen)
    exact ⟨store', by rw [List.foldlM_cons, hstep]; exact hfold, hc', hkeep₁.trans hkeep'⟩

end Release

/-- `jit_var_free` with `fuel` nested collections meets `FreeSpec` below `fuel` variables. -/
theorem jitVarFree_freeSpec : ∀ fuel, FreeSpec (jitVarFree fuel) fuel
  | 0 => fun _ _ _ _ _ _ _ hlen => absurd hlen (Nat.not_lt_zero _)
  | fuel + 1 => fun index store pending v hc hfind hzero hlen => by
    have hlen' := length_remove_lt hfind
    obtain ⟨store', hfold, hc', hkeep⟩ := foldlM_releaseDep (jitVarFree_freeSpec fuel) v.deps
      (store.remove index) pending (hc.remove hfind hzero) (by omega)
    exact ⟨store', by rw [jitVarFree_succ, hfind]; exact hfold, hc', hkeep⟩

/-! ## The leak pass -/

theorem jitVarDecRefExt_leaked {store : VarStore} {pending : List Nat} {index : Nat} {v : Variable}
    (hc : store.Counted pending) (hfind : store.find index = some v) (hext : v.refCountExt = 1)
    (hzero : v.refCountInt = 0) :
    ∃ store', jitVarDecRefExt index store = some store' ∧ store'.Counted pending ∧
      Keeps (store.remove index) store' := by
  have hc₁ : (store.set index { v with refCountExt := v.refCountExt - 1 }).Counted pending :=
    hc.set_same hfind rfl rfl
  obtain ⟨store', hfree, hc', hkeep⟩ :=
    jitVarFree_freeSpec _ index _ pending { v with refCountExt := v.refCountExt - 1 } hc₁ (by simp)
      hzero (Nat.lt_succ_self _)
  refine ⟨store', ?_, hc', by rwa [remove_set] at hkeep⟩
  rw [jitVarDecRefExt, hfind]
  dsimp only
  rw [if_neg (by omega), if_pos ⟨hext, hzero⟩]
  exact hfree

theorem mem_leakedScatters {store : VarStore} (h : store.ids.Nodup) {index : Nat} :
    index ∈ leakedScatters store ↔ ∃ v, store.find index = some v ∧ v.scatter = true ∧
      v.refCountExt = 1 ∧ v.refCountInt = 0 := by
  simp only [leakedScatters, List.mem_map, List.mem_filter, find_eq_some_iff h, Bool.and_eq_true,
    beq_iff_eq]
  constructor
  · rintro ⟨⟨j, v⟩, ⟨hmem, ⟨hs, he⟩, hz⟩, rfl⟩
    exact ⟨v, hmem, hs, he, hz⟩
  · rintro ⟨v, hmem, hs, he, hz⟩
    exact ⟨(index, v), ⟨hmem, ⟨hs, he⟩, hz⟩, rfl⟩

/-- The leak pass over distinct leaked ids finds each as it began and removes exactly those ids. -/
theorem foldlM_jitVarDecRefExt_leaked :
    ∀ (pre : List Nat) (store : VarStore) (pending : List Nat), store.Counted pending → pre.Nodup →
      (∀ index ∈ pre, ∃ v, store.find index = some v ∧ v.refCountExt = 1 ∧ v.refCountInt = 0) →
      ∃ store', pre.foldlM (fun store index => jitVarDecRefExt index store) store = some store' ∧
        store'.Counted pending ∧
        (∀ j w, j ∉ pre → store.find j = some w → w.refCountInt = 0 → store'.find j = some w) ∧
        ∀ j ∈ store'.ids, j ∈ store.ids ∧ j ∉ pre
  | [], store, _, hc, _, _ =>
    ⟨store, rfl, hc, fun _ _ _ h _ => h, fun _ h => ⟨h, List.not_mem_nil _⟩⟩
  | index :: pre, store, pending, hc, hnodup, hleaked => by
    obtain ⟨hindex, hpre⟩ := List.nodup_cons.mp hnodup
    obtain ⟨v, hfind, hext, hzero⟩ := hleaked index (List.mem_cons_self _ _)
    obtain ⟨store₁, hstep, hc₁, hkeep₁⟩ := jitVarDecRefExt_leaked hc hfind hext hzero
    have hkept : ∀ j w, j ≠ index → store.find j = some w → w.refCountInt = 0 →
        store₁.find j = some w := fun j w hj h hz =>
      hkeep₁.find_of_zero j w (by rw [find_remove, if_neg hj, h]) hz
    obtain ⟨store', hfold, hc', hframe, hids⟩ :=
      foldlM_jitVarDecRefExt_leaked pre store₁ pending hc₁ hpre fun j hj => by
        obtain ⟨w, hw, hwext, hwzero⟩ := hleaked j (List.mem_cons_of_mem _ hj)
        exact ⟨w, hkept j w (by rintro rfl; exact hindex hj) hw hwzero, hwext, hwzero⟩
    refine ⟨store', by rw [List.foldlM_cons, hstep]; exact hfold, hc', fun j w hj h hz => ?_,
      fun j hj => ?_⟩
    · rw [List.mem_cons, not_or] at hj
      exact hframe j w hj.2 (hkept j w hj.1 h hz) hz
    · obtain ⟨hj₁, hjpre⟩ := hids j hj
      have hj₂ := hkeep₁.ids_subset j hj₁
      rw [ids_remove, List.mem_filter, decide_eq_true_iff] at hj₂
      exact ⟨hj₂.1, by rw [List.mem_cons, not_or]; exact ⟨hj₂.2, hjpre⟩⟩

theorem nodup_leakedScatters {store : VarStore} (h : store.ids.Nodup) :
    (leakedScatters store).Nodup :=
  h.sublist ((List.filter_sublist _).map _)

theorem leakedScatters_held {store : VarStore} (h : store.ids.Nodup) :
    ∀ index ∈ leakedScatters store,
      ∃ v, store.find index = some v ∧ v.refCountExt = 1 ∧ v.refCountInt = 0 := fun index hi => by
  obtain ⟨v, hv, -, hext, hzero⟩ := (mem_leakedScatters h).mp hi
  exact ⟨v, hv, hext, hzero⟩

/-- On a map with I1 and I2 the leak pass succeeds, keeps them, and removes every listed scatter. -/
theorem releaseLeakedScatters_consistent {store : VarStore} (h : store.Consistent) :
    ∃ store', releaseLeakedScatters store = some store' ∧ store'.Consistent ∧
      ∀ index ∈ leakedScatters store, store'.find index = none := by
  obtain ⟨store', hfold, hc', -, hids⟩ := foldlM_jitVarDecRefExt_leaked _ store [] h
    (nodup_leakedScatters h.nodup) (leakedScatters_held h.nodup)
  exact ⟨store', hfold, hc', fun index hi =>
    find_eq_none_iff.mpr fun hmem => (hids index hmem).2 hi⟩

/-- On a map with I1 and I2 the leak pass lists every leaked scatter once, finds each as listed with
one external reference, succeeds, and releases them all, keeping the counts right. -/
theorem leakPass_releases_each_once (store : VarStore) (h : store.Consistent) :
    (leakedScatters store).Nodup ∧
    (∀ index v, store.find index = some v → v.scatter = true → v.refCountExt = 1 →
      v.refCountInt = 0 → index ∈ leakedScatters store) ∧
    (∀ pre index post, leakedScatters store = pre ++ index :: post →
      ∃ before, pre.foldlM (fun store index => jitVarDecRefExt index store) store = some before ∧
        before.find index = store.find index ∧
        ∃ v, store.find index = some v ∧ v.scatter = true ∧ v.refCountExt = 1 ∧
          v.refCountInt = 0) ∧
    ∃ store', releaseLeakedScatters store = some store' ∧ store'.Consistent ∧
      ∀ index ∈ leakedScatters store, store'.find index = none := by
  have hnodup := nodup_leakedScatters h.nodup
  refine ⟨hnodup, fun index v hv hs he hz => (mem_leakedScatters h.nodup).mpr ⟨v, hv, hs, he, hz⟩,
    fun pre index post hsplit => ?_, releaseLeakedScatters_consistent h⟩
  have hleaked := leakedScatters_held h.nodup
  have hmem : index ∈ leakedScatters store := by
    rw [hsplit]; exact List.mem_append_right _ (List.mem_cons_self _ _)
  obtain ⟨v, hv, hscatter, hext, hzero⟩ := (mem_leakedScatters h.nodup).mp hmem
  rw [hsplit] at hnodup hleaked
  obtain ⟨before, hfold, -, hframe, -⟩ := foldlM_jitVarDecRefExt_leaked pre store [] h
    (hnodup.sublist (List.sublist_append_left _ _)) fun j hj => hleaked j (List.mem_append_left _ hj)
  have hindex : index ∉ pre := fun hi =>
    (List.pairwise_append.mp hnodup).2.2 index hi index (List.mem_cons_self _ _) rfl
  exact ⟨before, hfold, (hframe index v hindex hv hzero).trans hv.symm, v, hv, hscatter, hext, hzero⟩

/-- A literal held by two leaked scatters, the second naming it twice. -/
def sharedLiteralStore : VarStore where
  vars := [(1, ⟨0, .float32, 1, [], 3, 0, false⟩), (2, ⟨1, .float32, 1, [1], 0, 1, true⟩),
    (3, ⟨1, .float32, 1, [1, 1], 0, 1, true⟩)]
  cseCache := []
  variableFromPtr := []
  variableIndex := 4

theorem leakPass_sharedLiteral :
    sharedLiteralStore.Consistent ∧ leakedScatters sharedLiteralStore = [2, 3] ∧
      ∃ store', releaseLeakedScatters sharedLiteralStore = some store' ∧ store'.Consistent ∧
        ∀ index ∈ leakedScatters sharedLiteralStore, store'.find index = none :=
  ⟨by decide, by decide, (leakPass_releases_each_once sharedLiteralStore (by decide)).2.2.2⟩

/-- I2 counting variables rather than dependency slots, without I1. -/
def VarStore.RefCountIsDependents (store : VarStore) : Prop :=
  ∀ e ∈ store.vars, e.2.refCountInt = (store.vars.filter fun f => e.1 ∈ f.2.deps).length

instance (store : VarStore) : Decidable store.RefCountIsDependents :=
  inferInstanceAs (Decidable (∀ e ∈ store.vars,
    e.2.refCountInt = (store.vars.filter fun f => e.1 ∈ f.2.deps).length))

/-- A leaked scatter whose dependency names no variable. -/
def danglingDepStore : VarStore :=
  ⟨[(1, ⟨1, .float32, 1, [2], 0, 1, true⟩)], [], [], 3⟩

/-- A leaked scatter naming a literal twice, which therefore has one internal reference. -/
def repeatedDepStore : VarStore :=
  ⟨[(1, ⟨0, .float32, 1, [], 1, 0, false⟩), (2, ⟨1, .float32, 1, [1, 1], 0, 1, true⟩)], [], [], 3⟩

/-- On maps where each `ref_count_int` counts the variables that name it, the leak pass can fail. -/
theorem leakPass_fails_counting_variables :
    danglingDepStore.ids.Nodup ∧ danglingDepStore.RefCountIsDependents ∧
      leakedScatters danglingDepStore = [1] ∧ releaseLeakedScatters danglingDepStore = none ∧
    repeatedDepStore.ids.Nodup ∧ repeatedDepStore.RefCountIsDependents ∧
      leakedScatters repeatedDepStore = [2] ∧ releaseLeakedScatters repeatedDepStore = none := by
  decide

end Jit
end DrJitCore
