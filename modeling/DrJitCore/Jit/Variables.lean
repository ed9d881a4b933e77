import DrJitCore.Llvm.Core

/-!
# The variable store

The functions that create and release variables live in `var.cpp`, which is not among the sources,
so they are modelled from the description of the variable store.  Maps are association lists with
one entry per key, and a fatal failure is `none`.
-/

namespace DrJitCore
namespace Jit

open Llvm (VarType)

/-- Modelled from the spec: a node of the IR graph, with the attributes the store reads. -/
structure Variable where
  /-- The operation, by number. -/
  opcode : Nat
  /-- The element type. -/
  type : VarType
  /-- The number of elements. -/
  size : Nat
  /-- The ids of the inputs. -/
  deps : List Nat
  /-- References from the `deps` of other variables. -/
  refCountInt : Nat
  /-- References from handles held by the user. -/
  refCountExt : Nat
  /-- The operation writes to memory. -/
  scatter : Bool
  deriving DecidableEq, Repr

/-- The key of the CSE cache: operation, type, size and inputs. -/
structure VariableKey where
  opcode : Nat
  type : VarType
  size : Nat
  deps : List Nat
  deriving DecidableEq, Repr

/-- The CSE key of a variable. -/
def Variable.key (v : Variable) : VariableKey :=
  ⟨v.opcode, v.type, v.size, v.deps⟩

/-- `state.variables`, `state.cse_cache`, `state.variable_from_ptr` and `state.variable_index`. -/
structure VarStore where
  /-- `state.variables`: id to variable. -/
  vars : List (Nat × Variable)
  /-- `state.cse_cache`: key to id. -/
  cseCache : List (VariableKey × Nat)
  /-- `state.variable_from_ptr`: pointer to the id of its pointer literal. -/
  variableFromPtr : List (Nat × Nat)
  /-- `state.variable_index`: the next id. -/
  variableIndex : Nat
  deriving DecidableEq, Repr

namespace VarStore

/-- The variable with an id. -/
def find (store : VarStore) (index : Nat) : Option Variable :=
  store.vars.lookup index

/-- The store with the variable of an id replaced or added. -/
def set (store : VarStore) (index : Nat) (v : Variable) : VarStore :=
  { store with vars := (index, v) :: store.vars.filter (·.1 ≠ index) }

/-- The store without a variable and the cache entries that name it. -/
def remove (store : VarStore) (index : Nat) : VarStore :=
  { store with
    vars := store.vars.filter (·.1 ≠ index)
    cseCache := store.cseCache.filter (·.2 ≠ index)
    variableFromPtr := store.variableFromPtr.filter (·.2 ≠ index) }

end VarStore

/-- Modelled from the spec: collection of a variable, for at most `fuel` nested collections; an
unknown id or a count that would drop below zero is fatal. -/
def jitVarFree : Nat → Nat → VarStore → Option VarStore
  | 0, _, _ => none
  | fuel + 1, index, store =>
      match store.find index with
      | none => none
      | some v =>
          v.deps.foldlM
            (fun store dep =>
              match store.find dep with
              | none => none
              | some d =>
                  if d.refCountInt = 0 then none
                  else
                    let store := store.set dep { d with refCountInt := d.refCountInt - 1 }
                    if d.refCountInt = 1 ∧ d.refCountExt = 0 then jitVarFree fuel dep store
                    else some store)
            (store.remove index)

/-- Modelled from the spec: `jit_var_dec_ref_ext`; the last reference of any kind collects. -/
def jitVarDecRefExt (index : Nat) (store : VarStore) : Option VarStore :=
  match store.find index with
  | none => none
  | some v =>
      if v.refCountExt = 0 then none
      else
        let store := store.set index { v with refCountExt := v.refCountExt - 1 }
        if v.refCountExt = 1 ∧ v.refCountInt = 0 then
          jitVarFree (store.vars.length + 1) index store
        else some store

/-- Modelled from the spec: `jit_var_inc_ref_ext`. -/
def jitVarIncRefExt (index : Nat) (store : VarStore) : Option VarStore :=
  (store.find index).map fun v => store.set index { v with refCountExt := v.refCountExt + 1 }

/-- Take an internal reference on each dependency of a new variable. -/
def incRefDeps (deps : List Nat) (store : VarStore) : Option VarStore :=
  deps.foldlM
    (fun store dep =>
      (store.find dep).map fun d => store.set dep { d with refCountInt := d.refCountInt + 1 })
    store

/-- Modelled from the spec: the id loop of `jit_var_new`, skipping `0` and the ids held. -/
def drawIndex (held : List Nat) : Nat → Nat → Nat
  | 0, index => index
  | fuel + 1, index => if index = 0 ∨ index ∈ held then drawIndex held fuel (index + 1) else index

/-- The id a new variable takes; `held.length + 1` skips always reach a free one. -/
def VarStore.nextId (store : VarStore) : Nat :=
  let held := store.vars.map (·.1)
  drawIndex held (held.length + 1) store.variableIndex

/-- The id the CSE cache returns for a pure operation; scatters bypass it. -/
def cseLookup (v : Variable) (store : VarStore) : Option Nat :=
  if v.scatter then none else store.cseCache.lookup v.key

/-- Modelled from the spec: `jit_var_new`, with one external reference on the result. -/
def jitVarNew (v : Variable) (store : VarStore) : Option (Nat × VarStore) :=
  match cseLookup v store with
  | some index => (jitVarIncRefExt index store).map fun store => (index, store)
  | none =>
      let index := store.nextId
      (incRefDeps v.deps store).map fun store =>
        (index,
          { store.set index { v with refCountInt := 0, refCountExt := 1 } with
            cseCache := if v.scatter then store.cseCache else (v.key, index) :: store.cseCache
            variableIndex := index + 1 })

/-! ## The id counter -/

theorem foldlM_option_preserves {α β : Type} (f : β → α → Option β) (P : β → Prop)
    (hf : ∀ b a b', P b → f b a = some b' → P b') :
    ∀ (l : List α) (b b' : β), P b → l.foldlM f b = some b' → P b'
  | [], _, _, hb, h => by cases h; exact hb
  | a :: l, b, b', hb, h => by
    rw [List.foldlM_cons] at h
    cases hfa : f b a with
    | none => simp [hfa] at h
    | some b₁ =>
      rw [hfa] at h
      exact foldlM_option_preserves f P hf l b₁ b' (hf b a b₁ hb hfa) h

@[simp] theorem VarStore.set_variableIndex (store : VarStore) (index : Nat) (v : Variable) :
    (store.set index v).variableIndex = store.variableIndex := rfl

@[simp] theorem VarStore.remove_variableIndex (store : VarStore) (index : Nat) :
    (store.remove index).variableIndex = store.variableIndex := rfl

theorem jitVarFree_variableIndex :
    ∀ (fuel index : Nat) (store store' : VarStore),
      jitVarFree fuel index store = some store' → store'.variableIndex = store.variableIndex
  | 0, _, _, _, h => by cases h
  | fuel + 1, index, store, store', h => by
    unfold jitVarFree at h
    split at h
    · cases h
    · refine foldlM_option_preserves _ (fun st => st.variableIndex = store.variableIndex)
        (fun st dep st' hst hstep => ?_) _ _ _ rfl h
      split at hstep
      · cases hstep
      · split at hstep
        · cases hstep
        · split at hstep
          · rw [jitVarFree_variableIndex fuel dep _ st' hstep]; exact hst
          · cases hstep; exact hst

theorem jitVarDecRefExt_variableIndex (index : Nat) (store store' : VarStore)
    (h : jitVarDecRefExt index store = some store') : store'.variableIndex = store.variableIndex := by
  unfold jitVarDecRefExt at h
  split at h
  · cases h
  · split at h
    · cases h
    · dsimp only at h
      split at h
      · exact (jitVarFree_variableIndex _ _ _ _ h).trans rfl
      · cases h; rfl

theorem incRefDeps_variableIndex (deps : List Nat) (store store' : VarStore)
    (h : incRefDeps deps store = some store') : store'.variableIndex = store.variableIndex :=
  foldlM_option_preserves _ (fun st => st.variableIndex = store.variableIndex)
    (fun st dep st' hst hstep => by
      cases hd : st.find dep <;> simp [hd] at hstep
      rw [← hstep]; exact hst)
    deps store store' rfl h

theorem drawIndex_le (held : List Nat) : ∀ fuel index, index ≤ drawIndex held fuel index
  | 0, _ => le_rfl
  | fuel + 1, index => by
    unfold drawIndex
    split
    · exact Nat.le_of_succ_le (drawIndex_le held fuel (index + 1))
    · exact le_rfl

theorem drawIndex_bad (held : List Nat) : ∀ fuel index,
    (drawIndex held fuel index = 0 ∨ drawIndex held fuel index ∈ held) →
      ∀ k ∈ List.range' index (fuel + 1), k = 0 ∨ k ∈ held
  | 0, index, h, k, hk => by
    simp only [List.range'_succ, List.range'_zero, List.mem_singleton] at hk
    exact hk ▸ h
  | fuel + 1, index, h, k, hk => by
    unfold drawIndex at h
    rw [List.range'_succ] at hk
    split at h
    · rcases List.mem_cons.mp hk with rfl | hk
      · assumption
      · exact drawIndex_bad held fuel (index + 1) h k hk
    · exact absurd h ‹_›

theorem drawIndex_free (held : List Nat) (index : Nat) :
    drawIndex held (held.length + 1) index ≠ 0 ∧ drawIndex held (held.length + 1) index ∉ held := by
  by_contra hfree
  have hbad := drawIndex_bad held (held.length + 1) index
    (by simpa only [not_and_or, ne_eq, not_not] using hfree)
  have hsub : List.range' index (held.length + 1 + 1) ⊆ 0 :: held := fun k hk =>
    (hbad k hk).elim (fun h => h ▸ List.mem_cons_self _ _) (List.mem_cons_of_mem _)
  have hlen := ((List.nodup_range' index (held.length + 1 + 1)).subperm hsub).length_le
  simp at hlen

/-- A new variable's id is at least the counter, not `0`, and held by no variable. -/
theorem VarStore.nextId_free (store : VarStore) :
    store.variableIndex ≤ store.nextId ∧ store.nextId ≠ 0 ∧ store.nextId ∉ store.vars.map (·.1) :=
  ⟨drawIndex_le _ _ _, drawIndex_free _ _⟩

end Jit
end DrJitCore
