import DrJitCore.Jit.Run

/-!
# Variable ids along a run

`jit_var_new` takes the first free id from `state.variable_index` on, and `jit_init` sets the
counter to `1` each time it gets past its guard.  So ids increase within one initialisation and
are handed out again after a `jit_shutdown` and a new `jit_init`.
-/

namespace DrJitCore
namespace Jit

section Steps

variable {s s' : JitState}

theorem threadState_store {thread : Nat} {cuda : Bool} {address : Nat}
    (h : threadState thread cuda s = .done address s') : s'.store = s.store := by
  rcases threadState_cases thread cuda s with
    ⟨_, _, heq⟩ | heq | ⟨_, _, _, heq⟩ <;> rw [heq] at h <;> cases h <;> rfl

theorem threadState_bind_store {α : Type} {thread : Nat} {cuda : Bool}
    {f : Nat → JitState → Outcome α} (hf : ∀ address s₁ s', (f address s₁).state? = some s' →
      s'.store = s₁.store)
    (h : ((threadState thread cuda s).bind f).state? = some s') : s'.store = s.store := by
  rcases threadState_bind_state? h with rfl | ⟨address, s₁, hts, h₁⟩
  · rfl
  · exact (hf address s₁ s' h₁).trans (threadState_store hts)

theorem setDeviceOf_store {device : CInt} {address : Nat}
    (h : (setDeviceOf device address s).state? = some s') : s'.store = s.store := by
  rcases setDeviceOf_cases device address s with
    ⟨-, heq⟩ | ⟨ts, -, ⟨-, heq⟩ | ⟨-, -, heq⟩ | ⟨d, -, -, heq⟩⟩ <;> rw [heq] at h <;> cases h <;> rfl

end Steps

/-- Initialise the LLVM backend, create a scatter, shut down, and do both again. -/
def reinitRun : List JitOp :=
  [⟨0, .init 1 0 cpuOnlyHost⟩, ⟨0, .varNew heldScatter⟩, ⟨0, .shutdown⟩,
    ⟨0, .init 1 0 cpuOnlyHost⟩, ⟨0, .varNew heldScatter⟩]

end Jit
end DrJitCore
