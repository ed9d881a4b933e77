import DrJitCore.Jit.State

/-!
# Disassembly of a compiled kernel

`jitc_llvm_disasm` lists every function of a kernel, except the `@callables` table at `reloc[1]`,
up to the first `ret`, an undecodable instruction or the end of the kernel.  `LLVMDisasmInstruction`
is a parameter `decode`; the loop reads it only inside the kernel (`jitcLlvmDisasm_congr`), and
every listing is well formed (`disasmFunction_listingOk`).
-/

namespace DrJitCore
namespace Llvm

open Jit (LogLevel)

/-- A line `jitc_llvm_disasm` logs. -/
inductive DisasmLine
  /-- `jit_llvm_disasm(): ========== %u ==========`, before the function at `reloc[index]`. -/
  | header (index : Nat)
  /-- `jit_llvm_disasm(): ...`, for a run of `nop`s. -/
  | gap
  /-- `jit_llvm_disasm(): 0x%08x   %s`: an instruction, at its offset from the function's start. -/
  | instruction (offset : Nat) (text : List Char)
deriving DecidableEq, Repr

/-- `%08x` of a `uint32_t`. -/
def hex08 (value : Nat) : String :=
  let digits := Nat.toDigits 16 (value % 2 ^ 32)
  String.mk (List.replicate (8 - digits.length) '0' ++ digits)

/-- The text of a line; the offset is cast to `uint32_t`. -/
def DisasmLine.message : DisasmLine → String
  | .header index => "jit_llvm_disasm(): ========== " ++ toString index ++ " =========="
  | .gap => "jit_llvm_disasm(): ..."
  | .instruction offset text => "jit_llvm_disasm(): 0x" ++ hex08 offset ++ "   " ++ String.mk text

/-- `ins_buf` past its leading blanks: `while (*start == ' ' || *start == '\t') ++start`. -/
def skipBlanks (buf : List Char) : List Char :=
  buf.dropWhile fun c => c == ' ' || c == '\t'

/-- The `do … while (true)` loop of `jitc_llvm_disasm` over the function at `base`, from `ptr`. -/
def disasmLoop (decode : Nat → Nat → Nat × List Char) (size base : Nat) :
    Nat → Nat → Bool → List DisasmLine
  | 0, _, _ => []
  | fuel + 1, ptr, lastNop =>
    if size ≤ ptr then []
    else
      let (n, buf) := decode ptr (size - ptr)
      if n = 0 then []
      else
        let start := skipBlanks buf
        if start = "nop".toList then
          (if lastNop then [] else [.gap]) ++ disasmLoop decode size base fuel (ptr + n) true
        else
          .instruction (ptr - base) start ::
            if "ret".toList.isPrefixOf start then []
            else disasmLoop decode size base fuel (ptr + n) false

/-- The listing of the function at `base`. -/
def disasmFunction (decode : Nat → Nat → Nat × List Char) (size base : Nat) : List DisasmLine :=
  disasmLoop decode size base (size + 1) base false

/-- The fields of `Kernel` that `jitc_llvm_disasm` reads: the size and the function offsets. -/
structure KernelCode where
  size : Nat
  reloc : List Nat

/-- `jitc_llvm_disasm(kernel)`. -/
def jitcLlvmDisasm (stderr callback : LogLevel) (decode : Nat → Nat → Nat × List Char)
    (kernel : KernelCode) : List DisasmLine :=
  if max stderr.toNat callback.toNat < LogLevel.trace.toNat then []
  else
    (kernel.reloc.enum.filter fun f => f.1 != 1).flatMap fun f =>
      .header f.1 :: disasmFunction decode kernel.size f.2

/-! ## The loop -/

section Loop

variable (decode : Nat → Nat → Nat × List Char) (size base : Nat)

theorem disasmLoop_succ (fuel ptr : Nat) (lastNop : Bool) :
    disasmLoop decode size base (fuel + 1) ptr lastNop =
      if size ≤ ptr ∨ (decode ptr (size - ptr)).1 = 0 then []
      else if skipBlanks (decode ptr (size - ptr)).2 = "nop".toList then
        (if lastNop then [] else [.gap]) ++
          disasmLoop decode size base fuel (ptr + (decode ptr (size - ptr)).1) true
      else
        .instruction (ptr - base) (skipBlanks (decode ptr (size - ptr)).2) ::
          if "ret".toList.isPrefixOf (skipBlanks (decode ptr (size - ptr)).2) then []
          else disasmLoop decode size base fuel (ptr + (decode ptr (size - ptr)).1) false := by
  by_cases hend : size ≤ ptr
  · simp [disasmLoop, hend]
  · by_cases hzero : (decode ptr (size - ptr)).1 = 0 <;> simp [disasmLoop, hend, hzero]

theorem disasmLoop_fuel :
    ∀ (fuel fuel' ptr : Nat) (lastNop : Bool), size - ptr < fuel → size - ptr < fuel' →
      disasmLoop decode size base fuel ptr lastNop = disasmLoop decode size base fuel' ptr lastNop
  | 0, _, _, _, h, _ => absurd h (Nat.not_lt_zero _)
  | _, 0, _, _, _, h => absurd h (Nat.not_lt_zero _)
  | fuel + 1, fuel' + 1, ptr, lastNop, h, h' => by
    rw [disasmLoop_succ, disasmLoop_succ]
    by_cases hstop : size ≤ ptr ∨ (decode ptr (size - ptr)).1 = 0
    · simp only [hstop, if_true]
    · have hnext : ∀ b, disasmLoop decode size base fuel (ptr + (decode ptr (size - ptr)).1) b =
          disasmLoop decode size base fuel' (ptr + (decode ptr (size - ptr)).1) b :=
        fun b => disasmLoop_fuel fuel fuel' _ b (by omega) (by omega)
      simp only [hstop, if_false, hnext]

/-- The loop reads the disassembler only inside the kernel, with the bytes left as its bound. -/
theorem disasmLoop_congr {decode' : Nat → Nat → Nat × List Char} :
    ∀ (fuel ptr : Nat) (lastNop : Bool),
      (∀ offset, ptr ≤ offset → offset < size → decode' offset (size - offset) = decode offset (size - offset)) →
      disasmLoop decode' size base fuel ptr lastNop = disasmLoop decode size base fuel ptr lastNop
  | 0, _, _, _ => rfl
  | fuel + 1, ptr, lastNop, h => by
    rw [disasmLoop_succ, disasmLoop_succ]
    by_cases hend : size ≤ ptr
    · simp only [hend, true_or, if_true]
    · have hptr := h ptr le_rfl (Nat.lt_of_not_le hend)
      have hnext : ∀ b, disasmLoop decode' size base fuel (ptr + (decode ptr (size - ptr)).1) b =
          disasmLoop decode size base fuel (ptr + (decode ptr (size - ptr)).1) b :=
        fun b => disasmLoop_congr fuel _ b fun offset ho hs => h offset (by omega) hs
      simp only [hptr, hnext]

end Loop

/-- `jitc_llvm_disasm` reads `LLVMDisasmInstruction` only inside the kernel, with the bytes left as
its bound: two disassemblers that agree there print the same lines, at every log level. -/
theorem jitcLlvmDisasm_congr (stderr callback : LogLevel) (kernel : KernelCode)
    {decode decode' : Nat → Nat → Nat × List Char}
    (h : ∀ offset, offset < kernel.size →
      decode' offset (kernel.size - offset) = decode offset (kernel.size - offset)) :
    jitcLlvmDisasm stderr callback decode' kernel = jitcLlvmDisasm stderr callback decode kernel := by
  unfold jitcLlvmDisasm disasmFunction
  split
  · rfl
  · congr 1
    funext f
    rw [disasmLoop_congr decode kernel.size f.2 _ _ _ fun offset _ hs => h offset hs]

/-- A disassembler of one-byte `nop`s in a four-byte kernel, and one decoding anything past it. -/
theorem jitcLlvmDisasm_congr_pastEnd :
    (∀ offset, offset < 4 →
      (fun o n => if o < 4 then (1, "nop".toList) else (n + 1, "ud2".toList)) offset (4 - offset) =
        (fun _ _ => (1, "nop".toList)) offset (4 - offset)) ∧
      jitcLlvmDisasm .trace .warn (fun o n => if o < 4 then (1, "nop".toList) else (n + 1, "ud2".toList))
          ⟨4, [0, 4, 2]⟩ =
        jitcLlvmDisasm .trace .warn (fun _ _ => (1, "nop".toList)) ⟨4, [0, 4, 2]⟩ :=
  ⟨by decide, jitcLlvmDisasm_congr .trace .warn ⟨4, [0, 4, 2]⟩ (by decide)⟩

/-! ## Listings -/

/-- The offset of an instruction line. -/
def DisasmLine.offset? : DisasmLine → Option Nat
  | .instruction offset _ => some offset
  | _ => none

/-- An instruction line whose text starts with `ret`. -/
def DisasmLine.isRet : DisasmLine → Bool
  | .instruction _ text => "ret".toList.isPrefixOf text
  | _ => false

/-- A listing as `jitc_llvm_disasm` prints it: single `...` lines, rising offsets, `ret` last. -/
structure ListingOk (lines : List DisasmLine) : Prop where
  noDoubleGap : lines.Chain' fun a b => ¬(a = .gap ∧ b = .gap)
  increasing : (lines.filterMap DisasmLine.offset?).Chain' (· < ·)
  retLast : ∀ line ∈ lines.dropLast, line.isRet = false

theorem ListingOk.nil : ListingOk [] := ⟨List.chain'_nil, List.chain'_nil, fun _ h => nomatch h⟩

theorem ListingOk.gap_cons {lines : List DisasmLine} (h : ListingOk lines)
    (hhead : lines.head? ≠ some .gap) : ListingOk (.gap :: lines) := by
  refine ⟨?_, by simpa [DisasmLine.offset?] using h.increasing, fun line hline => ?_⟩
  · cases lines with
    | nil => exact List.chain'_singleton _
    | cons next rest => exact h.noDoubleGap.cons fun hgap => hhead (by simp [hgap.2])
  · cases lines with
    | nil => cases hline
    | cons next rest =>
      rcases List.mem_cons.mp hline with rfl | hline
      · rfl
      · exact h.retLast line hline

theorem ListingOk.instruction_cons {lines : List DisasmLine} {offset : Nat} {text : List Char}
    (h : ListingOk lines) (habove : ∀ o ∈ lines.filterMap DisasmLine.offset?, offset < o)
    (hret : "ret".toList.isPrefixOf text = true → lines = []) :
    ListingOk (.instruction offset text :: lines) := by
  refine ⟨?_, ?_, fun line hline => ?_⟩
  · cases lines with
    | nil => exact List.chain'_singleton _
    | cons next rest => exact h.noDoubleGap.cons fun hgap => nomatch hgap.1
  · simp only [List.filterMap_cons, DisasmLine.offset?]
    exact List.chain'_cons'.mpr ⟨fun o ho => habove o (List.mem_of_mem_head? ho), h.increasing⟩
  · cases lines with
    | nil => cases hline
    | cons next rest =>
      rcases List.mem_cons.mp hline with rfl | hline
      · cases hisret : "ret".toList.isPrefixOf text
        · exact hisret
        · cases hret hisret
      · exact h.retLast line hline

/-- What the loop prints from `ptr` is a well-formed listing at offsets from `ptr` on. -/
theorem disasmLoop_listingOk (decode : Nat → Nat → Nat × List Char) (size base : Nat) :
    ∀ (fuel ptr : Nat) (lastNop : Bool), base ≤ ptr →
      ListingOk (disasmLoop decode size base fuel ptr lastNop) ∧
      (∀ o ∈ (disasmLoop decode size base fuel ptr lastNop).filterMap DisasmLine.offset?,
        ptr - base ≤ o) ∧
      (lastNop = true → (disasmLoop decode size base fuel ptr lastNop).head? ≠ some .gap)
  | 0, _, _, _ => ⟨.nil, by simp [disasmLoop], by simp [disasmLoop]⟩
  | fuel + 1, ptr, lastNop, hbase => by
    rw [disasmLoop_succ]
    by_cases hstop : size ≤ ptr ∨ (decode ptr (size - ptr)).1 = 0
    · simp only [hstop, if_true]
      exact ⟨.nil, by simp, by simp⟩
    simp only [hstop, if_false]
    have hsize : 0 < (decode ptr (size - ptr)).1 := Nat.pos_of_ne_zero fun h => hstop (.inr h)
    obtain ⟨hok, habove, hhead⟩ := disasmLoop_listingOk decode size base fuel
      (ptr + (decode ptr (size - ptr)).1) true (by omega)
    obtain ⟨hok', habove', -⟩ := disasmLoop_listingOk decode size base fuel
      (ptr + (decode ptr (size - ptr)).1) false (by omega)
    split
    · cases lastNop
      · refine ⟨hok.gap_cons (hhead rfl), fun o ho => ?_, nofun⟩
        have := habove o (by simpa [DisasmLine.offset?] using ho)
        omega
      · exact ⟨hok, fun o ho => by have := habove o ho; omega, fun _ => hhead rfl⟩
    · refine ⟨?_, fun o ho => ?_, fun _ => by simp⟩
      · split
        · exact ListingOk.nil.instruction_cons (by simp) fun _ => rfl
        · rename_i hret
          exact hok'.instruction_cons (fun o ho => by have := habove' o ho; omega)
            fun h => absurd h hret
      · simp only [List.filterMap_cons, DisasmLine.offset?, List.mem_cons] at ho
        rcases ho with rfl | ho
        · exact le_rfl
        · split at ho
          · cases ho
          · have := habove' o ho; omega

/-- For every disassembler and function, the listing never holds two `...` lines in a row, shows
increasing offsets, and ends at the first `ret`. -/
theorem disasmFunction_listingOk (decode : Nat → Nat → Nat × List Char) (size base : Nat) :
    ListingOk (disasmFunction decode size base) :=
  (disasmLoop_listingOk decode size base (size + 1) base false le_rfl).1

/-- `push`, two `nop`s, `mov`, `ret`, `nop`: the `nop`s give one `...` line, and `ret` ends it. -/
example :
    disasmFunction
        (fun offset _ => (1, ([" push", "\tnop", "nop", " mov", "ret", "nop"].getD offset "").toList))
        6 0 =
      [.instruction 0 "push".toList, .gap, .instruction 3 "mov".toList, .instruction 4 "ret".toList] := by
  decide

end Llvm
end DrJitCore
