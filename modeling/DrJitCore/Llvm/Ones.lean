import DrJitCore.Llvm.Core

/-!
# The all-ones constants of `jitc_llvm_update_strings`

The lane loop builds `onesString`, `width` equal lanes between `'<'` and `'>'`.  A floating lane is a
16-digit literal that LLVM reads as a `double`; narrowed to `m` mantissa bits it is all ones exactly
when its top `12 + m` bits are set, which the top `2 * type_size[t]` digits give for `double` only.
-/

namespace DrJitCore
namespace Llvm

/-! ## The buffer loop -/

/-- The lane loop of `jitc_llvm_update_strings` with `n` of the `width` lanes left. -/
def putLanes (lane : String) (width : Nat) : Nat → String → String
  | 0, buf => buf
  | n + 1, buf =>
    putLanes lane width n (buf ++ lane ++ if width - (n + 1) + 1 < width then ", " else "")

/-- The buffer `jitc_llvm_update_strings` builds for a type. -/
def onesBuffer (tables : TypeTables) (width : Nat) (vt : VarType) : String :=
  putLanes (onesLane tables vt) width width "<" ++ ">"

theorem intercalate_go_append (pre acc sep : String) (lanes : List String) :
    String.intercalate.go (pre ++ acc) sep lanes = pre ++ String.intercalate.go acc sep lanes := by
  induction lanes generalizing acc with
  | nil => rfl
  | cons lane lanes ih =>
    simp only [String.intercalate.go]
    rw [String.append_assoc pre acc sep, String.append_assoc pre (acc ++ sep) lane, ih]

theorem putLanes_succ (lane : String) {width n : Nat} (hn : n + 1 ≤ width) (buf : String) :
    putLanes lane width (n + 1) buf =
      String.intercalate.go (buf ++ lane) ", " (List.replicate n lane) := by
  induction n generalizing buf with
  | zero =>
    have hlast : ¬(width - 1 + 1 < width) := by omega
    simp only [putLanes, hlast, if_false, String.append_empty]
    rfl
  | succ n ih =>
    have hnext : width - (n + 2) + 1 < width := by omega
    rw [putLanes, if_pos hnext, ih (by omega)]
    rfl

/-- The loop builds `onesString`. -/
theorem onesBuffer_eq_onesString (tables : TypeTables) (width : Nat) (vt : VarType) :
    onesBuffer tables width vt = onesString tables width vt := by
  cases width with
  | zero => rfl
  | succ n =>
    rw [onesBuffer, putLanes_succ _ le_rfl, intercalate_go_append]
    rfl

/-! ## The hexadecimal literal -/

/-- The value of a hexadecimal digit. -/
def hexDigitValue (c : Char) : Nat :=
  if '0' ≤ c ∧ c ≤ '9' then c.toNat - '0'.toNat
  else if 'A' ≤ c ∧ c ≤ 'F' then c.toNat - 'A'.toNat + 10
  else if 'a' ≤ c ∧ c ≤ 'f' then c.toNat - 'a'.toNat + 10
  else 0

/-- The value of hexadecimal digits: the bit pattern of the `double` LLVM reads from `0x` and 16. -/
def hexValue (digits : List Char) : Nat :=
  digits.foldl (fun value c => 16 * value + hexDigitValue c) 0

/-- The top `k` bits of a 64-bit pattern are set. -/
def TopBitsSet (bits k : Nat) : Prop :=
  ∀ i < k, bits.testBit (63 - i) = true

instance (bits k : Nat) : Decidable (TopBitsSet bits k) :=
  inferInstanceAs (Decidable (∀ i < k, bits.testBit (63 - i) = true))

/-- Modelled from IEEE 754: the mantissa bits of the floating types. -/
def VarType.mantissaBits : VarType → Nat
  | .float16 => 10
  | .float32 => 23
  | .float64 => 52
  | _ => 0

theorem range_map_digits (n m : Nat) :
    (List.range m).map (fun k => if k < n then 'F' else '0') =
      List.replicate (min n m) 'F' ++ List.replicate (m - n) '0' := by
  induction m with
  | zero => simp
  | succ m ih =>
    rw [List.range_succ, List.map_append, ih]
    by_cases hm : m < n
    · rw [Nat.min_eq_right (by omega), Nat.min_eq_right (by omega), Nat.sub_eq_zero_of_le (by omega),
        Nat.sub_eq_zero_of_le (by omega)]
      simp [hm, List.replicate_succ']
    · rw [Nat.min_eq_left (by omega), Nat.min_eq_left (by omega), show m + 1 - n = m - n + 1 by omega]
      simp [hm, List.replicate_succ']

theorem foldl_hex_F (a value : Nat) :
    (List.replicate a 'F').foldl (fun value c => 16 * value + hexDigitValue c) value =
      16 ^ a * value + (16 ^ a - 1) := by
  induction a generalizing value with
  | zero => simp
  | succ a ih =>
    have hF : hexDigitValue 'F' = 15 := by decide
    have hpos : 0 < 16 ^ a := Nat.pos_pow_of_pos a (by decide)
    rw [List.replicate_succ, List.foldl_cons, hF, ih, Nat.pow_succ]
    generalize 16 ^ a = x at hpos ⊢
    rw [Nat.mul_add, Nat.mul_left_comm x 16 value, Nat.mul_right_comm x 16 value]
    omega

theorem foldl_hex_0 (b value : Nat) :
    (List.replicate b '0').foldl (fun value c => 16 * value + hexDigitValue c) value =
      16 ^ b * value := by
  induction b generalizing value with
  | zero => simp
  | succ b ih =>
    have h0 : hexDigitValue '0' = 0 := by decide
    rw [List.replicate_succ, List.foldl_cons, h0, Nat.add_zero, ih, Nat.pow_succ, Nat.mul_assoc,
      Nat.mul_comm 16 value]

theorem hexValue_F_0 (a b : Nat) :
    hexValue (List.replicate a 'F' ++ List.replicate b '0') = 16 ^ b * (16 ^ a - 1) := by
  rw [hexValue, List.foldl_append, foldl_hex_F, foldl_hex_0]
  simp

theorem topBitsSet_iff {a b k : Nat} (hab : a + b = 16) (hk : k ≤ 64) :
    TopBitsSet (16 ^ b * (16 ^ a - 1)) k ↔ k ≤ 4 * a := by
  have hbit : ∀ i < 64, (16 ^ b * (16 ^ a - 1)).testBit (63 - i) = decide (i < 4 * a) := by
    intro i hi
    rw [show (16 : Nat) = 2 ^ 4 by rfl, ← Nat.pow_mul, ← Nat.pow_mul, Nat.testBit_mul_pow_two,
      Nat.testBit_two_pow_sub_one]
    rw [← Bool.decide_and, decide_eq_decide]
    omega
  constructor
  · intro h
    by_contra hlt
    have := hbit (4 * a) (by omega)
    rw [h (4 * a) (by omega)] at this
    simp at this
  · intro h i hi
    rw [hbit i (by omega)]
    simp; omega

/-- A floating lane's 16 digits have their top `k ≤ 64` bits set iff `k ≤ 8 * type_size[t]`. -/
theorem onesLane_float (tables : TypeTables) {vt : VarType} (hfloat : vt.isFloat = true)
    (hsize : tables.size vt ≤ 8) :
    ∃ digits, onesLane tables vt = tables.nameLlvm vt ++ " " ++ ("0x" ++ String.mk digits) ∧
      digits.length = 16 ∧ ∀ k ≤ 64, (TopBitsSet (hexValue digits) k ↔ k ≤ 8 * tables.size vt) := by
  have hbool : vt ≠ .bool := by rintro rfl; cases hfloat
  refine ⟨(List.range 16).map fun k => if k < 2 * tables.size vt then 'F' else '0',
    by rw [onesLane, if_neg hbool, if_pos hfloat], by simp, fun k hk => ?_⟩
  rw [range_map_digits, hexValue_F_0, topBitsSet_iff (by omega) hk]
  omega

/-- With LLVM's sizes, a floating lane has its top `12 + m` bits set only for `double`. -/
theorem llvmIrTables_allOnes_iff {vt : VarType} (hfloat : vt.isFloat = true) :
    (∃ digits, onesLane llvmIrTables vt =
        llvmIrTables.nameLlvm vt ++ " " ++ ("0x" ++ String.mk digits) ∧
      TopBitsSet (hexValue digits) (12 + vt.mantissaBits)) ↔ vt = .float64 := by
  have hsize : llvmIrTables.size vt ≤ 8 := by cases vt <;> decide
  have hm : 12 + vt.mantissaBits ≤ 64 := by cases vt <;> decide
  have hwidth : 12 + vt.mantissaBits ≤ 8 * llvmIrTables.size vt ↔ vt = .float64 := by
    revert hfloat; cases vt <;> decide
  obtain ⟨digits, hlane, -, hbits⟩ := onesLane_float llvmIrTables hfloat hsize
  rw [← hwidth, ← hbits _ hm]
  constructor
  · rintro ⟨digits', hlane', hset⟩
    rwa [show digits' = digits by simpa [String.ext_iff] using hlane'.symm.trans hlane] at hset
  · exact fun hset => ⟨digits, hlane, hset⟩

/-- With LLVM's types, the `half` and `float` lanes have 16 and 32 of the 22 and 35 bits they need,
at every width; of the floating types only `double` gets all ones. -/
theorem onesString_half_float_not_all_ones :
    onesString llvmIrTables 2 .float16 = "<half 0xFFFF000000000000, half 0xFFFF000000000000>" ∧
      ¬TopBitsSet (hexValue "FFFF000000000000".toList) (12 + VarType.float16.mantissaBits) ∧
    onesString llvmIrTables 2 .float32 = "<float 0xFFFFFFFF00000000, float 0xFFFFFFFF00000000>" ∧
      ¬TopBitsSet (hexValue "FFFFFFFF00000000".toList) (12 + VarType.float32.mantissaBits) ∧
    (∀ width vt, onesBuffer llvmIrTables width vt = onesString llvmIrTables width vt) ∧
    ∀ vt, (vt.isFloat = true ∧ ∃ digits, onesLane llvmIrTables vt =
        llvmIrTables.nameLlvm vt ++ " " ++ ("0x" ++ String.mk digits) ∧
      TopBitsSet (hexValue digits) (12 + vt.mantissaBits)) ↔ vt = .float64 := by
  refine ⟨by decide, by decide, by decide, by decide, onesBuffer_eq_onesString llvmIrTables,
    fun vt => ?_⟩
  cases hfloat : vt.isFloat
  · exact ⟨fun h => absurd h.1 Bool.false_ne_true, fun h => by subst h; cases hfloat⟩
  · exact ⟨fun h => (llvmIrTables_allOnes_iff hfloat).mp h.2,
      fun h => ⟨rfl, (llvmIrTables_allOnes_iff hfloat).mpr h⟩⟩

end Llvm
end DrJitCore
