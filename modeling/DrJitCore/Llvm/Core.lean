import Mathlib

/-!
# The LLVM backend: initialisation, retargeting and shutdown

The file-scope variables of `llvm_core.cpp` are one record, and `jitc_llvm_init`,
`jitc_llvm_set_target` and `jitc_llvm_shutdown` are functions on it.  What LLVM and the host answer
is an `LlvmProbes` value; the build is the x86-64 one, with the `fma` check compiled in.
-/

namespace DrJitCore
namespace Llvm

/-- Modelled from the spec: the element types of a variable, in the order of `VarType`. -/
inductive VarType
  | bool | int8 | uint8 | int16 | uint16 | int32 | uint32 | int64 | uint64 | pointer
  | float16 | float32 | float64
  deriving DecidableEq, Repr

/-- The floating-point types, for which `jitc_llvm_update_strings` writes a hexadecimal literal. -/
def VarType.isFloat : VarType → Bool
  | .float16 | .float32 | .float64 => true
  | _ => false

/-- The tables `type_name_llvm` and `type_size`, declared outside `src`: results hold for any. -/
structure TypeTables where
  /-- `type_name_llvm[t]`: the LLVM IR name of the type. -/
  nameLlvm : VarType → String
  /-- `type_size[t]`: the size of the type in bytes. -/
  size : VarType → Nat

/-- LLVM's IR names and the byte sizes of the types, for running the model on concrete calls. -/
def llvmIrTables : TypeTables where
  nameLlvm
    | .bool => "i1"
    | .int8 | .uint8 => "i8"
    | .int16 | .uint16 => "i16"
    | .int32 | .uint32 => "i32"
    | .int64 | .uint64 => "i64"
    | .pointer => "ptr"
    | .float16 => "half"
    | .float32 => "float"
    | .float64 => "double"
  size
    | .bool | .int8 | .uint8 => 1
    | .int16 | .uint16 | .float16 => 2
    | .int32 | .uint32 | .float32 => 4
    | .int64 | .uint64 | .pointer | .float64 => 8

/-- One lane `type_name_llvm[t] lit` of the all-ones constant of `t`. -/
def onesLane (tables : TypeTables) (vt : VarType) : String :=
  tables.nameLlvm vt ++ " " ++
    if vt = .bool then "1"
    else if vt.isFloat then
      "0x" ++ String.mk ((List.range 16).map fun k => if k < 2 * tables.size vt then 'F' else '0')
    else "-1"

/-- The string `jitc_llvm_update_strings` builds for `t`: `width` lanes between `'<'` and `'>'`. -/
def onesString (tables : TypeTables) (width : Nat) (vt : VarType) : String :=
  "<" ++ ", ".intercalate (List.replicate width (onesLane tables vt)) ++ ">"

/-- The JIT engine that `jitc_llvm_init` brought up. -/
inductive Engine
  | orcv2 | mcjit
  deriving DecidableEq, Repr

/-- The file-scope state of `llvm_core.cpp`. -/
structure LlvmState where
  /-- `jitc_llvm_init_attempted`. -/
  initAttempted : Bool
  /-- `jitc_llvm_init_success`. -/
  initSuccess : Bool
  /-- `jitc_llvm_use_orcv2`. -/
  useOrcv2 : Bool
  /-- The LLVM library and its API table, loaded by `jitc_llvm_api_init`. -/
  apiLoaded : Bool
  /-- A live `jitc_llvm_disasm_ctx`. -/
  disasmCtx : Bool
  /-- `jitc_llvm_context`, the global context of LLVM, is set. -/
  context : Bool
  /-- `jitc_llvm_target_triple`. -/
  targetTriple : Option String
  /-- `jitc_llvm_target_cpu`. -/
  targetCpu : Option String
  /-- `jitc_llvm_target_features`. -/
  targetFeatures : Option String
  /-- `jitc_llvm_vector_width`. -/
  vectorWidth : UInt32
  /-- `jitc_llvm_max_align`. -/
  maxAlign : UInt32
  /-- `jitc_llvm_opaque_pointers`. -/
  opaquePointers : Bool
  /-- `jitc_llvm_ones_str`, one string per type. -/
  onesStr : Option (VarType → String)
  /-- The ORCv2 or MCJIT engine, up between its `_init` and `_shutdown`. -/
  engine : Option Engine

/-- The state before the first call. -/
def LlvmState.initial : LlvmState where
  initAttempted := false
  initSuccess := false
  useOrcv2 := false
  apiLoaded := false
  disasmCtx := false
  context := false
  targetTriple := none
  targetCpu := none
  targetFeatures := none
  vectorWidth := 0
  maxAlign := 0
  opaquePointers := false
  onesStr := none
  engine := none

/-- What the LLVM library and the host answer to the calls of `jitc_llvm_init`. -/
structure LlvmProbes where
  /-- `jitc_llvm_api_init()` found and loaded a library. -/
  apiInit : Bool
  /-- `jitc_llvm_api_has_core()`. -/
  hasCore : Bool
  /-- `jitc_llvm_api_has_pb_new()`. -/
  hasPbNew : Bool
  /-- `jitc_llvm_api_has_pb_legacy()`. -/
  hasPbLegacy : Bool
  /-- `LLVMGetDefaultTargetTriple()`. -/
  targetTriple : String
  /-- `LLVMGetHostCPUName()`. -/
  hostCpu : String
  /-- `LLVMGetHostCPUFeatures()`. -/
  hostFeatures : String
  /-- `LLVMCreateDisasm` returned a context. -/
  disasmCreated : Bool
  /-- `LLVMSetDisasmOptions` accepted the options. -/
  disasmOptions : Bool
  /-- `jitc_llvm_api_has_orcv2()`. -/
  hasOrcv2 : Bool
  /-- `jitc_llvm_orcv2_init()`. -/
  orcv2Init : Bool
  /-- `jitc_llvm_api_has_mcjit()`. -/
  hasMcjit : Bool
  /-- `jitc_llvm_mcjit_init()`. -/
  mcjitInit : Bool
  /-- `jitc_llvm_version_major`. -/
  versionMajor : Int

/-- `strstr(haystack, needle) != nullptr`. -/
def strstr (haystack needle : String) : Bool :=
  haystack.toList.tails.any fun tail => needle.toList.isPrefixOf tail

/-- The vector width `jitc_llvm_init` reads off the host features. -/
def widthOf (features : String) : UInt32 :=
  let width : UInt32 := 1
  let width := if strstr features "+sse4.2" then 4 else width
  let width := if strstr features "+avx" then 8 else width
  if strstr features "+avx512vl" then 16 else width

/-- `jitc_llvm_update_strings`: the table rebuilt for the current width. -/
def jitcLlvmUpdateStrings (tables : TypeTables) (s : LlvmState) : LlvmState :=
  { s with onesStr := some (onesString tables s.vectorWidth.toNat) }

/-- `jitc_llvm_api_shutdown`: the library is unloaded. -/
def jitcLlvmApiShutdown (s : LlvmState) : LlvmState :=
  { s with apiLoaded := false }

/-- `jitc_llvm_shutdown`, which does nothing unless initialisation succeeded. -/
def jitcLlvmShutdown (s : LlvmState) : LlvmState :=
  if !s.initSuccess then s
  else
    jitcLlvmApiShutdown
      { s with
        engine := none
        targetTriple := none
        targetCpu := none
        targetFeatures := none
        disasmCtx := false
        vectorWidth := 0
        context := false
        onesStr := none
        initSuccess := false
        initAttempted := false }

/-- The engine `jitc_llvm_init` brings up: ORCv2 if available, else MCJIT. -/
def engineOf (probes : LlvmProbes) : Option Engine :=
  if probes.hasOrcv2 && probes.orcv2Init then some .orcv2
  else if probes.hasMcjit && probes.mcjitInit then some .mcjit
  else none

/-- `jitc_llvm_init` after the capability checks: target strings, `fma` check, width, engine. -/
def jitcLlvmInitTarget (tables : TypeTables) (probes : LlvmProbes) (s : LlvmState) :
    Bool × LlvmState :=
  let s := { s with
    targetTriple := some probes.targetTriple
    targetCpu := some probes.hostCpu
    targetFeatures := some probes.hostFeatures
    context := true
    disasmCtx := probes.disasmCreated && probes.disasmOptions }
  if !strstr probes.hostFeatures "+fma" then (false, jitcLlvmShutdown s)
  else
    let s := { s with vectorWidth := widthOf probes.hostFeatures }
    let s := { s with initSuccess := decide (1 < s.vectorWidth), maxAlign := s.vectorWidth * 4 }
    let s := if !s.initSuccess then jitcLlvmShutdown s else s
    match engineOf probes with
    | none => (false, jitcLlvmShutdown s)
    | some engine =>
        let s := { s with
          useOrcv2 := engine == .orcv2
          engine := some engine
          opaquePointers := decide (15 ≤ probes.versionMajor) }
        let s := jitcLlvmUpdateStrings tables s
        (s.initSuccess, s)

/-- `jitc_llvm_init`: whether the backend is usable, and the state it leaves. -/
def jitcLlvmInit (tables : TypeTables) (probes : LlvmProbes) (s : LlvmState) : Bool × LlvmState :=
  if s.initAttempted then (s.initSuccess, s)
  else
    let s := { s with initAttempted := true }
    if !probes.apiInit then (false, s)
    else
      let s := { s with apiLoaded := true }
      if !probes.hasCore then (false, jitcLlvmApiShutdown s)
      else if !probes.hasPbNew && !probes.hasPbLegacy then (false, jitcLlvmApiShutdown s)
      else jitcLlvmInitTarget tables probes s

/-- `jitc_llvm_set_target(target_cpu, target_features, vector_width)`, a null string as `none`. -/
def jitcLlvmSetTarget (tables : TypeTables) (targetCpu : String) (targetFeatures : Option String)
    (vectorWidth : UInt32) (s : LlvmState) : LlvmState :=
  if !s.initSuccess then s
  else
    jitcLlvmUpdateStrings tables
      { s with
        vectorWidth := vectorWidth
        targetCpu := some targetCpu
        targetFeatures := targetFeatures }

/-- A call into the LLVM backend. -/
inductive LlvmCall
  | init (probes : LlvmProbes)
  | setTarget (targetCpu : String) (targetFeatures : Option String) (vectorWidth : UInt32)
  | shutdown

/-- The state after one call. -/
def LlvmCall.run (tables : TypeTables) : LlvmCall → LlvmState → LlvmState
  | .init probes, s => (jitcLlvmInit tables probes s).2
  | .setTarget cpu features width, s => jitcLlvmSetTarget tables cpu features width s
  | .shutdown, s => jitcLlvmShutdown s

/-- The state after a sequence of calls. -/
def runCalls (tables : TypeTables) (calls : List LlvmCall) (s : LlvmState) : LlvmState :=
  calls.foldl (fun s call => call.run tables s) s

theorem runCalls_cons (tables : TypeTables) (call : LlvmCall) (calls : List LlvmCall)
    (s : LlvmState) : runCalls tables (call :: calls) s = runCalls tables calls (call.run tables s) :=
  rfl

end Llvm
end DrJitCore
