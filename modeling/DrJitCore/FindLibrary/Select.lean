import DrJitCore.FindLibrary.Compare

/-!
# Choosing a library version in `jit_find_library`

Without an override, and when the plain name does not load, `jit_find_library` sorts the `glob`
matches with the version comparator and keeps the last eligible match, else the last match.  The
system calls are a `System`, and `std::sort` is assumed only to meet its contract (`SortedBy`).
-/

namespace DrJitCore
namespace FindLibrary

/-- The answers of the system calls `jit_find_library` makes. -/
structure System where
  /-- `getenv`: the value of an environment variable, if it is set. -/
  getenv : List UInt8 → Option (List UInt8)
  /-- `dlopen`: the handle of a library that loads. -/
  dlopen : List UInt8 → Option Nat
  /-- `glob` with `GLOB_BRACE`: the matches, or `none` when it does not return `0`. -/
  glob : List UInt8 → Option (List CString)
  /-- `lstat` then `S_ISLNK`: `none` when `lstat` fails, else whether the path is a link. -/
  lstat : List UInt8 → Option Bool

/-- A match that the first scan accepts: `lstat` succeeds and it is not a symbolic link. -/
def Eligible (lstat : List UInt8 → Option Bool) (path : CString) : Bool :=
  lstat path.bytes = some false

/-- One scan `for (size_t i = 0; i < g.gl_pathc; ++i)`; each accepted match overwrites `chosen`. -/
def scan (lstat : List UInt8 → Option Bool) (skipLinks : Bool) :
    List CString → Option CString → Option CString
  | [], chosen => chosen
  | path :: paths, chosen =>
      if skipLinks && !Eligible lstat path then scan lstat skipLinks paths chosen
      else scan lstat skipLinks paths (some path)

/-- The loop `for (int j = 0; j < 2; ++j)`: the scan that skips links, then the one that does not. -/
def chooseLast (lstat : List UInt8 → Option Bool) (sorted : List CString) : Option CString :=
  match scan lstat true sorted none with
  | some chosen => some chosen
  | none => scan lstat false sorted none

/-- The path `jit_find_library` chooses among the `glob` matches, sorted by `sort`. -/
def globChoice (lstat : List UInt8 → Option Bool) (sort : List CString → List CString) :
    List CString → Option CString
  | [] => none
  | [path] => some path
  | paths => chooseLast lstat (sort paths)

/-- `env_var_val`: the override, read when `env_var` is not null and dropped when empty. -/
def overrideValue (sys : System) (envVar : Option (List UInt8)) : Option (List UInt8) :=
  match envVar.bind sys.getenv with
  | some [] => none
  | value => value

/-- `jit_find_library(fname, glob_pat, env_var)` on POSIX: the handle it returns. -/
def jitFindLibrary (sys : System) (sort : List CString → List CString)
    (fname globPat : List UInt8) (envVar : Option (List UInt8)) : Option Nat :=
  match sys.dlopen ((overrideValue sys envVar).getD fname) with
  | some handle => some handle
  | none =>
      if (overrideValue sys envVar).isSome then none
      else
        match sys.glob globPat with
        | none => none
        | some paths => (globChoice sys.lstat sort paths).bind fun chosen => sys.dlopen chosen.bytes

/-- The postcondition of `std::sort`: a permutation where no path compares below an earlier one. -/
def SortedBy (sorted paths : List CString) : Prop :=
  sorted.Perm paths ∧ sorted.Pairwise fun x y => versionLess y.bytes x.bytes = false

instance (sorted paths : List CString) : Decidable (SortedBy sorted paths) :=
  inferInstanceAs (Decidable (_ ∧ _))

/-! ## The scans -/

theorem getLast?_cons_or {α : Type} (a : α) (xs : List α) (chosen : Option α) :
    (a :: xs).getLast?.or chosen = xs.getLast?.or (some a) := by
  rw [List.getLast?_cons]
  cases xs.getLast? <;> rfl

theorem scan_eq (lstat : List UInt8 → Option Bool) (skipLinks : Bool) (paths : List CString)
    (chosen : Option CString) :
    scan lstat skipLinks paths chosen =
      (paths.filter fun path => !skipLinks || Eligible lstat path).getLast?.or chosen := by
  induction paths generalizing chosen with
  | nil => rfl
  | cons path paths ih =>
      by_cases h : skipLinks && !Eligible lstat path
      · have hkeep : (!skipLinks || Eligible lstat path) = false := by
          revert h; cases skipLinks <;> cases Eligible lstat path <;> decide
        simp only [scan, h, if_true, ih, List.filter_cons, hkeep]
        rfl
      · have hkeep : (!skipLinks || Eligible lstat path) = true := by
          revert h; cases skipLinks <;> cases Eligible lstat path <;> decide
        simp only [scan, h, if_false, ih, List.filter_cons, hkeep, if_true, getLast?_cons_or]
        rfl

theorem last_mem_pairwise {R : CString → CString → Prop} {paths : List CString} {last : CString}
    (hsorted : paths.Pairwise R) (hlast : paths.getLast? = some last) :
    ∀ path ∈ paths, path = last ∨ R path last := by
  obtain ⟨front, rfl⟩ := List.getLast?_eq_some_iff.mp hlast
  intro path hmem
  rw [List.pairwise_append] at hsorted
  rcases List.mem_append.mp hmem with h | h
  · exact .inr (hsorted.2.2 path h last (List.mem_singleton_self _))
  · exact .inl (List.mem_singleton.mp h)

theorem versionLess_self (path : CString) : versionLess path.bytes path.bytes = false :=
  Bool.eq_false_iff.mpr fun h => lt_irrefl _ ((versionLess_iff path path).mp h)

/-- The two scans over a sorted list choose a maximal eligible match, else a maximal match. -/
theorem chooseLast_spec (lstat : List UInt8 → Option Bool) {sorted paths : List CString}
    (hsort : SortedBy sorted paths) (hne : paths ≠ []) :
    ∃ chosen, chooseLast lstat sorted = some chosen ∧ chosen ∈ paths ∧
      ((∃ path ∈ paths, Eligible lstat path) →
        Eligible lstat chosen ∧ ∀ path ∈ paths, Eligible lstat path →
          versionLess chosen.bytes path.bytes = false) ∧
      ((¬∃ path ∈ paths, Eligible lstat path) →
        ∀ path ∈ paths, versionLess chosen.bytes path.bytes = false) := by
  obtain ⟨hperm, hpair⟩ := hsort
  have below : ∀ {list : List CString} {last : CString}, list.Sublist sorted →
      list.getLast? = some last → ∀ path ∈ list, versionLess last.bytes path.bytes = false :=
    fun hsub hlast path hmem => by
      rcases last_mem_pairwise (hpair.sublist hsub) hlast path hmem with rfl | h
      · exact versionLess_self path
      · exact h
  simp only [chooseLast, scan_eq, Bool.not_true, Bool.false_or, Option.or_none]
  by_cases heligible : ∃ path ∈ paths, Eligible lstat path
  · obtain ⟨path, hmem, hpath⟩ := heligible
    obtain ⟨chosen, hchosen⟩ := Option.isSome_iff_exists.mp
      (List.getLast?_isSome.mpr (List.ne_nil_of_mem
        (List.mem_filter.mpr ⟨hperm.symm.subset hmem, hpath⟩)))
    have hin := List.mem_filter.mp (List.mem_of_getLast?_eq_some hchosen)
    refine ⟨chosen, by rw [hchosen], hperm.subset hin.1,
      fun _ => ⟨hin.2, fun other hother helig => ?_⟩, fun hnone => absurd ⟨path, hmem, hpath⟩ hnone⟩
    exact below (List.filter_sublist _) hchosen other
      (List.mem_filter.mpr ⟨hperm.symm.subset hother, helig⟩)
  · have hempty : sorted.filter (Eligible lstat) = [] := List.filter_eq_nil_iff.mpr
      fun path hmem h => heligible ⟨path, hperm.subset hmem, h⟩
    obtain ⟨chosen, hchosen⟩ := Option.isSome_iff_exists.mp
      (List.getLast?_isSome.mpr fun h => hne (List.Perm.eq_nil (h ▸ hperm.symm)))
    refine ⟨chosen, by simp [hempty, hchosen], hperm.subset (List.mem_of_getLast?_eq_some hchosen),
      fun h => absurd h heligible, fun _ path hmem => ?_⟩
    exact below (List.Sublist.refl _) hchosen path (hperm.symm.subset hmem)

/-! ## `jit_find_library` -/

theorem jitFindLibrary_glob (sys : System) (sort : List CString → List CString)
    (fname globPat : List UInt8) (envVar : Option (List UInt8)) (paths : List CString)
    (hoverride : overrideValue sys envVar = none) (hplain : sys.dlopen fname = none)
    (hglob : sys.glob globPat = some paths) :
    jitFindLibrary sys sort fname globPat envVar =
      (globChoice sys.lstat sort paths).bind fun chosen => sys.dlopen chosen.bytes := by
  simp [jitFindLibrary, hoverride, hplain, hglob]

/-- A set override that does not load gives null; without one, when the plain name fails, a single
match is loaded, and among several an eligible one when any is, with no eligible match above it. -/
theorem jitFindLibrary_newest (sys : System) (sort : List CString → List CString)
    (fname globPat : List UInt8) (envVar : Option (List UInt8)) :
    (∀ value, overrideValue sys envVar = some value → sys.dlopen value = none →
      jitFindLibrary sys sort fname globPat envVar = none) ∧
    ∀ paths, overrideValue sys envVar = none → sys.dlopen fname = none →
      sys.glob globPat = some paths →
    (∀ path, paths = [path] →
      jitFindLibrary sys sort fname globPat envVar = sys.dlopen path.bytes) ∧
    (2 ≤ paths.length → SortedBy (sort paths) paths →
      ∃ chosen ∈ paths, jitFindLibrary sys sort fname globPat envVar = sys.dlopen chosen.bytes ∧
        ((∃ path ∈ paths, Eligible sys.lstat path) →
          Eligible sys.lstat chosen ∧ ∀ path ∈ paths, Eligible sys.lstat path →
            versionLess chosen.bytes path.bytes = false) ∧
        ((¬∃ path ∈ paths, Eligible sys.lstat path) →
          ∀ path ∈ paths, versionLess chosen.bytes path.bytes = false)) := by
  refine ⟨fun value hoverride hload => by simp [jitFindLibrary, hoverride, hload],
    fun paths hoverride hplain hglob => ?_⟩
  rw [jitFindLibrary_glob sys sort fname globPat envVar paths hoverride hplain hglob]
  refine ⟨fun path hpath => by simp [hpath, globChoice], fun hlen hsort => ?_⟩
  obtain ⟨chosen, hchosen, hmem, heligible⟩ :=
    chooseLast_spec sys.lstat hsort (List.ne_nil_of_length_pos (by omega))
  have hchoice : globChoice sys.lstat sort paths = chooseLast sys.lstat (sort paths) := by
    match paths, hlen with
    | _ :: _ :: _, _ => rfl
  exact ⟨chosen, hmem, by rw [hchoice, hchosen]; rfl, heligible⟩

/-- An insertion sort under the version comparator: one of the orders `std::sort` may leave. -/
def versionSort (paths : List CString) : List CString :=
  paths.insertionSort fun a b => versionLess a.bytes b.bytes

/-- Two installed versions `a1` and `a2`. -/
def versionA1 : CString := ⟨[97, 49], by decide⟩

/-- The second installed version. -/
def versionA2 : CString := ⟨[97, 50], by decide⟩

/-- Both versions load, neither is a link, and `glob` lists the newer one first. -/
def twoVersions : System where
  getenv _ := none
  dlopen path := if path = [97, 49] ∨ path = [97, 50] then some path.length else none
  glob _ := some [versionA2, versionA1]
  lstat _ := some false

/-- The same versions behind an override `ENOKI_LIBLLVM_PATH=x` that does not load. -/
def failingOverride : System :=
  { twoVersions with getenv := fun _ => some [120] }

/-- The failing override gives null; without it the version loaded is eligible and maximal. -/
theorem jitFindLibrary_newest_twoVersions :
    jitFindLibrary failingOverride versionSort [97] [97, 42] (some [69]) = none ∧
    SortedBy (versionSort [versionA2, versionA1]) [versionA2, versionA1] ∧
    ∃ chosen ∈ [versionA2, versionA1],
      jitFindLibrary twoVersions versionSort [97] [97, 42] none = twoVersions.dlopen chosen.bytes ∧
      Eligible twoVersions.lstat chosen ∧
      ∀ path ∈ [versionA2, versionA1], versionLess chosen.bytes path.bytes = false := by
  have hsort : SortedBy (versionSort [versionA2, versionA1]) [versionA2, versionA1] := by decide
  obtain ⟨chosen, hmem, hload, heligible, -⟩ :=
    ((jitFindLibrary_newest twoVersions versionSort [97] [97, 42] none).2 [versionA2, versionA1]
      rfl (by decide) rfl).2 (by decide) hsort
  obtain ⟨helig, hmax⟩ := heligible ⟨versionA1, by simp, by decide⟩
  refine ⟨(jitFindLibrary_newest failingOverride versionSort [97] [97, 42] (some [69])).1 [120]
      (by decide) (by decide), hsort, chosen, hmem, hload, helig, fun path hpath => ?_⟩
  exact hmax path hpath (by simp [Eligible, twoVersions])

/-- A set override that fails gives null, though both matches are eligible and would load. -/
theorem jitFindLibrary_override_skips_glob :
    failingOverride.dlopen [120] = none ∧ failingOverride.dlopen [97] = none ∧
      failingOverride.glob [97, 42] = some [versionA2, versionA1] ∧
      Eligible failingOverride.lstat versionA2 = true ∧
      failingOverride.dlopen versionA2.bytes = some 2 ∧
      jitFindLibrary failingOverride id [97] [97, 42] (some [69]) = none := by
  decide

end FindLibrary
end DrJitCore
