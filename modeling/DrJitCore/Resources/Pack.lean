import Mathlib

/-!
# The kernel list of `pack`

`pack` writes `kernels.h` with `static const char *kernels_list`: one string literal `"name,"` per
line for the text between each `.entry ` and the next `(` of `kernels_70.ptx`.  Every name stands
there (`kernelNames_between`), and for clean names the initializer is valid C that denotes them
joined with commas (`kernelsListInit_roundTrip`).
-/

namespace DrJitCore
namespace Resources

/-- `strstr(haystack, needle)`: the position of the first occurrence, `NULL` as `none`. -/
def strstr (haystack needle : List Char) : Option Nat :=
  match haystack with
  | [] => if needle.isEmpty then some 0 else none
  | c :: rest =>
    if needle.isPrefixOf (c :: rest) then some 0 else (strstr rest needle).map (· + 1)

/-- The `while (ptr)` loop of `main`: after each `.entry `, the text up to the next `(`. -/
def entryNames : Nat → List Char → List (List Char)
  | 0, _ => []
  | fuel + 1, text =>
    match strstr text ".entry ".toList with
    | none => []
    | some i =>
      match strstr (text.drop (i + 7)) "(".toList with
      | none => []
      | some j => (text.drop (i + 7)).take j :: entryNames fuel ((text.drop (i + 7)).drop j)

/-- The scan of `kernels_70.ptx`, up to the NUL `read_file` appends. -/
def kernelNames (ptx : List Char) : List (List Char) :=
  let text := ptx.takeWhile (· ≠ Char.ofNat 0)
  entryNames (text.length + 1) text

/-- What `main` writes after `static const char *kernels_list =`: a line `    "name,"` per name. -/
def kernelsListInit (names : List (List Char)) : List Char :=
  names.flatMap (fun name => "\n    \"".toList ++ name ++ ",\"".toList) ++ ";\n\n".toList

/-- The declaration `main` writes for `kernels_70.ptx`. -/
def kernelsListDecl (ptx : List Char) : List Char :=
  "static const char *kernels_list =".toList ++ kernelsListInit (kernelNames ptx)

/-- What the C compiler makes of an initializer of string literals without escapes, up to its `;`;
a carriage return ends a line as a newline does, and no literal spans a line end. -/
def stringLiterals : Bool → Bool → List Char → Option (List Char)
  | false, _, [] => none
  | false, seen, c :: rest =>
    if c = ';' then (if seen then some [] else none)
    else if c = ' ' ∨ c = '\t' ∨ c = '\n' ∨ c = '\r' ∨ c = '\x0b' ∨ c = '\x0c' then
      stringLiterals false seen rest
    else if c = '"' then stringLiterals true true rest
    else none
  | true, _, [] => none
  | true, seen, c :: rest =>
    if c = '"' then stringLiterals false seen rest
    else if c = '\\' ∨ c = '\n' ∨ c = '\r' then none
    else (stringLiterals true seen rest).map (c :: ·)

/-! ## The scan -/

theorem strstr_eq_some {haystack needle : List Char} {i : Nat} (h : strstr haystack needle = some i) :
    needle <+: haystack.drop i ∧ ∀ k < i, ¬needle <+: haystack.drop k := by
  induction haystack generalizing i with
  | nil =>
    simp only [strstr] at h
    split at h
    · cases h
      exact ⟨by simp_all, fun _ hk => absurd hk (Nat.not_lt_zero _)⟩
    · cases h
  | cons c rest ih =>
    simp only [strstr] at h
    split at h
    · cases h
      exact ⟨ List.isPrefixOf_iff_prefix.mp ‹_›, fun _ hk => absurd hk (Nat.not_lt_zero _)⟩
    · obtain ⟨i', hi', rfl⟩ := Option.map_eq_some'.mp h
      obtain ⟨hpre, hfirst⟩ := ih hi'
      refine ⟨by simpa using hpre, fun k hk => ?_⟩
      cases k with
      | zero => exact fun h' => ‹¬_› ( List.isPrefixOf_iff_prefix.mpr h')
      | succ k => simpa using hfirst k (by omega)

theorem entryNames_succ (fuel : Nat) (text : List Char) :
    entryNames (fuel + 1) text =
      match strstr text ".entry ".toList with
      | none => []
      | some i =>
        match strstr (text.drop (i + 7)) "(".toList with
        | none => []
        | some j => (text.drop (i + 7)).take j :: entryNames fuel ((text.drop (i + 7)).drop j) :=
  rfl

theorem entryNames_fuel :
    ∀ (fuel fuel' : Nat) (text : List Char), text.length < fuel → text.length < fuel' →
      entryNames fuel text = entryNames fuel' text
  | 0, _, _, h, _ => absurd h (Nat.not_lt_zero _)
  | _, 0, _, _, h => absurd h (Nat.not_lt_zero _)
  | fuel + 1, fuel' + 1, text, h, h' => by
    rw [entryNames_succ, entryNames_succ]
    split
    · rfl
    rename_i i hi
    split
    · rfl
    rename_i j _
    have hentry := (strstr_eq_some hi).1.length_le
    simp only [List.length_drop] at hentry
    have hshorter : ((text.drop (i + 7)).drop j).length < min fuel fuel' := by
      simp only [List.length_drop]
      have : ".entry ".toList.length = 7 := rfl
      omega
    rw [entryNames_fuel fuel fuel' _ (by omega) (by omega)]

theorem drop_eq_append_of_prefix {text needle : List Char} {i n : Nat} (h : needle <+: text.drop i)
    (hlen : needle.length = n) : text.drop i = needle ++ text.drop (i + n) := by
  obtain ⟨rest, hrest⟩ := h
  rw [← hlen, ← List.drop_drop, ← hrest, List.drop_left]

theorem not_mem_take_of_first {text : List Char} {c : Char} {j : Nat}
    (hfirst : ∀ k < j, ¬[c] <+: text.drop k) : c ∉ text.take j := by
  intro hmem
  obtain ⟨k, hk, hkc⟩ := List.mem_iff_getElem.mp hmem
  have hkj : k < j ∧ k < text.length := by simpa using hk
  rw [List.getElem_take] at hkc
  exact hfirst k hkj.1 ⟨text.drop (k + 1), hkc ▸ (List.drop_eq_getElem_cons hkj.2).symm⟩

/-- Every name the scan takes stands between a `.entry ` and a `(` of the text, and holds no `(`. -/
theorem entryNames_between :
    ∀ (fuel : Nat) (text : List Char), ∀ name ∈ entryNames fuel text,
      ".entry ".toList ++ name ++ "(".toList <:+: text ∧ '(' ∉ name
  | 0, _, _, h => nomatch h
  | fuel + 1, text, name, h => by
    rw [entryNames_succ] at h
    split at h
    · cases h
    rename_i i hi
    split at h
    · cases h
    rename_i j hj
    obtain ⟨hentry, -⟩ := strstr_eq_some hi
    obtain ⟨hparen, hfirst⟩ := strstr_eq_some hj
    rcases List.mem_cons.mp h with rfl | h
    · refine ⟨⟨text.take i, (text.drop (i + 7)).drop (j + 1), ?_⟩, not_mem_take_of_first hfirst⟩
      calc text.take i ++ (".entry ".toList ++ (text.drop (i + 7)).take j ++ "(".toList) ++
            (text.drop (i + 7)).drop (j + 1)
          = text.take i ++ (".entry ".toList ++ ((text.drop (i + 7)).take j ++
              ("(".toList ++ (text.drop (i + 7)).drop (j + 1)))) := by simp only [List.append_assoc]
        _ = text.take i ++ (".entry ".toList ++ text.drop (i + 7)) := by
          rw [← drop_eq_append_of_prefix hparen (show "(".toList.length = 1 from rfl),
            List.take_append_drop]
        _ = text := by
          rw [← drop_eq_append_of_prefix hentry (show ".entry ".toList.length = 7 from rfl),
            List.take_append_drop]
    · obtain ⟨hinner, hno⟩ := entryNames_between fuel _ name h
      exact ⟨hinner.trans ((List.drop_suffix _ _).isInfix.trans (List.drop_suffix _ _).isInfix), hno⟩

/-- Every name in `kernels_list` stands between a `.entry ` and a `(` of `kernels_70.ptx`, before its
first NUL, and holds no `(`. -/
theorem kernelNames_between (ptx : List Char) :
    ∀ name ∈ kernelNames ptx,
      ".entry ".toList ++ name ++ "(".toList <:+: ptx.takeWhile (· ≠ Char.ofNat 0) ∧ '(' ∉ name :=
  entryNames_between _ _

/-- The second entry of a two-entry text, whose name keeps the blank before its `(`. -/
theorem kernelNames_between_twoEntries :
    "bar ".toList ∈ kernelNames ".visible .entry foo(\n.entry bar (".toList ∧
      (".entry ".toList ++ "bar ".toList ++ "(".toList <:+:
          (".visible .entry foo(\n.entry bar (".toList).takeWhile (· ≠ Char.ofNat 0) ∧
        '(' ∉ "bar ".toList) :=
  ⟨by decide, kernelNames_between _ _ (by decide)⟩

/-- The scan of a text with two entries, the second written `bar (`. -/
example : kernelNames ".visible .entry foo(\n.entry bar (".toList = ["foo".toList, "bar ".toList] := by
  decide

/-! ## The declaration -/

section Literals

variable (seen : Bool) (rest : List Char)

theorem stringLiterals_blank {c : Char}
    (hc : c = ' ' ∨ c = '\t' ∨ c = '\n' ∨ c = '\r' ∨ c = '\x0b' ∨ c = '\x0c') :
    stringLiterals false seen (c :: rest) = stringLiterals false seen rest := by
  have hsemi : c ≠ ';' := by rcases hc with rfl | rfl | rfl | rfl | rfl | rfl <;> decide
  rw [stringLiterals, if_neg hsemi, if_pos hc]

theorem stringLiterals_open : stringLiterals false seen ('"' :: rest) = stringLiterals true true rest :=
  rfl

theorem stringLiterals_char {c : Char} (hq : c ≠ '"') (hb : c ≠ '\\') (hn : c ≠ '\n')
    (hr : c ≠ '\r') :
    stringLiterals true seen (c :: rest) = (stringLiterals true seen rest).map (c :: ·) := by
  rw [stringLiterals, if_neg hq, if_neg (by tauto)]

end Literals

theorem stringLiterals_body (after : List Char) :
    ∀ name : List Char, (∀ c ∈ name, c ≠ '"' ∧ c ≠ '\\' ∧ c ≠ '\n' ∧ c ≠ '\r') →
      stringLiterals true true (name ++ (",\"".toList ++ after)) =
        (stringLiterals false true after).map (name ++ [','] ++ ·)
  | [], _ => by
    rw [List.nil_append, show ",\"".toList ++ after = ',' :: '"' :: after from rfl,
      stringLiterals_char _ _ (by decide) (by decide) (by decide) (by decide)]
    rfl
  | c :: name, hclean => by
    obtain ⟨hq, hb, hn, hr⟩ := hclean c (List.mem_cons_self _ _)
    rw [List.cons_append, stringLiterals_char _ _ hq hb hn hr,
      stringLiterals_body after name fun c hc => hclean c (List.mem_cons_of_mem _ hc), Option.map_map]
    rfl

/-- The lines `    "name,"` of clean names, and what follows them: the names with their commas. -/
theorem stringLiterals_lines (tail : List Char) :
    ∀ (names : List (List Char)),
      (∀ name ∈ names, ∀ c ∈ name, c ≠ '"' ∧ c ≠ '\\' ∧ c ≠ '\n' ∧ c ≠ '\r') →
      ∀ seen : Bool,
        stringLiterals false seen
            (names.flatMap (fun name => "\n    \"".toList ++ name ++ ",\"".toList) ++ tail) =
          (stringLiterals false (seen || !names.isEmpty) tail).map (names.flatMap (· ++ [',']) ++ ·)
  | [], _, seen => by simp
  | name :: names, hclean, seen => by
    have hrest := stringLiterals_lines tail names
      (fun name hname => hclean name (List.mem_cons_of_mem _ hname)) true
    simp only [List.flatMap_cons, List.append_assoc] at hrest ⊢
    rw [show "\n    \"".toList ++ (name ++ (",\"".toList ++ _)) =
        '\n' :: ' ' :: ' ' :: ' ' :: ' ' :: '"' :: (name ++ (",\"".toList ++ _)) from rfl]
    simp only [stringLiterals_blank, true_or, or_true, stringLiterals_open]
    rw [stringLiterals_body _ name (hclean name (List.mem_cons_self _ _)), hrest, Option.map_map]
    simp [Function.comp_def]

theorem flatMap_comma (names : List (List Char)) :
    names.flatMap (· ++ [',']) = [','].intercalate (names ++ [[]]) := by
  induction names with
  | nil => rfl
  | cons name names ih =>
    obtain ⟨first, rest, hrest⟩ := List.exists_cons_of_ne_nil (by simp : names ++ [[]] ≠ [])
    rw [List.flatMap_cons, ih, List.cons_append, hrest]
    simp [List.intercalate, List.intersperse_cons_cons]

/-- For names without a quote, a backslash, a line end or a comma, the initializer `pack` writes is
valid C whose string splits at the commas into the names and an empty one. -/
theorem kernelsListInit_roundTrip (names : List (List Char)) (hne : names ≠ [])
    (hclean : ∀ name ∈ names, ∀ c ∈ name, c ≠ '"' ∧ c ≠ '\\' ∧ c ≠ '\n' ∧ c ≠ '\r' ∧ c ≠ ',') :
    stringLiterals false false (kernelsListInit names) = some (names.flatMap (· ++ [','])) ∧
      (names.flatMap (· ++ [','])).splitOn ',' = names ++ [[]] := by
  constructor
  · rw [kernelsListInit, stringLiterals_lines _ names fun name hname c hc =>
      let ⟨hq, hb, hn, hr, _⟩ := hclean name hname c hc
      ⟨hq, hb, hn, hr⟩]
    cases names with
    | nil => exact absurd rfl hne
    | cons name names => simp [stringLiterals]
  · rw [flatMap_comma]
    refine List.splitOn_intercalate _ _ (fun l hl hc => ?_) (by simp)
    rcases List.mem_append.mp hl with hl | hl
    · exact (hclean l hl ',' hc).2.2.2.2 rfl
    · simp at hl; simp [hl] at hc

/-- Two kernels whose names hold none of the five characters. -/
theorem kernelsListInit_roundTrip_twoKernels :
    ["foo".toList, "bar".toList] ≠ [] ∧
      (∀ name ∈ ["foo".toList, "bar".toList], ∀ c ∈ name,
        c ≠ '"' ∧ c ≠ '\\' ∧ c ≠ '\n' ∧ c ≠ '\r' ∧ c ≠ ',') ∧
      stringLiterals false false (kernelsListInit ["foo".toList, "bar".toList]) =
        some (["foo".toList, "bar".toList].flatMap (· ++ [','])) ∧
      (["foo".toList, "bar".toList].flatMap (· ++ [','])).splitOn ',' =
        ["foo".toList, "bar".toList] ++ [[]] :=
  ⟨by decide, by decide, kernelsListInit_roundTrip _ (by decide) (by decide)⟩

/-- With no `.entry `, `pack` writes `kernels_list =;`, which is not C. -/
example : stringLiterals false false (kernelsListInit []) = none := rfl

end Resources
end DrJitCore
