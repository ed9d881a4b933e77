import Mathlib

/-!
# The version comparator of `jit_find_library`

The lambda `jit_find_library` hands to `std::sort` walks two C strings with a pair of cursors:
common non-digit bytes are skipped, digit runs are read with `strtol` and compared as `int`s, and
any other difference is settled by `strcmp`.  On C strings the walk is the lexicographic order on
token ranks (`compareLoop_eq`), hence a strict weak order.
-/

namespace DrJitCore
namespace FindLibrary

/-! ## The C library calls of the comparator -/

/-- `isdigit` in the C locale. -/
def isdigit (c : UInt8) : Bool :=
  48 ≤ c.toNat && c.toNat ≤ 57

/-- The byte under a cursor, `*a`: the terminating NUL past the last byte. -/
def peek : List UInt8 → UInt8
  | [] => 0
  | c :: _ => c

/-- `strcmp` on the bytes after two cursors, read as `unsigned char`, the terminator as `0`. -/
def strcmp : List UInt8 → List UInt8 → Int
  | [], [] => 0
  | [], d :: _ => -d.toNat
  | c :: _, [] => c.toNat
  | c :: a, d :: b => if c = d then strcmp a b else c.toNat - d.toNat

/-- `LONG_MAX` on the LP64 targets that take the `glob` path. -/
def longMax : Int := 2 ^ 63 - 1

/-- The value of a digit run, accumulated digit by digit as `strtol` does, without a bound. -/
def digitsValue (digits : List UInt8) : Nat :=
  digits.foldl (fun value c => 10 * value + (c.toNat - 48)) 0

/-- `strtol(a, &ap, 10)` on a digit run: its value saturated at `LONG_MAX`, and the cursor past it. -/
def strtol (a : List UInt8) : Int × List UInt8 :=
  (min (digitsValue (a.takeWhile isdigit) : Int) longMax, a.dropWhile isdigit)

/-- The conversion `int ai = strtol(...)` of a `long` to a 32-bit `int`, modulo `2^32`. -/
def toInt (value : Int) : Int :=
  value.bmod (2 ^ 32)

/-! ## The cursor walk -/

/-- The inner loop `while (*a == *b && *a != '\0' && !isdigit(*a)) { ++a; ++b; }`. -/
def skipCommon : List UInt8 → List UInt8 → List UInt8 × List UInt8
  | c :: a, d :: b => if c = d ∧ isdigit c = false then skipCommon a b else (c :: a, d :: b)
  | a, b => (a, b)

/-- What one pass of the outer loop ends in. -/
inductive Pass
  /-- The lambda returns `result`. -/
  | done (result : Bool)
  /-- The loop goes on with the cursors `a = ap` and `b = bp`. -/
  | next (a b : List UInt8)
  deriving DecidableEq

/-- One pass of the outer loop of the comparator. -/
def pass (a b : List UInt8) : Pass :=
  let (a, b) := skipCommon a b
  if isdigit (peek a) && isdigit (peek b) then
    let (ai, ap) := strtol a
    let (bi, bp) := strtol b
    if toInt ai ≠ toInt bi then .done (decide (toInt ai < toInt bi)) else .next ap bp
  else
    .done (decide (strcmp a b < 0))

/-- The outer loop `while (a != nullptr && b != nullptr)`, for at most `fuel` passes. -/
def compareLoop : Nat → List UInt8 → List UInt8 → Option Bool
  | 0, _, _ => none
  | fuel + 1, a, b =>
      match pass a b with
      | .done result => some result
      | .next a b => compareLoop fuel a b

/-- The comparator lambda that `jit_find_library` hands to `std::sort`. -/
def versionLess (a b : List UInt8) : Bool :=
  (compareLoop (a.length + 1) a b).getD false

/-- A path as `glob` returns it: the bytes of a C string before its terminating NUL. -/
structure CString where
  /-- The bytes up to the terminator. -/
  bytes : List UInt8
  /-- The terminator is the first NUL. -/
  nul_not_mem : 0 ∉ bytes
  deriving DecidableEq

/-! ## Tokens and their ranks -/

/-- A token of a path: one byte that is not a digit, or a maximal run of digits. -/
inductive Token
  | byte (c : UInt8)
  | digits (run : List UInt8)
  deriving DecidableEq

/-- The tokens of a path, from left to right. -/
def tokenize : List UInt8 → List Token
  | [] => []
  | c :: s =>
      if isdigit c then
        match tokenize s with
        | .digits run :: tokens => .digits (c :: run) :: tokens
        | tokens => .digits [c] :: tokens
      else .byte c :: tokenize s

/-- A token's place in the order: bytes below `'0'`, digit runs by their `int`, bytes above `'9'`. -/
def Token.rank : Token → Lex (ℕ × ℤ)
  | .byte c => toLex (if c.toNat < 48 then 0 else 2, c.toNat)
  | .digits run => toLex (1, toInt (min (digitsValue run : Int) longMax))

/-- The ranks of the tokens of a path. -/
def rank (s : List UInt8) : List (Lex (ℕ × ℤ)) :=
  (tokenize s).map Token.rank

theorem tokenize_cons (c : UInt8) (s : List UInt8) :
    tokenize (c :: s) =
      if isdigit c then
        match tokenize s with
        | .digits run :: tokens => .digits (c :: run) :: tokens
        | tokens => .digits [c] :: tokens
      else .byte c :: tokenize s := rfl

theorem isdigit_iff {c : UInt8} : isdigit c = true ↔ 48 ≤ c.toNat ∧ c.toNat ≤ 57 := by
  simp [isdigit]

@[simp] theorem isdigit_peek_nil : isdigit (peek []) = false := by decide

theorem tokenize_append {p : List UInt8} (hp : ∀ c ∈ p, isdigit c = false) (s : List UInt8) :
    tokenize (p ++ s) = p.map .byte ++ tokenize s := by
  induction p with
  | nil => rfl
  | cons c p ih =>
      simp only [List.mem_cons, forall_eq_or_imp] at hp
      simp [tokenize, hp.1, ih hp.2]

theorem tokenize_digit {c : UInt8} (hc : isdigit c = true) (s : List UInt8) :
    tokenize (c :: s) = .digits (c :: s.takeWhile isdigit) :: tokenize (s.dropWhile isdigit) := by
  induction s generalizing c with
  | nil => simp [tokenize, hc]
  | cons d s ih =>
      by_cases hd : isdigit d = true
      · rw [tokenize, if_pos hc, ih hd]
        simp [hd]
      · rw [tokenize, if_pos hc]
        simp [tokenize, hd]

theorem rank_nondigit {c : UInt8} (hc : isdigit c = false) (s : List UInt8) :
    rank (c :: s) = toLex (if c.toNat < 48 then 0 else 2, (c.toNat : ℤ)) :: rank s := by
  simp [rank, tokenize, hc, Token.rank]

theorem rank_digit {c : UInt8} (hc : isdigit c = true) (s : List UInt8) :
    rank (c :: s) = toLex (1, toInt (strtol (c :: s)).1) :: rank (s.dropWhile isdigit) := by
  simp [rank, tokenize_digit hc, Token.rank, strtol, hc]

theorem rank_cons_ne_nil (c : UInt8) (s : List UInt8) : rank (c :: s) ≠ [] := by
  cases hc : isdigit c
  · simp [rank_nondigit hc]
  · simp [rank_digit hc]

theorem lex_append_iff {l x y : List (Lex (ℕ × ℤ))} : l ++ x < l ++ y ↔ x < y := by
  induction l with
  | nil => rfl
  | cons e l ih => exact List.Lex.cons_iff.trans ih

theorem lex_cons_iff_of_ne {e f : Lex (ℕ × ℤ)} {x y : List (Lex (ℕ × ℤ))} (hne : e ≠ f) :
    e :: x < f :: y ↔ e < f := by
  constructor
  · rintro (_ | h | h)
    · exact absurd rfl hne
    · exact h
  · exact List.Lex.rel

theorem rank_append_lt_iff {p : List UInt8} (hp : ∀ c ∈ p, isdigit c = false) (a b : List UInt8) :
    rank (p ++ a) < rank (p ++ b) ↔ rank a < rank b := by
  simp only [rank, tokenize_append hp, List.map_append]
  exact lex_append_iff

/-! ## One pass of the outer loop -/

@[simp] theorem skipCommon_nil_left (b : List UInt8) : skipCommon [] b = ([], b) := by
  cases b <;> rfl

@[simp] theorem skipCommon_nil_right (a : List UInt8) : skipCommon a [] = (a, []) := by
  cases a <;> rfl

theorem skipCommon_cons (c d : UInt8) (a b : List UInt8) :
    skipCommon (c :: a) (d :: b) =
      if c = d ∧ isdigit c = false then skipCommon a b else (c :: a, d :: b) := rfl

theorem skipCommon_prefix (a b : List UInt8) :
    ∃ p, a = p ++ (skipCommon a b).1 ∧ b = p ++ (skipCommon a b).2 ∧
      ∀ c ∈ p, isdigit c = false := by
  induction a generalizing b with
  | nil => exact ⟨[], by simp⟩
  | cons c a ih =>
      cases b with
      | nil => exact ⟨[], by simp⟩
      | cons d b =>
          rw [skipCommon_cons]
          split
          · next common =>
              obtain ⟨rfl, hc⟩ := common
              obtain ⟨p, ha, hb, hp⟩ := ih b
              refine ⟨c :: p, congrArg _ ha, congrArg _ hb, ?_⟩
              simpa [hc] using hp
          · exact ⟨[], by simp⟩

theorem skipCommon_stop {a b x y : List UInt8} {c : UInt8}
    (ha : (skipCommon a b).1 = c :: x) (hb : (skipCommon a b).2 = c :: y) : isdigit c = true := by
  induction a generalizing b with
  | nil => simp at ha
  | cons c' a ih =>
      cases b with
      | nil => simp at hb
      | cons d b =>
          rw [skipCommon_cons] at ha hb
          split at ha
          · next common =>
              rw [if_pos common] at hb
              exact ih ha hb
          · next differ =>
              rw [if_neg differ] at hb
              simp only [List.cons.injEq] at ha hb
              obtain ⟨rfl, -⟩ := ha
              obtain ⟨rfl, -⟩ := hb
              simpa using differ

/-- Where the walk falls back on `strcmp`, `strcmp` agrees with the token ranks. -/
theorem strcmp_neg_iff {a b : List UInt8} (ha : 0 ∉ a) (hb : 0 ∉ b)
    (hstop : ∀ c x y, a = c :: x → b = c :: y → isdigit c = true)
    (hdigits : ¬(isdigit (peek a) = true ∧ isdigit (peek b) = true)) :
    strcmp a b < 0 ↔ rank a < rank b := by
  rcases a with _ | ⟨c, x⟩ <;> rcases b with _ | ⟨d, y⟩
  · simp [strcmp, rank, tokenize]
  · have hd : d.toNat ≠ 0 := fun h => hb (by simp [@UInt8.toNat.inj d 0 h])
    obtain ⟨e, l, he⟩ := List.exists_cons_of_ne_nil (rank_cons_ne_nil d y)
    rw [he]
    simp only [strcmp]
    exact ⟨fun _ => List.Lex.nil, fun _ => by omega⟩
  · simp only [strcmp, rank, tokenize, List.map_nil]
    exact ⟨fun h => by omega, fun h => absurd h (List.Lex.not_nil_right _ _)⟩
  · have hne : c ≠ d := by
      rintro rfl
      exact hdigits ⟨hstop c x y rfl rfl, hstop c x y rfl rfl⟩
    have hval : c.toNat ≠ d.toNat := fun h => hne (UInt8.toNat.inj h)
    simp only [strcmp, if_neg hne]
    simp only [peek] at hdigits
    cases hc : isdigit c <;> cases hd : isdigit d
    · rw [rank_nondigit hc, rank_nondigit hd,
        lex_cons_iff_of_ne (by simp only [ne_eq, toLex_inj, Prod.mk.injEq]; omega),
        Prod.Lex.lt_iff]
      simp only [isdigit, Bool.and_eq_false_iff, decide_eq_false_iff_not, not_le] at hc hd
      split_ifs <;> simp <;> omega
    · rw [rank_nondigit hc, rank_digit hd, lex_cons_iff_of_ne (by split_ifs <;> simp),
        Prod.Lex.lt_iff]
      rw [isdigit_iff] at hd
      simp only [isdigit, Bool.and_eq_false_iff, decide_eq_false_iff_not, not_le] at hc
      split_ifs <;> simp <;> omega
    · rw [rank_digit hc, rank_nondigit hd, lex_cons_iff_of_ne (by split_ifs <;> simp),
        Prod.Lex.lt_iff]
      rw [isdigit_iff] at hc
      simp only [isdigit, Bool.and_eq_false_iff, decide_eq_false_iff_not, not_le] at hd
      split_ifs <;> simp <;> omega
    · exact absurd ⟨hc, hd⟩ hdigits

/-- The cursor `a'` lies past a nonempty run of digits of `a`. -/
def PastDigits (a a' : List UInt8) : Prop :=
  ∃ front run, a = front ++ run ++ a' ∧ run ≠ [] ∧ ∀ c ∈ run, isdigit c = true

theorem pastDigits_length_lt {a a' : List UInt8} (h : PastDigits a a') :
    a'.length < a.length := by
  obtain ⟨front, run, rfl, hrun, -⟩ := h
  have : 0 < run.length := List.length_pos.mpr hrun
  simp only [List.length_append]
  omega

theorem pastDigits_nul {a a' : List UInt8} (h : PastDigits a a') (ha : 0 ∉ a) : 0 ∉ a' := by
  obtain ⟨front, run, rfl, -, -⟩ := h
  simp_all

theorem pastDigits_cons {c : UInt8} (hc : isdigit c = true) (p x : List UInt8) :
    PastDigits (p ++ c :: x) (x.dropWhile isdigit) := by
  refine ⟨p, c :: x.takeWhile isdigit, ?_, List.cons_ne_nil _ _, ?_⟩
  · simp [List.takeWhile_append_dropWhile]
  · intro e he
    simp only [List.mem_cons] at he
    rcases he with rfl | he
    · exact hc
    · exact List.mem_takeWhile_imp he

/-- A pass that does not return has moved both cursors past a digit run, on which they tied. -/
theorem pass_next {a b a' b' : List UInt8} (h : pass a b = .next a' b') :
    PastDigits a a' ∧ PastDigits b b' ∧ (rank a < rank b ↔ rank a' < rank b') := by
  obtain ⟨p, ha, hb, hp⟩ := skipCommon_prefix a b
  rcases hs : skipCommon a b with ⟨a₁, b₁⟩
  simp only [pass, hs] at h
  rw [hs] at ha hb
  subst ha hb
  split at h
  · next hdigits =>
      rcases a₁ with _ | ⟨c, x⟩
      · simp at hdigits
      rcases b₁ with _ | ⟨d, y⟩
      · simp at hdigits
      simp only [peek, Bool.and_eq_true] at hdigits
      split at h
      · cases h
      · next hkey =>
          simp only [strtol, Pass.next.injEq] at h hkey
          obtain ⟨rfl, rfl⟩ := h
          refine ⟨?_, ?_, ?_⟩
          · simpa [hdigits.1] using pastDigits_cons hdigits.1 p x
          · simpa [hdigits.2] using pastDigits_cons hdigits.2 p y
          rw [rank_append_lt_iff hp, rank_digit hdigits.1, rank_digit hdigits.2]
          simp only [strtol, not_not] at hkey ⊢
          rw [hkey, List.dropWhile_cons_of_pos hdigits.1, List.dropWhile_cons_of_pos hdigits.2]
          exact List.Lex.cons_iff
  · cases h

/-- A pass that returns answers the rank comparison of the two strings. -/
theorem pass_done {a b : List UInt8} {result : Bool} (ha : 0 ∉ a) (hb : 0 ∉ b)
    (h : pass a b = .done result) : result = decide (rank a < rank b) := by
  obtain ⟨p, hpa, hpb, hp⟩ := skipCommon_prefix a b
  have hstop := @skipCommon_stop a b
  rcases hs : skipCommon a b with ⟨a₁, b₁⟩
  simp only [pass, hs] at h
  rw [hs] at hpa hpb hstop
  subst hpa hpb
  dsimp only at hstop ha hb
  simp only [rank_append_lt_iff hp]
  split at h
  · next hdigits =>
      rcases a₁ with _ | ⟨c, x⟩
      · simp at hdigits
      rcases b₁ with _ | ⟨d, y⟩
      · simp at hdigits
      simp only [peek, Bool.and_eq_true] at hdigits
      split at h
      · next hkey =>
          simp only [Pass.done.injEq] at h
          subst h
          refine decide_eq_decide.mpr ?_
          rw [rank_digit hdigits.1, rank_digit hdigits.2,
            lex_cons_iff_of_ne (by simpa using hkey), Prod.Lex.lt_iff]
          simp
      · cases h
  · next hdigits =>
      simp only [Pass.done.injEq] at h
      subst h
      simp only [List.mem_append, not_or] at ha hb
      exact decide_eq_decide.mpr
        (strcmp_neg_iff ha.2 hb.2 (fun c x y h₁ h₂ => hstop h₁ h₂) (by simpa using hdigits))

/-! ## The whole loop -/

/-- The loop returns within one pass more than the first string has bytes. -/
theorem compareLoop_isSome {fuel : Nat} {a b : List UInt8} (hfuel : a.length < fuel) :
    (compareLoop fuel a b).isSome := by
  induction fuel generalizing a b with
  | zero => omega
  | succ fuel ih =>
      rw [compareLoop]
      split
      · rfl
      · next a' b' h =>
          have hlen := pastDigits_length_lt (pass_next h).1
          exact ih (by omega)

/-- On C strings the cursor walk is the lexicographic order of the token ranks. -/
theorem compareLoop_eq {fuel : Nat} {a b : List UInt8} (ha : 0 ∉ a) (hb : 0 ∉ b)
    (hfuel : a.length < fuel) : compareLoop fuel a b = some (decide (rank a < rank b)) := by
  induction fuel generalizing a b with
  | zero => omega
  | succ fuel ih =>
      rw [compareLoop]
      split
      · next result h => rw [pass_done ha hb h]
      · next a' b' h =>
          obtain ⟨pa, pb, hrank⟩ := pass_next h
          have hlen := pastDigits_length_lt pa
          rw [ih (pastDigits_nul pa ha) (pastDigits_nul pb hb) (by omega)]
          simp [hrank]

theorem versionLess_iff (a b : CString) :
    versionLess a.bytes b.bytes = true ↔ rank a.bytes < rank b.bytes := by
  simp [versionLess, compareLoop_eq a.nul_not_mem b.nul_not_mem (Nat.lt_succ_self _)]

/-- Each pass returns or moves both cursors past a digit run, the loop returns within `|a| + 1`
passes, and the comparator is a strict weak order on C strings. -/
theorem versionLess_strictWeakOrder :
    (∀ a b : List UInt8, (∃ result, pass a b = .done result) ∨
      ∃ a' b', pass a b = .next a' b' ∧ PastDigits a a' ∧ PastDigits b b') ∧
    (∀ a b : List UInt8, ∃ result, compareLoop (a.length + 1) a b = some result) ∧
    IsStrictWeakOrder CString (fun a b => versionLess a.bytes b.bytes = true) := by
  refine ⟨fun a b => ?_,
    fun a b => Option.isSome_iff_exists.mp (compareLoop_isSome (by omega)), ?_⟩
  · cases h : pass a b with
    | done result => exact .inl ⟨result, rfl⟩
    | next a' b' => exact .inr ⟨a', b', rfl, (pass_next h).1, (pass_next h).2.1⟩
  · simp only [versionLess_iff]
    have incomparable : ∀ a b : CString,
        ¬rank a.bytes < rank b.bytes ∧ ¬rank b.bytes < rank a.bytes →
          rank a.bytes = rank b.bytes :=
      fun a b h => le_antisymm (not_lt.mp h.2) (not_lt.mp h.1)
    exact { irrefl := fun a => lt_irrefl _
            trans := fun a b c => lt_trans
            incomp_trans := fun a b c hab hbc => by
              rw [incomparable a b hab, incomparable b c hbc]
              exact ⟨lt_irrefl _, lt_irrefl _⟩ }

/-! ## Digit runs -/

theorem tokenize_append_of_last {p : List UInt8} (hp : ∀ c ∈ p.getLast?, isdigit c = false)
    (s : List UInt8) : tokenize (p ++ s) = tokenize p ++ tokenize s := by
  induction p with
  | nil => rfl
  | cons c p ih =>
      cases p with
      | nil =>
          have hc : isdigit c = false := hp c (by simp)
          simp [tokenize, hc]
      | cons d p =>
          have hlast : ∀ e ∈ (d :: p).getLast?, isdigit e = false := fun e he =>
            hp e (by rw [List.getLast?_cons_cons]; exact he)
          obtain ⟨t, ts, ht⟩ := List.exists_cons_of_ne_nil
            (by simpa [rank] using rank_cons_ne_nil d p)
          rw [List.cons_append, tokenize_cons, tokenize_cons, ih hlast, ht, List.cons_append]
          split_ifs
          · cases t <;> rfl
          · rfl

theorem rank_digits_append {d s : List UInt8} (hd : d ≠ [] ∧ ∀ c ∈ d, isdigit c = true)
    (hs : ∀ c ∈ s.head?, isdigit c = false) :
    rank (d ++ s) = toLex (1, toInt (min (digitsValue d : Int) longMax)) :: rank s := by
  obtain ⟨c, d', rfl⟩ := List.exists_cons_of_ne_nil hd.1
  have hc : isdigit c = true := hd.2 c (List.mem_cons_self _ _)
  have hd' : ∀ e ∈ d', isdigit e = true := fun e he => hd.2 e (List.mem_cons_of_mem _ he)
  have hstop : s.takeWhile isdigit = [] ∧ s.dropWhile isdigit = s := by
    cases s with
    | nil => simp
    | cons e s =>
        have he : isdigit e = false := hs e (by simp)
        simp [List.takeWhile_cons_of_neg, List.dropWhile_cons_of_neg, he]
  rw [List.cons_append, rank_digit hc, List.dropWhile_append_of_pos hd', hstop.2]
  simp [strtol, List.takeWhile_cons_of_pos hc, List.takeWhile_append_of_pos hd', hstop.1]

theorem toInt_of_lt {value : Int} (hlo : 0 ≤ value) (hhi : value < 2 ^ 31) :
    toInt value = value := by
  rw [toInt, Int.bmod, Int.emod_eq_of_lt hlo (by omega)]
  split_ifs <;> omega

/-- Candidates differing in one digit run, each fitting an `int`, sort by the values of the runs. -/
theorem versionLess_numeric {p d₁ d₂ s₁ s₂ : List UInt8} (hp : 0 ∉ p) (hs₁ : 0 ∉ s₁)
    (hs₂ : 0 ∉ s₂) (hlast : ∀ c ∈ p.getLast?, isdigit c = false)
    (hd₁ : d₁ ≠ [] ∧ ∀ c ∈ d₁, isdigit c = true) (hd₂ : d₂ ≠ [] ∧ ∀ c ∈ d₂, isdigit c = true)
    (hhead₁ : ∀ c ∈ s₁.head?, isdigit c = false) (hhead₂ : ∀ c ∈ s₂.head?, isdigit c = false)
    (hlt : digitsValue d₁ < digitsValue d₂) (hmax : digitsValue d₂ ≤ 2 ^ 31 - 1) :
    versionLess (p ++ d₁ ++ s₁) (p ++ d₂ ++ s₂) = true ∧
      versionLess (p ++ d₂ ++ s₂) (p ++ d₁ ++ s₁) = false := by
  have nul : ∀ {d s : List UInt8}, (∀ c ∈ d, isdigit c = true) → 0 ∉ s → 0 ∉ p ++ d ++ s :=
    fun hd hs h => by
      simp only [List.mem_append] at h
      rcases h with (h | h) | h
      · exact hp h
      · exact absurd (hd 0 h) (by decide)
      · exact hs h
  have key : ∀ {d s : List UInt8}, (d ≠ [] ∧ ∀ c ∈ d, isdigit c = true) →
      (∀ c ∈ s.head?, isdigit c = false) → digitsValue d ≤ 2 ^ 31 - 1 →
      rank (p ++ d ++ s) = rank p ++ toLex (1, (digitsValue d : Int)) :: rank s :=
    fun hd hs hv => by
      rw [List.append_assoc, rank, tokenize_append_of_last hlast, List.map_append, ← rank, ← rank,
        rank_digits_append hd hs, min_eq_left (by simp [longMax]; omega),
        toInt_of_lt (by omega) (by omega)]
  have hne : toLex (1, (digitsValue d₁ : Int)) ≠ toLex (1, (digitsValue d₂ : Int)) := by
    simp only [ne_eq, toLex_inj, Prod.mk.injEq, true_and]
    omega
  simp only [versionLess, compareLoop_eq (nul hd₁.2 hs₁) (nul hd₂.2 hs₂) (Nat.lt_succ_self _),
    compareLoop_eq (nul hd₂.2 hs₂) (nul hd₁.2 hs₁) (Nat.lt_succ_self _), Option.getD_some,
    key hd₁ hhead₁ (by omega), key hd₂ hhead₂ hmax, lex_append_iff, lex_cons_iff_of_ne hne,
    lex_cons_iff_of_ne hne.symm, Prod.Lex.lt_iff]
  simp only [lt_self_iff_false, false_or, true_and, decide_eq_true_eq, decide_eq_false_iff_not]
  omega

example : versionLess ([108] ++ [49] ++ []) ([108] ++ [50] ++ []) = true := by decide

/-- `"libLLVM.so."`, the part the installed LLVM versions share. -/
def libLlvmSo : List UInt8 := [108, 105, 98, 76, 76, 86, 77, 46, 115, 111, 46]

/-- `"2147483648"` reads as `INT_MIN` and sorts before `"1"`; `"4294967297"` reads as `1`. -/
theorem versionLess_wraps :
    digitsValue [49] < digitsValue [50, 49, 52, 55, 52, 56, 51, 54, 52, 56] ∧
      versionLess (libLlvmSo ++ [50, 49, 52, 55, 52, 56, 51, 54, 52, 56]) (libLlvmSo ++ [49]) =
        true ∧
      versionLess (libLlvmSo ++ [49]) (libLlvmSo ++ [50, 49, 52, 55, 52, 56, 51, 54, 52, 56]) =
        false ∧
    digitsValue [49] < digitsValue [52, 50, 57, 52, 57, 54, 55, 50, 57, 55] ∧
      versionLess (libLlvmSo ++ [49]) (libLlvmSo ++ [52, 50, 57, 52, 57, 54, 55, 50, 57, 55]) =
        false := by
  decide

end FindLibrary
end DrJitCore
