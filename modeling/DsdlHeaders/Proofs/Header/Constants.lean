import Mathlib.Data.Nat.Digits.Lemmas
import DsdlHeaders.Header.Context

/-!
# The values of integer constants

The literal of an integer constant is checked as a decimal number of 128 bits and then put into the
header as it was written, with a suffix when the constant is unsigned. There other rules hold:
digits after a leading zero are octal, and the negative of an unsigned number is not negative.

* **`decimal?`** is the integer that a literal denotes as a decimal number.
* **`constantExpression?`** is the integer that a compiler takes from the spelling. How wide the
  type of an unsigned literal is depends on the compiler, so the widths are a parameter.
* **`spelling_keeps_value_iff`**: both agree exactly when the literal has no leading zero or a value
  below eight, and is not a negative number for an unsigned constant. `spelling_changes_value` gives
  a literal of each kind that is accepted and read as another number.
-/

namespace DsdlHeaders

open Text

/-! ## Digits -/

/-- The value of digits in a base, highest place first. -/
def positional (base : Nat) (digits : List Char) : Nat :=
  Nat.ofDigits base (digits.reverse.map digitValue)

/-- An octal digit. -/
def isOctal (c : Char) : Bool :=
  '0' ≤ c && c ≤ '7'

/-- The integer that a text denotes as a decimal number: an optional sign and one or more digits. -/
def decimal? (s : List Char) : Option Int :=
  let digits := dropSign s
  if digits.isEmpty || !digits.all isDigit then none
  else some (if s.head? = some '-' then -(positional 10 digits : Int) else positional 10 digits)

/-! ## Constant expressions -/

/-- The value of a literal without sign and suffix: digits after a leading zero are octal. -/
def unsignedLiteral? : List Char → Option Nat
  | '0' :: digit :: digits =>
    if (digit :: digits).all isOctal then some (positional 8 (digit :: digits)) else none
  | digits => if digits.isEmpty || !digits.all isDigit then none else some (positional 10 digits)

/-- The value of a literal with an optional suffix, and whether it is unsigned. -/
def suffixed? (s : List Char) : Option (Nat × Bool) :=
  if s.getLast? = some 'U' then (unsignedLiteral? s.dropLast).map (·, true)
  else (unsignedLiteral? s).map (·, false)

/-- The integer that a signed literal stands for. The negative of an unsigned value is taken in the
width of its type, which `width` gives for each value. -/
def constantExpression? (width : Nat → Nat) : List Char → Option Int
  | '-' :: s => (suffixed? s).map fun literal =>
    if literal.2 then -(literal.1 : Int) % 2 ^ width literal.1 else -(literal.1 : Int)
  | '+' :: s => (suffixed? s).map fun literal => (literal.1 : Int)
  | s => (suffixed? s).map fun literal => (literal.1 : Int)

/-! ## Reading digits in two bases -/

/-- Reading digits from the left gives their value. -/
theorem digitsValue_eq (s : List Char) : digitsValue s = positional 10 s := by
  rw [positional, Nat.ofDigits_eq_foldr, List.foldr_map, List.foldr_reverse, digitsValue]
  congr 1
  funext n c
  simp only [Nat.cast_id]
  omega

/-- A leading zero changes no value. -/
theorem positional_zero_cons (base : Nat) (s : List Char) :
    positional base ('0' :: s) = positional base s := by
  simp [positional, digitValue, Nat.ofDigits_append]

/-- No digit is above the value of all digits. -/
theorem digitValue_le_positional {s : List Char} {c : Char} (hc : c ∈ s) :
    digitValue c ≤ positional 10 s := by
  have hmem : digitValue c ∈ s.reverse.map digitValue := by
    exact List.mem_map_of_mem (List.mem_reverse.mpr hc)
  unfold positional
  generalize s.reverse.map digitValue = places at hmem ⊢
  induction places with
  | nil => exact absurd hmem List.not_mem_nil
  | cons place places ih =>
    rw [Nat.ofDigits_cons]
    rcases List.mem_cons.mp hmem with hplace | hmem
    · omega
    · have hlater := ih hmem
      omega

/-- Digits have the same value in base eight and in base ten exactly when it is below eight. -/
theorem positional_eight_eq_iff {s : List Char} (hs : ∀ c ∈ s, digitValue c < 8) :
    positional 8 s = positional 10 s ↔ positional 10 s < 8 := by
  have hplaces : ∀ place ∈ s.reverse.map digitValue, place < 8 := by
    intro place hplace
    obtain ⟨c, hc, rfl⟩ := List.mem_map.mp hplace
    exact hs c (List.mem_reverse.mp hc)
  unfold positional
  cases hdigits : s.reverse.map digitValue with
  | nil => simp
  | cons place places =>
    -- only the lowest place counts the same in both bases
    have hlow : place < 8 := hplaces place (by simp [hdigits])
    have hmono : Nat.ofDigits 8 places ≤ Nat.ofDigits 10 places :=
      Nat.ofDigits_monotone places (by omega)
    rw [Nat.ofDigits_cons, Nat.ofDigits_cons]
    omega

/-! ## Reading literals -/

/-- A digit is octal when it is below eight. -/
theorem isOctal_iff {c : Char} (hc : isDigit c = true) : isOctal c = true ↔ digitValue c < 8 := by
  simp only [isDigit, Bool.and_eq_true, decide_eq_true_eq, Char.le_def, UInt32.le_iff_toNat_le,
    Char.toNat_val, Char.reduceToNat] at hc
  simp only [isOctal, digitValue, Bool.and_eq_true, decide_eq_true_eq, Char.le_def,
    UInt32.le_iff_toNat_le, Char.toNat_val, Char.reduceToNat]
  omega

/-- One or more digits and nothing else. -/
def IsDigits (s : List Char) : Prop :=
  s ≠ [] ∧ ∀ c ∈ s, isDigit c = true

/-- A text is read as digits when it consists of them. -/
theorem isDigits_iff {s : List Char} : IsDigits s ↔ (s.isEmpty || !s.all isDigit) = false := by
  simp [IsDigits]

/-- Octal digits after a leading zero keep the decimal value exactly when it is below eight. -/
theorem octal_eq_iff {s : List Char} (h : ∀ c ∈ s, isDigit c = true) :
    (if s.all isOctal then some (positional 8 s) else none) = some (positional 10 s) ↔
      positional 10 s < 8 := by
  by_cases hoctal : s.all isOctal = true
  · have hlow : ∀ c ∈ s, digitValue c < 8 := fun c hc =>
      (isOctal_iff (h c hc)).mp (List.all_eq_true.mp hoctal c hc)
    rw [if_pos hoctal, Option.some.injEq, positional_eight_eq_iff hlow]
  · rw [if_neg hoctal]
    refine ⟨fun hnone => absurd hnone (by simp), fun hless => absurd ?_ hoctal⟩
    apply List.all_eq_true.mpr
    intro c hc
    have hplace := digitValue_le_positional hc
    exact (isOctal_iff (h c hc)).mpr (by omega)

/-- Digits are read as the decimal number exactly when they have no leading zero or a value below
eight. -/
theorem unsignedLiteral?_eq_iff {s : List Char} (h : IsDigits s) :
    unsignedLiteral? s = some (positional 10 s) ↔ s.head? ≠ some '0' ∨ positional 10 s < 8 := by
  have hread : (if s.isEmpty || !s.all isDigit then none else some (positional 10 s)) =
      some (positional 10 s) := by
    rw [isDigits_iff.mp h]
    rfl
  unfold unsignedLiteral?
  split
  · rename_i digit digits
    have hdigits : ∀ c ∈ digit :: digits, isDigit c = true := fun c hc => h.2 c (by simp [hc])
    rw [positional_zero_cons, octal_eq_iff hdigits]
    simp
  · rename_i hsingle
    refine ⟨fun _ => ?_, fun _ => hread⟩
    -- a zero that no digit follows
    rcases s with _ | ⟨c, _ | ⟨digit, digits⟩⟩
    · exact absurd rfl h.1
    · by_cases hzero : c = '0'
      · subst hzero
        exact .inr (by decide)
      · exact .inl (by simpa using hzero)
    · by_cases hzero : c = '0'
      · subst hzero
        exact absurd rfl (hsingle digit digits)
      · exact .inl (by simpa using hzero)

/-- Digits with the suffix of an unsigned constant, or without. -/
theorem suffixed?_append {s : List Char} (h : IsDigits s) (isUnsigned : Bool) :
    suffixed? (s ++ if isUnsigned then ['U'] else []) =
      (unsignedLiteral? s).map (·, isUnsigned) := by
  cases isUnsigned with
  | true => simp [suffixed?]
  | false =>
    have hlast : s.getLast? ≠ some 'U' := by
      intro hlast
      exact absurd (h.2 'U' (List.mem_of_getLast? hlast)) (by decide)
    simp [suffixed?, hlast]

/-! ## Signs -/

/-- Digits do not start with a sign. -/
theorem IsDigits.exists_cons {s : List Char} (h : IsDigits s) :
    ∃ c rest, s = c :: rest ∧ c ≠ '-' ∧ c ≠ '+' := by
  rcases s with _ | ⟨c, rest⟩
  · exact absurd rfl h.1
  · have hc : isDigit c = true := h.2 c List.mem_cons_self
    refine ⟨c, rest, rfl, ?_, ?_⟩
    · rintro rfl
      exact absurd hc (by decide)
    · rintro rfl
      exact absurd hc (by decide)

/-- Digits have no sign to drop. -/
theorem IsDigits.dropSign_eq {s : List Char} (h : IsDigits s) : dropSign s = s := by
  obtain ⟨c, rest, rfl, hminus, hplus⟩ := h.exists_cons
  unfold dropSign
  split
  · rename_i heq
    exact absurd (List.cons.inj heq).1 hplus
  · rename_i heq
    exact absurd (List.cons.inj heq).1 hminus
  · rfl

/-- An expression that starts with a digit has the value of its literal. -/
theorem constantExpression?_of_isDigits (width : Nat → Nat) {s : List Char} (h : IsDigits s)
    (suffix : List Char) :
    constantExpression? width (s ++ suffix) =
      (suffixed? (s ++ suffix)).map fun literal => (literal.1 : Int) := by
  obtain ⟨c, rest, rfl, hminus, hplus⟩ := h.exists_cons
  unfold constantExpression?
  split
  · rename_i heq
    exact absurd (List.cons.inj heq).1 hminus
  · rename_i heq
    exact absurd (List.cons.inj heq).1 hplus
  · rfl

/-- A natural number is written with digits. -/
theorem isDigits_of_natural? {s : List Char} {n : Nat} (h : natural? s = some n) :
    IsDigits s ∧ n = positional 10 s := by
  unfold natural? at h
  split at h
  · exact absurd h (by simp)
  · rename_i hdigits
    refine ⟨isDigits_iff.mpr (by simpa using hdigits), ?_⟩
    rw [← digitsValue_eq]
    exact (Option.some.inj h).symm

/-- What an accepted integer literal is: digits with a minus sign, with a plus sign, or alone. -/
theorem exists_digits_of_signed? {half : Nat} {s : List Char} {value : Int}
    (h : signed? half s = some value) : ∃ digits, IsDigits digits ∧
      (s = '-' :: digits ∧ value = -(positional 10 digits : Int) ∨
        (s = '+' :: digits ∨ s = digits) ∧ value = positional 10 digits) := by
  unfold signed? at h
  split at h
  · rename_i digits
    obtain ⟨n, hn, hvalue⟩ := Option.bind_eq_some_iff.mp h
    obtain ⟨hdigits, rfl⟩ := isDigits_of_natural? hn
    split_ifs at hvalue
    exact ⟨digits, hdigits, .inl ⟨rfl, (Option.some.inj hvalue).symm⟩⟩
  · rename_i digits
    obtain ⟨n, hn, hvalue⟩ := Option.bind_eq_some_iff.mp h
    obtain ⟨hdigits, rfl⟩ := isDigits_of_natural? hn
    split_ifs at hvalue
    exact ⟨digits, hdigits, .inr ⟨.inl rfl, (Option.some.inj hvalue).symm⟩⟩
  · obtain ⟨n, hn, hvalue⟩ := Option.bind_eq_some_iff.mp h
    obtain ⟨hdigits, rfl⟩ := isDigits_of_natural? hn
    split_ifs at hvalue
    exact ⟨s, hdigits, .inr ⟨.inr rfl, (Option.some.inj hvalue).symm⟩⟩

/-- The decimal value of digits after an optional sign. -/
theorem decimal?_eq {s : List Char} (h : IsDigits (dropSign s)) :
    decimal? s = some (if s.head? = some '-' then -(positional 10 (dropSign s) : Int)
      else positional 10 (dropSign s)) := by
  simp only [decimal?, isDigits_iff.mp h]
  rfl

/-! ## Constants -/

/-- The spelling of an integer constant is its literal, with a suffix if it is unsigned. -/
theorem toList_of_spelling {constant : Constant} {spelling : String}
    (hkind : constant.type.kind ≠ .floating) (h : constant.spelling = .ok spelling) :
    (∃ value, signed? (wordSize 127) constant.literal.toList = some value) ∧
      spelling.toList =
        constant.literal.toList ++ if constant.type.kind.isUnsigned then ['U'] else [] := by
  have hinteger : constant.type.kind.isFloating = false := by
    simpa [ScalarKind.isFloating] using hkind
  simp only [Constant.spelling, hinteger, Bool.false_eq_true, if_false] at h
  split at h
  · exact absurd h (by simp)
  · rename_i value hvalue
    obtain rfl := Except.ok.inj h
    refine ⟨⟨value, hvalue⟩, ?_⟩
    split_ifs <;> simp

/-- A negative literal is read as the decimal number exactly when its digits are, unless the
constant is unsigned: then only zero is. -/
theorem negative_eq_iff (width : Nat → Nat) {digits : List Char} (h : IsDigits digits)
    (isUnsigned : Bool) :
    constantExpression? width ('-' :: (digits ++ if isUnsigned then ['U'] else [])) =
        some (-(positional 10 digits : Int)) ↔
      (digits.head? ≠ some '0' ∨ positional 10 digits < 8) ∧
        (isUnsigned = true → positional 10 digits = 0) := by
  rw [constantExpression?, suffixed?_append h, Option.map_map, ← unsignedLiteral?_eq_iff h]
  cases isUnsigned with
  | false =>
    constructor
    · intro hread
      obtain ⟨n, hn, hvalue⟩ := Option.map_eq_some_iff.mp hread
      have hsame : n = positional 10 digits := by simpa using hvalue
      exact ⟨hsame ▸ hn, by simp⟩
    · rintro ⟨hread, -⟩
      simp [hread]
  | true =>
    constructor
    · intro hread
      obtain ⟨n, -, hvalue⟩ := Option.map_eq_some_iff.mp hread
      -- a value in a word is not negative
      have hword : 0 ≤ -(n : Int) % 2 ^ width n := Int.emod_nonneg _ (by positivity)
      have hvalue : -(n : Int) % 2 ^ width n = -(positional 10 digits : Int) := by
        simpa using hvalue
      have hzero : positional 10 digits = 0 := by omega
      exact ⟨(unsignedLiteral?_eq_iff h).mpr (.inr (by omega)), fun _ => hzero⟩
    · rintro ⟨hread, hzero⟩
      simp [hread, hzero rfl]

/-- A literal without a minus sign is read as the decimal number exactly when its digits are. -/
theorem nonnegative_eq_iff (width : Nat → Nat) {literal digits : List Char} (h : IsDigits digits)
    (hliteral : literal = '+' :: digits ∨ literal = digits) (isUnsigned : Bool) :
    constantExpression? width (literal ++ if isUnsigned then ['U'] else []) =
        some (positional 10 digits : Int) ↔
      digits.head? ≠ some '0' ∨ positional 10 digits < 8 := by
  have hread : constantExpression? width (literal ++ if isUnsigned then ['U'] else []) =
      Option.map (fun n : Nat => (n : Int)) (unsignedLiteral? digits) := by
    rcases hliteral with rfl | rfl
    · rw [List.cons_append, constantExpression?, suffixed?_append h, Option.map_map]
      rfl
    · rw [constantExpression?_of_isDigits width h, suffixed?_append h, Option.map_map]
      rfl
  rw [hread, ← unsignedLiteral?_eq_iff h]
  constructor
  · intro hvalue
    obtain ⟨n, hn, hsame⟩ := Option.map_eq_some_iff.mp hvalue
    rw [hn, Int.ofNat_inj.mp hsame]
  · intro hvalue
    rw [hvalue]
    rfl

/-- **When an integer constant keeps its value.** An accepted literal of an integer constant denotes
a decimal number, and its spelling is read as that number exactly when the digits have no leading
zero or a value below eight, and the constant is not an unsigned one with a negative literal. -/
theorem spelling_keeps_value_iff {constant : Constant} {spelling : String}
    (hkind : constant.type.kind ≠ .floating) (h : constant.spelling = .ok spelling)
    (width : Nat → Nat) : ∃ value, decimal? constant.literal.toList = some value ∧
      (constantExpression? width spelling.toList = some value ↔
        ((dropSign constant.literal.toList).head? ≠ some '0' ∨ value.natAbs < 8) ∧
        (constant.type.kind = .unsigned → 0 ≤ value)) := by
  obtain ⟨⟨value, hvalue⟩, hspelling⟩ := toList_of_spelling hkind h
  have hunsigned : constant.type.kind.isUnsigned = true ↔ constant.type.kind = .unsigned := by
    simp [ScalarKind.isUnsigned]
  rw [hspelling, ← hunsigned]
  obtain ⟨digits, hdigits, ⟨hliteral, rfl⟩ | ⟨hliteral, rfl⟩⟩ := exists_digits_of_signed? hvalue
  · have hdecimal : decimal? ('-' :: digits) = some (-(positional 10 digits : Int)) :=
      decimal?_eq hdigits
    have hzero : 0 ≤ -(positional 10 digits : Int) ↔ positional 10 digits = 0 := by omega
    rw [hliteral, List.cons_append]
    refine ⟨_, hdecimal, ?_⟩
    rw [negative_eq_iff width hdigits, Int.natAbs_neg, Int.natAbs_natCast, hzero]
    rfl
  · have hdrop : dropSign constant.literal.toList = digits := by
      rcases hliteral with hliteral | hliteral
      · rw [hliteral]
        rfl
      · rw [hliteral]
        exact hdigits.dropSign_eq
    have hsign : constant.literal.toList.head? ≠ some '-' := by
      rcases hliteral with hliteral | hliteral
      · simp [hliteral]
      · obtain ⟨c, rest, hcons, hminus, -⟩ := hdigits.exists_cons
        simp [hliteral, hcons, hminus]
    have hdecimal := decimal?_eq (hdrop ▸ hdigits)
    rw [if_neg hsign, hdrop] at hdecimal
    refine ⟨_, hdecimal, ?_⟩
    rw [nonnegative_eq_iff width hdigits hliteral, hdrop, Int.natAbs_natCast]
    simp

/-- A negative literal of a signed constant keeps its value. -/
theorem spelling_keeps_minusFortyTwo :
    (⟨"K", ⟨.signed, 16, .saturated⟩, "-42"⟩ : Constant).spelling = .ok "-42" ∧
      constantExpression? (fun _ => 32) "-42".toList = some (-42) := by
  have hspelling : (⟨"K", ⟨.signed, 16, .saturated⟩, "-42"⟩ : Constant).spelling = .ok "-42" := by
    decide +kernel
  obtain ⟨value, hvalue, hkept⟩ := spelling_keeps_value_iff (by decide) hspelling fun _ => 32
  have hdecimal : decimal? "-42".toList = some (-42) := by decide +kernel
  obtain rfl := Option.some.inj (hdecimal.symm.trans hvalue)
  exact ⟨hspelling, hkept.mpr (by decide +kernel)⟩

/-- Accepted literals may change their value: `010` is ten and is read as eight, and `-1` of an
unsigned constant is read as the highest number of its width. -/
theorem spelling_changes_value :
    ((⟨"K", ⟨.signed, 16, .saturated⟩, "010"⟩ : Constant).spelling = .ok "010" ∧
      decimal? "010".toList = some 10 ∧
      constantExpression? (fun _ => 32) "010".toList = some 8) ∧
    ((⟨"K", ⟨.unsigned, 8, .saturated⟩, "-1"⟩ : Constant).spelling = .ok "-1U" ∧
      decimal? "-1".toList = some (-1) ∧
      constantExpression? (fun _ => 32) "-1U".toList = some 4294967295) := by
  decide +kernel

end DsdlHeaders
