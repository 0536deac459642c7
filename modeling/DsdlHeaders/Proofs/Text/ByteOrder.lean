import Mathlib.Data.String.Basic

/-!
# Byte order

Texts are compared character by character. That is the order of their bytes in UTF-8
(`bytes_lt_of_lt`): of two different characters, the smaller one has the smaller code, and the codes
differ before one of them ends (`utf8EncodeChar_append_lt`).
-/

namespace DsdlHeaders.Text

/-- The bytes of a text in UTF-8. -/
def bytes (text : String) : List UInt8 :=
  text.toUTF8.data.toList

/-- The bytes of a text are those of its characters. -/
theorem bytes_eq_flatMap (text : String) :
    bytes text = text.toList.flatMap String.utf8EncodeChar := by
  rw [bytes, String.toUTF8_eq_toByteArray, ← String.utf8Encode_toList, List.utf8Encode,
    List.data_toByteArray]

/-! ## Characters -/

/-- Small numbers are compared as bytes are. -/
theorem byte_lt_iff {a b : Nat} (ha : a < 256) (hb : b < 256) :
    UInt8.ofNat a < UInt8.ofNat b ↔ a < b := by
  rw [UInt8.lt_iff_toNat_lt, UInt8.toNat_ofNat_of_lt' ha, UInt8.toNat_ofNat_of_lt' hb]

/-- Small numbers are the same when they are the same as bytes. -/
theorem byte_eq_iff {a b : Nat} (ha : a < 256) (hb : b < 256) :
    UInt8.ofNat a = UInt8.ofNat b ↔ a = b := by
  rw [← UInt8.toNat_inj, UInt8.toNat_ofNat_of_lt' ha, UInt8.toNat_ofNat_of_lt' hb]

/-- Of two different numbers, the smaller one has the smaller digits to the base 64. -/
theorem digits_lt {n m : Nat} (h : n < m) :
    n / 262144 < m / 262144 ∨ n / 262144 = m / 262144 ∧
      (n / 4096 % 64 < m / 4096 % 64 ∨ n / 4096 % 64 = m / 4096 % 64 ∧
        (n / 64 % 64 < m / 64 % 64 ∨ n / 64 % 64 = m / 64 % 64 ∧ n % 64 < m % 64)) := by
  have hstep : ∀ {n m : Nat}, n < m → n / 64 < m / 64 ∨ n / 64 = m / 64 ∧ n % 64 < m % 64 := by
    omega
  have hpowers : ∀ n, n / 4096 = n / 64 / 64 ∧ n / 262144 = n / 64 / 64 / 64 := by omega
  rw [(hpowers n).1, (hpowers n).2, (hpowers m).1, (hpowers m).2]
  rcases hstep h with h | ⟨hlast, h⟩
  · rcases hstep h with h | ⟨hthird, h⟩
    · rcases hstep h with h | ⟨hsecond, h⟩
      · exact .inl h
      · exact .inr ⟨hsecond, .inl h⟩
    · exact .inr ⟨by rw [hthird], .inr ⟨by rw [hthird], .inl h⟩⟩
  · rw [hlast]
    exact .inr ⟨rfl, .inr ⟨rfl, .inr ⟨rfl, h⟩⟩⟩

/-- Of two different characters, the smaller one has the smaller code, whatever follows. -/
theorem utf8EncodeChar_append_lt {c d : Char} (h : c < d) (rest others : List UInt8) :
    String.utf8EncodeChar c ++ rest < String.utf8EncodeChar d ++ others := by
  have hlt : c.val.toNat < d.val.toNat := h
  have hbound : d.val.toNat < 1114112 := by
    rcases d.valid with hlow | ⟨-, hhigh⟩
    · exact hlow.trans (by decide)
    · exact hhigh
  unfold String.utf8EncodeChar
  generalize c.val.toNat = n at hlt ⊢
  generalize d.val.toNat = m at hlt hbound ⊢
  have hdigits := digits_lt hlt
  dsimp only
  -- a longer code has the larger first byte; codes of one length are compared digit by digit
  split_ifs <;> simp only [List.cons_append, List.nil_append, List.cons_lt_cons_iff] <;>
    simp (disch := omega) only [byte_lt_iff, byte_eq_iff, Nat.mod_eq_of_lt] <;> omega

/-- Every character has a code. -/
theorem exists_utf8EncodeChar_eq_cons (c : Char) :
    ∃ byte rest, String.utf8EncodeChar c = byte :: rest := by
  unfold String.utf8EncodeChar
  dsimp only
  split_ifs <;> exact ⟨_, _, rfl⟩

/-! ## Texts -/

/-- Characters that come first have bytes that come first. -/
theorem flatMap_utf8EncodeChar_lt {s t : List Char} (h : s < t) :
    s.flatMap String.utf8EncodeChar < t.flatMap String.utf8EncodeChar := by
  induction s generalizing t with
  | nil =>
    cases t with
    | nil => exact absurd h (List.lt_irrefl [])
    | cons d t =>
      obtain ⟨byte, rest, hcode⟩ := exists_utf8EncodeChar_eq_cons d
      rw [List.flatMap_cons, hcode]
      exact List.nil_lt_cons _ _
  | cons c s ih =>
    cases t with
    | nil => exact absurd h (List.not_lt_nil _)
    | cons d t =>
      rw [List.flatMap_cons, List.flatMap_cons]
      rcases List.cons_lt_cons_iff.mp h with hless | ⟨rfl, hrest⟩
      · exact utf8EncodeChar_append_lt hless _ _
      · exact List.append_left_lt (ih hrest)

/-- A text that comes first has bytes that come first. -/
theorem bytes_lt_of_lt {text other : String} (h : text < other) : bytes text < bytes other := by
  rw [bytes_eq_flatMap, bytes_eq_flatMap]
  exact flatMap_utf8EncodeChar_lt (String.lt_iff_toList_lt.mp h)

end DsdlHeaders.Text
