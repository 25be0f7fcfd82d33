import Mathlib.Tactic.SplitIfs

/-!
Texts in the order of their bytes.

Texts are compared by their characters.  UTF-8 writes a greater character with greater bytes, so this
is also the order of the bytes that they are stored as.
-/

namespace RecurringJobs
namespace Text

/-- The bytes that a text is stored as. -/
def bytes (s : String) : List UInt8 := s.toUTF8.data.toList

theorem cons_lt_cons {a b : Nat} (ha : a < 256) (hb : b < 256) {l l' : List UInt8}
    (h : a < b ∨ a = b ∧ l < l') : UInt8.ofNat a :: l < UInt8.ofNat b :: l' := by
  rw [List.cons_lt_cons_iff]
  rcases h with hlt | ⟨rfl, hrest⟩
  · left
    rw [UInt8.lt_iff_toNat_lt, UInt8.toNat_ofNat', UInt8.toNat_ofNat']
    omega
  · exact Or.inr ⟨rfl, hrest⟩

/-- The last byte of a character, when those before it are the same. -/
theorem continuation_lt {m n : Nat} (hsame : m / 64 = n / 64) (hlt : m < n) {r r' : List UInt8} :
    UInt8.ofNat (m % 0x40 + 0x80) :: r < UInt8.ofNat (n % 0x40 + 0x80) :: r' :=
  cons_lt_cons (by omega) (by omega) (Or.inl (by omega))

theorem continuations_lt {m n : Nat} (hsame : m / 4096 = n / 4096) (hlt : m < n)
    {r r' : List UInt8} :
    UInt8.ofNat (m / 64 % 0x40 + 0x80) :: UInt8.ofNat (m % 0x40 + 0x80) :: r <
      UInt8.ofNat (n / 64 % 0x40 + 0x80) :: UInt8.ofNat (n % 0x40 + 0x80) :: r' := by
  refine cons_lt_cons (by omega) (by omega) ?_
  rcases Nat.lt_or_ge (m / 64) (n / 64) with hlead | hlead
  · exact Or.inl (by omega)
  · exact Or.inr ⟨by omega, continuation_lt (by omega) hlt⟩

theorem utf8EncodeChar_append_lt {c d : Char} (h : c < d) (r r' : List UInt8) :
    String.utf8EncodeChar c ++ r < String.utf8EncodeChar d ++ r' := by
  have hlt : c.val.toNat < d.val.toNat := h
  have hd : d.val.toNat < 0x110000 := by
    rcases d.valid with hlow | ⟨-, hhigh⟩
    · exact Nat.lt_trans hlow (by decide)
    · exact hhigh
  unfold String.utf8EncodeChar
  dsimp only
  generalize c.val.toNat = m at *
  generalize d.val.toNat = n at *
  -- a character of a shorter form has a smaller first byte
  by_cases h1 : m ≤ 0x7f
  · rw [if_pos h1]
    split_ifs <;> exact cons_lt_cons (by omega) (by omega) (Or.inl (by omega))
  rw [if_neg h1, if_neg (show ¬n ≤ 0x7f by omega)]
  by_cases h2 : m ≤ 0x7ff
  · rw [if_pos h2]
    split_ifs
    · refine cons_lt_cons (by omega) (by omega) ?_
      rcases Nat.lt_or_ge (m / 64) (n / 64) with hlead | hlead
      · exact Or.inl (by omega)
      · exact Or.inr ⟨by omega, continuation_lt (by omega) hlt⟩
    · exact cons_lt_cons (by omega) (by omega) (Or.inl (by omega))
    · exact cons_lt_cons (by omega) (by omega) (Or.inl (by omega))
  rw [if_neg h2, if_neg (show ¬n ≤ 0x7ff by omega)]
  by_cases h3 : m ≤ 0xffff
  · rw [if_pos h3]
    split_ifs
    · refine cons_lt_cons (by omega) (by omega) ?_
      rcases Nat.lt_or_ge (m / 4096) (n / 4096) with hlead | hlead
      · exact Or.inl (by omega)
      · exact Or.inr ⟨by omega, continuations_lt (by omega) hlt⟩
    · exact cons_lt_cons (by omega) (by omega) (Or.inl (by omega))
  rw [if_neg h3, if_neg (show ¬n ≤ 0xffff by omega)]
  refine cons_lt_cons (by omega) (by omega) ?_
  rcases Nat.lt_or_ge (m / 262144) (n / 262144) with hlead | hlead
  · exact Or.inl (by omega)
  refine Or.inr ⟨by omega, cons_lt_cons (by omega) (by omega) ?_⟩
  rcases Nat.lt_or_ge (m / 4096) (n / 4096) with hsecond | hsecond
  · exact Or.inl (by omega)
  · exact Or.inr ⟨by omega, continuations_lt (by omega) hlt⟩

theorem bytes_eq_flatMap (s : String) : bytes s = s.toList.flatMap String.utf8EncodeChar := by
  unfold bytes
  rw [String.toUTF8_eq_toByteArray, ← String.utf8Encode_toList]
  exact List.toList_data_toByteArray

theorem flatMap_lt {cs ds : List Char} (h : cs < ds) :
    cs.flatMap String.utf8EncodeChar < ds.flatMap String.utf8EncodeChar := by
  induction h with
  | @nil d ds =>
    obtain ⟨b, bs, hbytes⟩ := List.exists_cons_of_ne_nil (String.utf8EncodeChar_ne_nil (c := d))
    rw [List.flatMap_cons, hbytes]
    exact List.nil_lt_cons _ _
  | cons h ih =>
    rw [List.flatMap_cons, List.flatMap_cons]
    exact List.append_left_lt ih
  | rel hlt =>
    rw [List.flatMap_cons, List.flatMap_cons]
    exact utf8EncodeChar_append_lt hlt _ _

/-- Texts come in the order of their bytes. -/
theorem bytes_lt_bytes {s t : String} (h : s < t) : bytes s < bytes t := by
  rw [bytes_eq_flatMap, bytes_eq_flatMap]
  exact flatMap_lt h

end Text
end RecurringJobs
