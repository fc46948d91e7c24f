import Mathlib.Algebra.Group.Nat.Defs
import Mathlib.Tactic.SplitIfs

/-!
# The order of encoded texts

Texts are compared character by character, and the bytes that encode them in UTF-8 one by one. Both
orders are the same: a first byte tells how many bytes follow it, more for a greater character, and
what they hold are the digits of the character to the base 64, the most significant ones first.

    s < t → bytes s < bytes t
-/

namespace ContractAbi.Text

/-! ### The encoding of a character -/

/-- How many bytes follow the first one in the encoding of a code point. -/
def continuations (v : Nat) : Nat :=
  if v ≤ 0x7f then 0 else if v ≤ 0x7ff then 1 else if v ≤ 0xffff then 2 else 3

/-- The first byte of the encoding of a code point. -/
def leadByte (v : Nat) : Nat :=
  if v ≤ 0x7f then v
  else if v ≤ 0x7ff then v / 64 + 0xc0
  else if v ≤ 0xffff then v / 64 ^ 2 + 0xe0
  else v / 64 ^ 3 + 0xf0

/-- The last `k` digits of `v` to the base 64, as continuation bytes. -/
def continuationBytes : (k v : Nat) → List UInt8
  | 0, _ => []
  | k + 1, v => continuationBytes k (v / 64) ++ [UInt8.ofNat (v % 64 + 0x80)]

theorem toNat_val_lt (c : Char) : c.val.toNat < 0x110000 := by
  rcases c.valid with h | ⟨-, h⟩
  · exact Nat.lt_trans h (by decide)
  · exact h

theorem utf8EncodeChar_eq (c : Char) :
    String.utf8EncodeChar c = UInt8.ofNat (leadByte c.val.toNat) ::
      continuationBytes (continuations c.val.toNat) c.val.toNat := by
  have hcode := toNat_val_lt c
  unfold String.utf8EncodeChar leadByte continuations
  dsimp only
  generalize c.val.toNat = v at hcode
  split
  · rfl
  split
  · rw [Nat.mod_eq_of_lt (by omega)]
    rfl
  split
  · rw [Nat.mod_eq_of_lt (by omega)]
    simp [continuationBytes]
  · rw [Nat.mod_eq_of_lt (by omega)]
    simp [continuationBytes, Nat.div_div_eq_div_mul]

theorem leadByte_lt {v : Nat} (h : v < 0x110000) : leadByte v < 256 := by
  unfold leadByte
  split_ifs <;> omega

theorem leadByte_le {m n : Nat} (h : m < n) (hn : n < 0x110000) : leadByte m ≤ leadByte n := by
  unfold leadByte
  split_ifs <;> omega

/-- The first byte tells the number of bytes that follow, and it holds the first digit. -/
theorem eq_of_leadByte_eq {m n : Nat} (hm : m < 0x110000) (hn : n < 0x110000)
    (h : leadByte m = leadByte n) : continuations m = continuations n ∧
      m / 64 ^ continuations m = n / 64 ^ continuations n := by
  unfold leadByte at h
  unfold continuations
  split_ifs at h ⊢ <;> omega

/-- Continuation bytes are compared digit by digit, as the numbers are. -/
theorem continuationBytes_append_lt {k m n : Nat} (h : m < n) (hlead : m / 64 ^ k = n / 64 ^ k)
    (as bs : List UInt8) : continuationBytes k m ++ as < continuationBytes k n ++ bs := by
  induction k generalizing m n as bs with
  | zero =>
    rw [Nat.pow_zero, Nat.div_one, Nat.div_one] at hlead
    omega
  | succ k ih =>
    unfold continuationBytes
    rw [List.append_assoc, List.append_assoc]
    by_cases hrest : m / 64 < n / 64
    · apply ih hrest
      rwa [Nat.div_div_eq_div_mul, Nat.div_div_eq_div_mul, ← Nat.pow_succ']
    · -- the digits before the last agree, so the last one decides
      have heq : m / 64 = n / 64 := by omega
      rw [heq]
      apply List.append_left_lt
      apply List.cons_lt_cons_iff.2
      left
      rw [UInt8.lt_iff_toNat_lt, UInt8.toNat_ofNat', UInt8.toNat_ofNat']
      omega

/-- The encodings of characters are ordered as the characters, whatever follows. -/
theorem utf8EncodeChar_append_lt {c d : Char} (h : c < d) (as bs : List UInt8) :
    String.utf8EncodeChar c ++ as < String.utf8EncodeChar d ++ bs := by
  have hcode : c.val.toNat < d.val.toNat := h
  have hc := leadByte_lt (toNat_val_lt c)
  have hd := leadByte_lt (toNat_val_lt d)
  rw [utf8EncodeChar_eq, utf8EncodeChar_eq, List.cons_append, List.cons_append,
    List.cons_lt_cons_iff]
  rcases Nat.lt_or_eq_of_le (leadByte_le hcode (toNat_val_lt d)) with hlead | hlead
  · left
    rw [UInt8.lt_iff_toNat_lt, UInt8.toNat_ofNat', UInt8.toNat_ofNat', Nat.mod_eq_of_lt hc,
      Nat.mod_eq_of_lt hd]
    exact hlead
  · obtain ⟨hlength, hdigit⟩ := eq_of_leadByte_eq (toNat_val_lt c) (toNat_val_lt d) hlead
    right
    rw [hlength] at hdigit ⊢
    exact ⟨congrArg UInt8.ofNat hlead, continuationBytes_append_lt hcode hdigit as bs⟩

/-! ### The bytes of a text -/

/-- The bytes of a text in UTF-8. -/
def bytes (s : String) : List UInt8 :=
  s.toUTF8.data.toList

theorem bytes_eq_flatMap (s : String) : bytes s = s.toList.flatMap String.utf8EncodeChar := by
  unfold bytes
  rw [String.toUTF8_eq_toByteArray, ← String.utf8Encode_toList, List.utf8Encode,
    List.data_toByteArray]

theorem flatMap_utf8EncodeChar_lt {cs ds : List Char} (h : cs < ds) :
    cs.flatMap String.utf8EncodeChar < ds.flatMap String.utf8EncodeChar := by
  induction cs generalizing ds with
  | nil =>
    cases ds with
    | nil => cases h
    | cons d ds =>
      rw [List.flatMap_nil, List.flatMap_cons, utf8EncodeChar_eq]
      exact List.nil_lt_cons _ _
  | cons c cs ih =>
    cases ds with
    | nil => cases h
    | cons d ds =>
      rw [List.flatMap_cons, List.flatMap_cons]
      rcases List.cons_lt_cons_iff.1 h with hlt | ⟨rfl, hlt⟩
      · exact utf8EncodeChar_append_lt hlt _ _
      · apply List.append_left_lt
        exact ih hlt

/-- The bytes of texts are ordered as the texts are. -/
theorem bytes_lt_bytes {s t : String} (h : s < t) : bytes s < bytes t := by
  rw [bytes_eq_flatMap, bytes_eq_flatMap]
  exact flatMap_utf8EncodeChar_lt h

end ContractAbi.Text
