import ContractAbi.Json.Basic
import ContractAbi.Text.Basic
import ContractAbi.Text.Hex

/-!
# Tokens of JSON texts

A JSON text is cut into tokens: the six marks, strings, and the values that take up one token.
Between two tokens any run of the four blank characters may stand, and none is needed.

`tokens?` is the only way in; the scanners below it take the characters after a token has begun
and return what is left after it.
-/

namespace ContractAbi.Json

/-- A token of a JSON text. -/
inductive Token
  | openArray
  | closeArray
  | openObject
  | closeObject
  | comma
  | colon
  | string (value : String)
  /-- `null`, a truth value or a number. -/
  | atom (value : Json)

/-- The characters allowed between tokens. -/
def isSpace (c : Char) : Bool :=
  c = ' ' || c = '\n' || c = '\t' || c = '\r'

/-! ### Strings -/

/-- The number denoted by four hexadecimal digits. -/
def codeUnit? (a b c d : Char) : Option Nat :=
  Hex.value? [a, b, c, d]

/-- The character that a letter stands for behind a backslash. -/
def escaped? : Char → Option Char
  | '"' => some '"'
  | '\\' => some '\\'
  | '/' => some '/'
  | 'b' => some '\x08'
  | 'f' => some '\x0c'
  | 'n' => some '\n'
  | 'r' => some '\r'
  | 't' => some '\t'
  | _ => none

/-- Whether a code unit is the first of a surrogate pair. -/
def isLead (unit : Nat) : Bool :=
  0xD800 ≤ unit && unit < 0xDC00

/-- Whether a code unit is the second of a surrogate pair. -/
def isTrail (unit : Nat) : Bool :=
  0xDC00 ≤ unit && unit < 0xE000

/-- The character of a surrogate pair. -/
def ofPair (lead trail : Nat) : Char :=
  Char.ofNat (0x10000 + (lead - 0xD800) * 0x400 + (trail - 0xDC00))

/-- The contents of a string whose opening quote has been read, and the text after its closing
quote. Control characters must be escaped, and a surrogate must come as half of a pair. -/
def scanString : List Char → Option (List Char × List Char)
  | [] => none
  | '"' :: rest => some ([], rest)
  | '\\' :: 'u' :: a :: b :: c :: d :: rest =>
    match codeUnit? a b c d with
    | none => none
    | some unit =>
      if isTrail unit then none
      else if isLead unit then
        -- the second half has to follow at once, escaped as well
        match rest with
        | '\\' :: 'u' :: a' :: b' :: c' :: d' :: rest =>
          match codeUnit? a' b' c' d' with
          | none => none
          | some trail =>
            if isTrail trail then (scanString rest).map (Text.consLeft (ofPair unit trail))
            else none
        | _ => none
      else (scanString rest).map (Text.consLeft (Char.ofNat unit))
  | '\\' :: c :: rest =>
    match escaped? c with
    | none => none
    | some e => (scanString rest).map (Text.consLeft e)
  | c :: rest =>
    if c = '\\' ∨ c.toNat < 0x20 then none
    else (scanString rest).map (Text.consLeft c)

theorem length_scanString {cs s rest : List Char} (h : scanString cs = some (s, rest)) :
    rest.length ≤ cs.length := by
  fun_induction scanString cs generalizing s with
  | case1 => simp at h
  | case2 => simp_all
  | case3 => simp at h
  | case4 => simp at h
  | case5 => simp at h
  | case6 _ _ _ _ _ _ _ _ _ _ _ _ _ _ _ _ ih =>
    obtain ⟨s', h', rfl⟩ := Text.map_consLeft_eq_some_iff.1 h
    have := ih h'; simp only [List.length_cons]; omega
  | case7 => simp at h
  | case8 => simp at h
  | case9 _ _ _ _ _ _ _ _ _ ih =>
    obtain ⟨s', h', rfl⟩ := Text.map_consLeft_eq_some_iff.1 h
    have := ih h'; simp only [List.length_cons]; omega
  | case10 => simp at h
  | case11 _ _ _ _ _ ih =>
    obtain ⟨s', h', rfl⟩ := Text.map_consLeft_eq_some_iff.1 h
    have := ih h'; simp only [List.length_cons]; omega
  | case12 => simp at h
  | case13 _ _ _ _ _ _ ih =>
    obtain ⟨s', h', rfl⟩ := Text.map_consLeft_eq_some_iff.1 h
    have := ih h'; simp only [List.length_cons]; omega

/-! ### Numbers -/

/-- A run of digits and the text after it. -/
def scanDigits (cs : List Char) : List Char × List Char :=
  (cs.takeWhile Char.isDigit, cs.dropWhile Char.isDigit)

/-- The digits after a point, which there must be, if a point comes next. -/
def scanFraction : List Char → Option (List Char × List Char)
  | '.' :: rest =>
    match scanDigits rest with
    | ([], _) => none
    | (digits, rest) => some (digits, rest)
  | rest => some ([], rest)

/-- The digits of an exponent without its sign. -/
def scanExponentDigits (negative : Bool) (cs : List Char) :
    Option (Bool × List Char × List Char) :=
  match scanDigits cs with
  | ([], _) => none
  | (digits, rest) => some (negative, digits, rest)

/-- The sign and the digits of an exponent, if one comes next. -/
def scanExponent : List Char → Option (Bool × List Char × List Char)
  | c :: rest =>
    if c = 'e' ∨ c = 'E' then
      match rest with
      | '+' :: rest => scanExponentDigits false rest
      | '-' :: rest => scanExponentDigits true rest
      | rest => scanExponentDigits false rest
    else some (false, [], c :: rest)
  | [] => some (false, [], [])

/-- A number without its sign. A whole part of several digits does not begin with zero. -/
def scanUnsigned (negative : Bool) (cs : List Char) : Option (Json × List Char) :=
  let (whole, rest) := scanDigits cs
  if whole = [] ∨ (whole.head? = some '0' ∧ whole.length ≠ 1) then none
  else
    match scanFraction rest with
    | none => none
    | some (fraction, rest) =>
      match scanExponent rest with
      | none => none
      | some (exponentNegative, exponent, rest) =>
        (Number.ofNumeral ⟨negative, whole, fraction, exponentNegative, exponent⟩).map
          fun n => (.number n, rest)

/-- A number and the text after it. -/
def scanNumber : List Char → Option (Json × List Char)
  | '-' :: rest => scanUnsigned true rest
  | cs => scanUnsigned false cs

/-- A literal name or a number, and the text after it. -/
def scanAtom (cs : List Char) : Option (Json × List Char) :=
  match cs with
  | 'n' :: 'u' :: 'l' :: 'l' :: rest => some (.null, rest)
  | 't' :: 'r' :: 'u' :: 'e' :: rest => some (.bool true, rest)
  | 'f' :: 'a' :: 'l' :: 's' :: 'e' :: rest => some (.bool false, rest)
  | cs => scanNumber cs

/-! ### The whole text -/

/-- The mark that a character is. -/
def mark? : Char → Option Token
  | '[' => some .openArray
  | ']' => some .closeArray
  | '\x7b' => some .openObject
  | '\x7d' => some .closeObject
  | ',' => some .comma
  | ':' => some .colon
  | _ => none

/-- The token that begins with `c`, and the text after it. -/
def scanToken (c : Char) (cs : List Char) : Option (Token × List Char) :=
  match mark? c with
  | some mark => some (mark, cs)
  | none =>
    if c = '"' then (scanString cs).map fun part => (.string (String.ofList part.1), part.2)
    else (scanAtom (c :: cs)).map fun part => (.atom part.1, part.2)

/-! ### Every scanner leaves less -/

theorem length_scanDigits (cs : List Char) :
    (scanDigits cs).1.length + (scanDigits cs).2.length = cs.length := by
  rw [scanDigits, ← List.length_append, List.takeWhile_append_dropWhile]

theorem length_scanFraction {cs digits rest : List Char}
    (h : scanFraction cs = some (digits, rest)) : rest.length ≤ cs.length := by
  rw [scanFraction.eq_def] at h
  split at h
  · next more =>
    have := length_scanDigits more
    split at h
    · simp at h
    · simp_all; omega
  · simp_all

theorem length_scanExponentDigits {negative sign : Bool} {cs digits rest : List Char}
    (h : scanExponentDigits negative cs = some (sign, digits, rest)) :
    rest.length ≤ cs.length := by
  have := length_scanDigits cs
  rw [scanExponentDigits] at h
  split at h
  · simp at h
  · simp_all; omega

theorem length_scanExponent {cs digits rest : List Char} {sign : Bool}
    (h : scanExponent cs = some (sign, digits, rest)) : rest.length ≤ cs.length := by
  rw [scanExponent.eq_def] at h
  split at h
  · split at h
    · split at h
      all_goals
        have := length_scanExponentDigits h
        simp_all; omega
    · simp_all
  · simp_all

theorem length_scanUnsigned {negative : Bool} {cs rest : List Char} {value : Json}
    (h : scanUnsigned negative cs = some (value, rest)) : rest.length < cs.length := by
  have hd := length_scanDigits cs
  rw [scanUnsigned] at h
  simp only at h
  split at h
  · simp at h
  · next hw =>
    have : 0 < (scanDigits cs).1.length := by
      rw [List.length_pos_iff]; intro e; simp [e] at hw
    split at h
    · simp at h
    · next hf =>
      have := length_scanFraction hf
      split at h
      · simp at h
      · next he =>
        have := length_scanExponent he
        simp only [Option.map_eq_some_iff, Prod.mk.injEq] at h
        obtain ⟨_, _, _, rfl⟩ := h
        omega

theorem length_scanNumber {cs rest : List Char} {value : Json}
    (h : scanNumber cs = some (value, rest)) : rest.length < cs.length := by
  rw [scanNumber.eq_def] at h
  split at h
  · have := length_scanUnsigned h; simp only [List.length_cons]; omega
  · exact length_scanUnsigned h

theorem length_scanAtom {cs rest : List Char} {value : Json}
    (h : scanAtom cs = some (value, rest)) : rest.length < cs.length := by
  rw [scanAtom.eq_def] at h
  split at h
  · simp_all; omega
  · simp_all; omega
  · simp_all; omega
  · exact length_scanNumber h

theorem length_scanToken {c : Char} {cs rest : List Char} {token : Token}
    (h : scanToken c cs = some (token, rest)) : rest.length ≤ cs.length := by
  rw [scanToken] at h
  split at h
  · simp_all
  · split at h
    · simp only [Option.map_eq_some_iff, Prod.mk.injEq, Prod.exists] at h
      obtain ⟨s, r, hs, _, rfl⟩ := h
      exact length_scanString hs
    · simp only [Option.map_eq_some_iff, Prod.mk.injEq, Prod.exists] at h
      obtain ⟨v, r, hs, _, rfl⟩ := h
      have := length_scanAtom hs
      simp only [List.length_cons] at this
      omega

/-- The tokens of a text, if it consists of tokens. -/
def tokens? : List Char → Option (List Token)
  | [] => some []
  | c :: cs =>
    if isSpace c then tokens? cs
    else
      match _h : scanToken c cs with
      | none => none
      | some (token, rest) => (tokens? rest).map (token :: ·)
termination_by cs => cs.length
decreasing_by
  · simp
  · have := length_scanToken _h; simp; omega

end ContractAbi.Json
