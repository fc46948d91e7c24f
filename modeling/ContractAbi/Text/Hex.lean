/-!
# Hexadecimal text

Bytes are written as two lowercase digits each; digits of either case are read. Main statement:
`decode_encode`, what is written reads back.
-/

namespace ContractAbi.Hex

/-- The lowercase character of a digit below sixteen. -/
def digit (n : Nat) : Char :=
  if n < 10 then Char.ofNat (48 + n) else Char.ofNat (87 + n)

/-- The number a digit of either case stands for. -/
def digitValue? (c : Char) : Option Nat :=
  if '0' ≤ c ∧ c ≤ '9' then some (c.toNat - 48)
  else if 'a' ≤ c ∧ c ≤ 'f' then some (c.toNat - 87)
  else if 'A' ≤ c ∧ c ≤ 'F' then some (c.toNat - 55)
  else none

/-- Two digits a byte, the high half first. -/
def encode (bytes : List UInt8) : List Char :=
  bytes.flatMap fun b => [digit (b.toNat / 16), digit (b.toNat % 16)]

/-- The bytes that pairs of digits denote. An odd digit at the end denotes nothing. -/
def decode : List Char → Option (List UInt8)
  | [] => some []
  | [_] => none
  | high :: low :: rest =>
    match digitValue? high, digitValue? low, decode rest with
    | some h, some l, some bytes => some (UInt8.ofNat (16 * h + l) :: bytes)
    | _, _, _ => none

/-- The bytes behind the mark `0x`. -/
def text (bytes : List UInt8) : String :=
  String.ofList ('0' :: 'x' :: encode bytes)

/-- The bytes denoted by the digits behind the mark `0x` or `0X`. -/
def read? (s : String) : Option (List UInt8) :=
  match s.toList with
  | '0' :: 'x' :: digits => decode digits
  | '0' :: 'X' :: digits => decode digits
  | _ => none

/-- The number that digits denote in base sixteen; there must be one at least. -/
def value? (cs : List Char) : Option Nat :=
  if cs.isEmpty then none
  else cs.foldl (fun n c => n.bind fun n => (digitValue? c).map (16 * n + ·)) (some 0)

theorem digitValue?_digit {n : Nat} (h : n < 16) : digitValue? (digit n) = some n := by
  have : ∀ n < 16, digitValue? (digit n) = some n := by decide
  exact this n h

theorem decode_encode (bytes : List UInt8) : decode (encode bytes) = some bytes := by
  induction bytes with
  | nil => rfl
  | cons b bytes ih =>
    have hb : b.toNat < 256 := b.toNat_lt
    have e : 16 * (b.toNat / 16) + b.toNat % 16 = b.toNat := by omega
    simp only [encode, List.flatMap_cons, List.cons_append, List.nil_append, decode] at ih ⊢
    rw [digitValue?_digit (by omega), digitValue?_digit (by omega)]
    simp [ih, e]

theorem read?_text (bytes : List UInt8) : read? (text bytes) = some bytes := by
  simp [read?, text, decode_encode]

end ContractAbi.Hex
