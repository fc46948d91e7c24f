import ContractAbi.Text.Hex

/-!
# Keccak-256

The hash that names functions, errors and events: the Keccak permutation of 25 lanes of 64 bits,
and the sponge that absorbs a message in blocks of 136 bytes and yields 32 bytes. A message is
padded by a single bit at each end of what is missing to a whole block.

A round is the composition of five layers, each a function of the whole state.
-/

namespace ContractAbi.Keccak

/-- The state: the lane in column `x` and row `y` has the index `x + 5 * y`. -/
abbrev Lanes := Vector UInt64 25

/-- The index of the lane in column `x` and row `y`. -/
def index (x y : Fin 5) : Fin 25 :=
  ⟨x.val + 5 * y.val, by omega⟩

/-- The lane in column `x` and row `y`. -/
def lane (a : Lanes) (x y : Fin 5) : UInt64 :=
  a.get (index x y)

/-- The state whose lane in column `x` and row `y` is `f x y`. -/
def build (f : Fin 5 → Fin 5 → UInt64) : Lanes :=
  Vector.ofFn fun i =>
    f ⟨i.val % 5, Nat.mod_lt _ (by decide)⟩ ⟨i.val / 5, by omega⟩

/-- Rotate a lane to the left by fewer than 64 places. -/
def rotate (w : UInt64) (n : Nat) : UInt64 :=
  if n = 0 then w else (w <<< UInt64.ofNat n) ||| (w >>> UInt64.ofNat (64 - n))

/-! ### The permutation -/

/-- The parity of column `x`. -/
def column (a : Lanes) (x : Fin 5) : UInt64 :=
  lane a x 0 ^^^ lane a x 1 ^^^ lane a x 2 ^^^ lane a x 3 ^^^ lane a x 4

/-- Add to each lane the parities of the two neighbouring columns. -/
def theta (a : Lanes) : Lanes :=
  let c : Vector UInt64 5 := Vector.ofFn (column a)
  build fun x y => lane a x y ^^^ c.get (x + 4) ^^^ rotate (c.get (x + 1)) 1

/-- How far each lane is rotated. -/
def offsets : Vector Nat 25 :=
  #v[0, 1, 62, 28, 27, 36, 44, 6, 55, 20, 3, 10, 43, 25, 39, 41, 45, 15, 21, 8, 18, 2, 61, 56, 14]

/-- Rotate each lane by its offset. -/
def rho (a : Lanes) : Lanes :=
  build fun x y => rotate (lane a x y) (offsets.get (index x y))

/-- Permute the lanes. -/
def pi (a : Lanes) : Lanes :=
  build fun x y => lane a (x + 3 * y) x

/-- Combine each lane with the next two of its row, the only layer that is not linear. -/
def chi (a : Lanes) : Lanes :=
  build fun x y => lane a x y ^^^ (~~~ lane a (x + 1) y &&& lane a (x + 2) y)

/-- Add a round constant to the first lane. -/
def iota (constant : UInt64) (a : Lanes) : Lanes :=
  a.set 0 (a.get 0 ^^^ constant)

/-- The constants of the 24 rounds. -/
def roundConstants : List UInt64 :=
  [0x0000000000000001, 0x0000000000008082, 0x800000000000808A, 0x8000000080008000,
   0x000000000000808B, 0x0000000080000001, 0x8000000080008081, 0x8000000000008009,
   0x000000000000008A, 0x0000000000000088, 0x0000000080008009, 0x000000008000000A,
   0x000000008000808B, 0x800000000000008B, 0x8000000000008089, 0x8000000000008003,
   0x8000000000008002, 0x8000000000000080, 0x000000000000800A, 0x800000008000000A,
   0x8000000080008081, 0x8000000000008080, 0x0000000080000001, 0x8000000080008008]

/-- One round. -/
def round (a : Lanes) (constant : UInt64) : Lanes :=
  iota constant (chi (pi (rho (theta a))))

/-- The permutation of 24 rounds. -/
def permute (a : Lanes) : Lanes :=
  roundConstants.foldl round a

/-! ### The sponge -/

/-- The bytes of a block. -/
def rate : Nat := 136

/-- The bytes that fill up a message to whole blocks: a first bit, zeros and a last bit. -/
def padding (length : Nat) : List UInt8 :=
  match rate - length % rate with
  | 0 | 1 => [0x81]
  | missing + 2 => 0x01 :: List.replicate missing 0 ++ [0x80]

/-- The number that bytes denote, the least significant first. -/
def littleEndian (bytes : List UInt8) : UInt64 :=
  bytes.foldr (fun b n => (n <<< 8) ||| b.toUInt64) 0

/-- The eight bytes of a lane, the least significant first. -/
def laneBytes (w : UInt64) : List UInt8 :=
  (List.range 8).map fun i => (w >>> UInt64.ofNat (8 * i)).toUInt8

/-- Add a block to the first lanes of the state. -/
def addBlock (a : Lanes) (block : List UInt8) : Lanes :=
  Vector.ofFn fun i => a.get i ^^^ littleEndian ((block.drop (8 * i.val)).take 8)

/-- Absorb a message of whole blocks, permuting after each. -/
def absorb (a : Lanes) (message : List UInt8) : Lanes :=
  if message.isEmpty then a
  else absorb (permute (addBlock a (message.take rate))) (message.drop rate)
termination_by message.length
decreasing_by
  simp only [List.isEmpty_iff] at *
  have : 0 < message.length := List.length_pos_iff.2 (by assumption)
  simp [rate]; omega

/-- The hash of a message: 32 bytes. -/
def hash (message : List UInt8) : List UInt8 :=
  let final := absorb (Vector.replicate 25 0) (message ++ padding message.length)
  (final.toList.flatMap laneBytes).take 32

/-- The hash of a text in UTF-8. -/
def hashText (s : String) : List UInt8 :=
  hash s.toUTF8.data.toList

end ContractAbi.Keccak
