import ContractAbi.Proofs.Value.Integer

/-!
# The two spellings of bytes

Bytes are given to a type of bytes as a hexadecimal string or as an array of numbers. `Hex.Spells`
tells which digits spell which bytes, and the reader of hexadecimal strings accepts these and no
others; an array is read if its items are numbers below 256. Whichever spelling is used, the bytes
bind to the same value or, where there are too few or too many, to none. Main statement:
`Shape.bind_byte_spellings`.
-/

namespace ContractAbi

namespace Hex

/-! ### Hexadecimal digits -/

/-- Whether digits spell bytes: two digits of either case for each byte, the high half first. -/
inductive Spells : List Char → List UInt8 → Prop
  | nil : Spells [] []
  | cons {high low : Char} {cs : List Char} {b : UInt8} {bs : List UInt8} :
      Text.IsDigit high (b.toNat / 16) → Text.IsDigit low (b.toNat % 16) → Spells cs bs →
      Spells (high :: low :: cs) (b :: bs)

/-- Two digits make a byte of which they are the halves. -/
theorem halves_ofNat {h l : Nat} (hh : h < 16) (hl : l < 16) :
    (UInt8.ofNat (16 * h + l)).toNat / 16 = h ∧ (UInt8.ofNat (16 * h + l)).toNat % 16 = l := by
  have hbyte : (UInt8.ofNat (16 * h + l)).toNat = 16 * h + l :=
    UInt8.toNat_ofNat_of_lt' (show 16 * h + l < 256 by omega)
  rw [hbyte]
  omega

theorem spells_of_decode {cs : List Char} {bs : List UInt8} (h : decode cs = some bs) :
    Spells cs bs := by
  fun_induction decode cs generalizing bs with
  | case1 =>
    obtain rfl := Option.some.inj h
    exact .nil
  | case2 => cases h
  | case3 high low rest hi lo bytes hrest hlow hhigh ih =>
    obtain rfl := Option.some.inj h
    have hhigh := Text.isDigit_iff.2 hhigh
    have hlow := Text.isDigit_iff.2 hlow
    obtain ⟨hdiv, hmod⟩ := halves_ofNat hhigh.lt hlow.lt
    exact .cons (hdiv.symm ▸ hhigh) (hmod.symm ▸ hlow) (ih hrest)
  | case4 => cases h

theorem decode_of_spells {cs : List Char} {bs : List UInt8} (h : Spells cs bs) :
    decode cs = some bs := by
  induction h with
  | nil => rfl
  | @cons high low cs b bs hhigh hlow _ ih =>
    have hbyte : 16 * (b.toNat / 16) + b.toNat % 16 = b.toNat := Nat.div_add_mod _ _
    unfold decode
    rw [Text.isDigit_iff.1 hhigh, Text.isDigit_iff.1 hlow, ih]
    dsimp only
    rw [hbyte, UInt8.ofNat_toNat]

/-- There are two digits for each byte, and nothing else. -/
theorem Spells.digits {cs : List Char} {bs : List UInt8} (h : Spells cs bs) :
    cs.length = 2 * bs.length ∧ ∀ c ∈ cs, ∃ d, Text.IsDigit c d := by
  induction h with
  | nil => exact ⟨rfl, List.forall_mem_nil _⟩
  | cons hhigh hlow _ ih =>
    refine ⟨?_, ?_⟩
    · rw [List.length_cons, List.length_cons, List.length_cons, ih.1]
      omega
    · rw [List.forall_mem_cons, List.forall_mem_cons]
      exact ⟨⟨_, hhigh⟩, ⟨_, hlow⟩, ih.2⟩

/-- Whether digits stand behind a mark in a text. -/
def IsMarked (s : String) (digits : List Char) : Prop :=
  s.toList = '0' :: 'x' :: digits ∨ s.toList = '0' :: 'X' :: digits

theorem read?_eq_some_iff {s : String} {bs : List UInt8} :
    read? s = some bs ↔ ∃ digits, IsMarked s digits ∧ Spells digits bs := by
  unfold read?
  constructor
  · intro h
    split at h
    · next digits hs => exact ⟨digits, .inl hs, spells_of_decode h⟩
    · next digits hs => exact ⟨digits, .inr hs, spells_of_decode h⟩
    · cases h
  · rintro ⟨digits, hs | hs, hspells⟩
    · rw [hs]
      exact decode_of_spells hspells
    · rw [hs]
      exact decode_of_spells hspells

end Hex

namespace Json

/-! ### Arrays of numbers -/

/-- The array of the numbers that bytes are. -/
def ofBytes (bs : List UInt8) : Json :=
  .array (bs.map fun b => .number (.integer b.toNat))

theorem byte?_eq_some_iff {v : Json} {b : UInt8} :
    v.byte? = some b ↔ v = .number (.integer b.toNat) := by
  unfold byte?
  constructor
  · intro h
    obtain ⟨z, hz, h⟩ := Option.bind_eq_some_iff.1 h
    obtain ⟨hrange, h⟩ := Option.ite_none_right_eq_some.1 h
    obtain rfl := Option.some.inj h
    have hvalue : ((UInt8.ofNat z.toNat).toNat : Int) = z := by
      rw [UInt8.toNat_ofNat_of_lt' (show z.toNat < 256 by omega)]
      exact Int.toNat_of_nonneg hrange.1
    rw [hvalue]
    unfold integer? at hz
    split at hz
    · rw [Option.some.inj hz]
    · cases hz
  · rintro rfl
    have hlt := b.toNat_lt
    rw [integer?, Option.bind_some, if_pos (by omega), Int.toNat_natCast, UInt8.ofNat_toNat]

theorem byteList?_eq_some_iff {items : List Json} {bs : List UInt8} :
    byteList? items = some bs ↔ items = bs.map fun b => .number (.integer b.toNat) := by
  constructor
  · intro h
    fun_induction byteList? items generalizing bs with
    | case1 =>
      obtain rfl := Option.some.inj h
      rfl
    | case2 item rest b bs' hrest hb ih =>
      obtain rfl := Option.some.inj h
      rw [List.map_cons, ← byte?_eq_some_iff.1 hb, ← ih hrest]
    | case3 => cases h
  · rintro rfl
    induction bs with
    | nil => rfl
    | cons b bs ih =>
      rw [List.map_cons]
      unfold byteList?
      rw [byte?_eq_some_iff.2 rfl, ih]

end Json

/-! ### Types of bytes -/

/-- The bytes as an atom of the type of bytes of a width. -/
def Atom.ofBytes (width : Option Nat) (bs : List UInt8) : Atom :=
  match width with
  | none => .bytes bs
  | some _ => .fixedBytes bs

/-- Whether a type of bytes has as many as there are. -/
def Elementary.HasLength (width : Option Nat) (bs : List UInt8) : Prop :=
  ∀ n ∈ width, bs.length = n

instance {width : Option Nat} {bs : List UInt8} : Decidable (Elementary.HasLength width bs) :=
  inferInstanceAs (Decidable (∀ n ∈ width, bs.length = n))

theorem Elementary.hasLength_none {bs : List UInt8} : HasLength none bs :=
  nofun

theorem Elementary.hasLength_some {n : Nat} {bs : List UInt8} :
    HasLength (some n) bs ↔ bs.length = n := by
  simp [HasLength]

theorem Elementary.bind?_bytes_eq_some_iff {width : Option Nat} {v : Json} {a : Atom} :
    (bytes width).bind? v = some a ↔
      ∃ bs, v.bytes? = some bs ∧ HasLength width bs ∧ a = .ofBytes width bs := by
  cases width with
  | none =>
    show v.bytes?.map Atom.bytes = some a ↔ _
    rw [Option.map_eq_some_iff]
    simp only [hasLength_none, true_and, Atom.ofBytes, eq_comm (a := a)]
  | some n =>
    show (v.bytes?.filter fun bs => bs.length = n).map Atom.fixedBytes = some a ↔ _
    rw [Option.map_eq_some_iff]
    simp only [Option.filter_eq_some_iff, decide_eq_true_eq, and_assoc, hasLength_some,
      Atom.ofBytes, eq_comm (a := a)]

namespace Shape

/-- Bytes bind to a type that has as many. -/
theorem bind_bytes_of_read {width : Option Nat} {v : Json} {bs : List UInt8}
    (h : v.bytes? = some bs) :
    (elementary (.bytes width)).bind v =
      if Elementary.HasLength width bs then .ok (.atom (.ofBytes width bs))
      else .error ((elementary (.bytes width)).mismatch v) := by
  unfold bind
  split_ifs with hlength
  · rw [Elementary.bind?_bytes_eq_some_iff.2 ⟨bs, h, hlength, rfl⟩]
    rfl
  · have hnone : (Elementary.bytes width).bind? v = none := by
      rw [Option.eq_none_iff_forall_ne_some]
      intro a ha
      obtain ⟨bs', hbs', hlength', -⟩ := Elementary.bind?_bytes_eq_some_iff.1 ha
      obtain rfl := Option.some.inj (h.symm.trans hbs')
      exact hlength hlength'
    rw [hnone]
    rfl

/-- Nothing binds to a type of bytes but bytes. -/
theorem exists_read_of_bind_bytes {width : Option Nat} {v : Json} {a : Value}
    (h : (elementary (.bytes width)).bind v = .ok a) : ∃ bs, v.bytes? = some bs := by
  obtain ⟨b, hb, -⟩ := bind_elementary_eq_ok_iff.1 h
  obtain ⟨bs, hbs, -⟩ := Elementary.bind?_bytes_eq_some_iff.1 hb
  exact ⟨bs, hbs⟩

/-! ### Main statement -/

/-- An array of numbers and any hexadecimal spelling of the same bytes bind alike: to these bytes,
if the type has as many, or else to none. No string binds that is not made of a mark and an even
number of hexadecimal digits, and no array with anything else in it than integers from 0 to 255. -/
theorem bind_byte_spellings (width : Option Nat) :
    (∀ {bs : List UInt8} {text : String} {digits : List Char},
      Hex.IsMarked text digits → Hex.Spells digits bs →
      (elementary (.bytes width)).bind (.ofBytes bs) = (if Elementary.HasLength width bs
        then .ok (.atom (.ofBytes width bs))
        else .error ((elementary (.bytes width)).mismatch (.ofBytes bs))) ∧
      (elementary (.bytes width)).bind (.string text) = if Elementary.HasLength width bs
        then .ok (.atom (.ofBytes width bs))
        else .error ((elementary (.bytes width)).mismatch (.string text))) ∧
    (∀ {text : String} {a : Value}, (elementary (.bytes width)).bind (.string text) = .ok a →
      ∃ digits, Hex.IsMarked text digits ∧ digits.length % 2 = 0 ∧
        ∀ c ∈ digits, ∃ d, Text.IsDigit c d) ∧
    ∀ {items : List Json} {a : Value}, (elementary (.bytes width)).bind (.array items) = .ok a →
      ∀ item ∈ items, ∃ n : Nat, n < 256 ∧ item = .number (.integer n) := by
  refine ⟨?_, ?_, ?_⟩
  · intro bs text digits hmark hspells
    have harray : (Json.ofBytes bs).bytes? = some bs := Json.byteList?_eq_some_iff.2 rfl
    have hstring : (Json.string text).bytes? = some bs :=
      Hex.read?_eq_some_iff.2 ⟨digits, hmark, hspells⟩
    exact ⟨bind_bytes_of_read harray, bind_bytes_of_read hstring⟩
  · intro text a h
    obtain ⟨bs, hbs⟩ := exists_read_of_bind_bytes h
    obtain ⟨digits, hmark, hspells⟩ := Hex.read?_eq_some_iff.1 hbs
    obtain ⟨hlength, hdigits⟩ := hspells.digits
    exact ⟨digits, hmark, by omega, hdigits⟩
  · intro items a h item hitem
    obtain ⟨bs, hbs⟩ := exists_read_of_bind_bytes h
    obtain rfl := Json.byteList?_eq_some_iff.1 hbs
    obtain ⟨b, -, rfl⟩ := List.mem_map.1 hitem
    exact ⟨b.toNat, b.toNat_lt, rfl⟩

/-- Two bytes, with digits of both cases behind the large mark. -/
theorem bind_byte_spellings_of_cases :
    Hex.IsMarked "0XaB0f" ['a', 'B', '0', 'f'] ∧ Hex.Spells ['a', 'B', '0', 'f'] [0xab, 0x0f] ∧
      (elementary (.bytes (some 2))).bind (.ofBytes [0xab, 0x0f]) =
        .ok (.atom (.fixedBytes [0xab, 0x0f])) ∧
      (elementary (.bytes (some 2))).bind (.string "0XaB0f") =
        .ok (.atom (.fixedBytes [0xab, 0x0f])) := by
  have hmark : Hex.IsMarked "0XaB0f" ['a', 'B', '0', 'f'] := .inr (by decide)
  have hspells : Hex.Spells ['a', 'B', '0', 'f'] [0xab, 0x0f] :=
    .cons (by decide) (by decide) (.cons (by decide) (by decide) .nil)
  exact ⟨hmark, hspells, (bind_byte_spellings (some 2)).1 hmark hspells⟩

end Shape

end ContractAbi
