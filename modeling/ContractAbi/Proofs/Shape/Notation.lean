import Mathlib.Data.List.TakeWhile
import ContractAbi.Proofs.Text.Basic
import ContractAbi.Proofs.Text.Numeral
import ContractAbi.Shape.Resolve

/-!
# The notation of types

The readers of array suffixes and of elementary types accept exactly what is written for
well-formed ones:

    Suffix.split type = .ok (base, xs) ↔ base has no bracket, xs are well formed, type = base ++ xs
    Elementary.ofName name = .ok kind  ↔ kind is well formed, name is one of its names
-/

namespace ContractAbi

/-! ### Array suffixes -/

namespace Suffix

/-- A suffix whose length the notation of types can express. -/
def WellFormed : Suffix → Prop
  | dynamic => True
  | fixed n => 1 ≤ n ∧ n < 2 ^ 64

/-- What stands between the brackets. -/
def size : Suffix → List Char
  | dynamic => []
  | fixed length => Decimal.digits length

/-- The characters of suffixes one after the other. -/
def chars (xs : List Suffix) : List Char :=
  xs.flatMap fun x => '[' :: (x.size ++ [']'])

theorem ofSize?_eq_some_iff {cs : List Char} {x : Suffix} :
    ofSize? cs = some x ↔ x.WellFormed ∧ cs = x.size := by
  rw [ofSize?]
  constructor
  · intro h
    split at h
    · next hc =>
      obtain rfl := Option.some.inj h
      exact ⟨trivial, hc⟩
    · obtain ⟨n, hn, rfl⟩ := Option.map_eq_some_iff.1 h
      exact Decimal.positive?_eq_some_iff.1 hn
  · rintro ⟨hx, rfl⟩
    cases x with
    | dynamic => rfl
    | fixed n =>
      have := Decimal.positive?_eq_some_iff.2 ⟨hx, rfl⟩
      simp [size, Decimal.digits_ne_nil, this]

theorem not_mem_size {c : Char} (h : c.isDigit = false) (x : Suffix) : c ∉ x.size := by
  cases x with
  | dynamic => simp [size]
  | fixed n => exact Decimal.not_mem_digits h

/-- The reader of suffixes accepts what is written for well-formed ones and nothing else. -/
theorem listOf?_eq_some_iff {cs : List Char} {xs : List Suffix} :
    listOf? cs = some xs ↔ (∀ x ∈ xs, x.WellFormed) ∧ cs = chars xs := by
  constructor
  · intro h
    fun_induction listOf? cs generalizing xs with
    | case1 =>
      obtain rfl := Option.some.inj h
      simp [chars]
    | case2 => simp at h
    | case3 => simp at h
    | case4 cs size rest hcut x hx ih =>
      obtain ⟨ys, hys, rfl⟩ := Option.map_eq_some_iff.1 h
      obtain ⟨hw, rfl⟩ := ih hys
      obtain ⟨hxw, rfl⟩ := ofSize?_eq_some_iff.1 hx
      have := (Text.cutChars_eq_some_iff.1 hcut).1
      refine ⟨by simpa using ⟨hxw, hw⟩, ?_⟩
      simp [chars, this]
    | case5 => simp at h
  · rintro ⟨hw, rfl⟩
    induction xs with
    | nil => simp [chars, listOf?]
    | cons x xs ih =>
      have ih := ih fun y hy => hw y (by simp [hy])
      have hcut : Text.cutChars ']' (x.size ++ ']' :: chars xs) = some (x.size, chars xs) :=
        Text.cutChars_eq_some_iff.2 ⟨rfl, not_mem_size (by decide) x⟩
      have hx := ofSize?_eq_some_iff.2 ⟨hw x (by simp), rfl⟩
      have e : chars (x :: xs) = '[' :: (x.size ++ ']' :: chars xs) := by simp [chars]
      rw [e, listOf?, if_pos rfl]
      split
      · next h => simp [hcut] at h
      · next size rest h =>
        obtain ⟨rfl, rfl⟩ := Prod.mk.inj (Option.some.inj (hcut.symm.trans h))
        simp [hx, ih]

/-- Whether a text has no bracket, as the base of a type. -/
def IsBase (base : String) : Prop :=
  ∀ c ∈ base.toList, isBracket c = false

theorem split_eq_ok_iff {type base : String} {xs : List Suffix} :
    split type = .ok (base, xs) ↔
      IsBase base ∧ (∀ x ∈ xs, x.WellFormed) ∧ type.toList = base.toList ++ chars xs := by
  rw [split]
  constructor
  · intro h
    split at h
    · next ys hys =>
      obtain ⟨rfl, rfl⟩ := Prod.mk.inj (Except.ok.inj h)
      obtain ⟨hw, e⟩ := listOf?_eq_some_iff.1 hys
      refine ⟨?_, hw, ?_⟩
      · intro c hc
        rw [String.toList_ofList] at hc
        simpa using List.mem_takeWhile_imp hc
      · rw [String.toList_ofList, ← e, List.takeWhile_append_dropWhile]
    · simp at h
  · rintro ⟨hb, hw, e⟩
    -- the base ends where the first suffix begins, since that begins with a bracket
    have hnot : ∀ c ∈ base.toList, (!isBracket c) = true := by
      intro c hc
      simp [hb c hc]
    have htake : type.toList.takeWhile (fun c => !isBracket c) = base.toList := by
      rw [e, List.takeWhile_append_of_pos hnot]
      cases xs <;> simp [chars, isBracket]
    have hdrop : type.toList.dropWhile (fun c => !isBracket c) = chars xs := by
      rw [e, List.dropWhile_append_of_pos hnot]
      cases xs <;> simp [chars, isBracket]
    simp only [htake, hdrop, listOf?_eq_some_iff.2 ⟨hw, rfl⟩, String.ofList_toList]

end Suffix

/-! ### Elementary types -/

namespace Elementary

/-- A kind whose width the notation of types can express. -/
def WellFormed : Elementary → Prop
  | bytes (some n) => 1 ≤ n ∧ n ≤ 32
  | integer _ bits => 8 ≤ bits ∧ bits ≤ 256 ∧ bits % 8 = 0
  | _ => True

/-- The name without a width that an integer of the full width has besides. -/
def shortName? : Elementary → Option String
  | integer signed bits => if bits = 256 then some (if signed then "int" else "uint") else none
  | _ => none

theorem bits?_eq_some_iff {ds : List Char} {n : Nat} :
    bits? ds = some n ↔
      (8 ≤ n ∧ n ≤ 256 ∧ n % 8 = 0) ∧ (ds = Decimal.digits n ∨ (ds = [] ∧ n = 256)) := by
  rw [bits?]
  constructor
  · intro h
    split at h
    · next hds =>
      obtain rfl := Option.some.inj h
      exact ⟨by decide, .inr ⟨hds, rfl⟩⟩
    · obtain ⟨hn, hb⟩ := Option.filter_eq_some_iff.1 h
      exact ⟨by simpa [and_assoc] using hb, .inl (Decimal.positive?_eq_some_iff.1 hn).2⟩
  · rintro ⟨hb, rfl | ⟨rfl, rfl⟩⟩
    · have hn := Decimal.positive?_eq_some_iff.2 ⟨(by omega : 1 ≤ n ∧ n < 2 ^ 64), rfl⟩
      rw [if_neg (Decimal.digits_ne_nil n), hn, Option.filter_some,
        if_pos (by simpa [and_assoc] using hb)]
    · rfl

theorem width?_eq_some_iff {ds : List Char} {n : Nat} :
    width? ds = some n ↔ (1 ≤ n ∧ n ≤ 32) ∧ ds = Decimal.digits n := by
  rw [width?, Option.filter_eq_some_iff, Decimal.positive?_eq_some_iff]
  constructor
  · rintro ⟨⟨h1, rfl⟩, h2⟩
    exact ⟨⟨h1.1, by simpa using h2⟩, rfl⟩
  · rintro ⟨h1, rfl⟩
    exact ⟨⟨by omega, rfl⟩, by simpa using h1.2⟩

theorem sized?_bytes (rest : String) :
    sized? ("bytes" ++ rest) = (width? rest.toList).map fun n => .bytes (some n) := by
  rw [sized?, Text.after?_eq_some_iff.2 rfl]

theorem sized?_uint (rest : String) :
    sized? ("uint" ++ rest) = (bits? rest.toList).map (.integer false) := by
  have h : Text.after? "bytes" ("uint" ++ rest) = none := by
    simp [Text.after?, Text.afterChars?]
  rw [sized?, h, Text.after?_eq_some_iff.2 rfl]

theorem sized?_int (rest : String) :
    sized? ("int" ++ rest) = (bits? rest.toList).map (.integer true) := by
  have h : Text.after? "bytes" ("int" ++ rest) = none := by
    simp [Text.after?, Text.afterChars?]
  have h' : Text.after? "uint" ("int" ++ rest) = none := by
    simp [Text.after?, Text.afterChars?]
  rw [sized?, h, h', Text.after?_eq_some_iff.2 rfl, Option.bind_some]

theorem sized?_integer (signed : Bool) (rest : String) :
    sized? ((if signed then "int" else "uint") ++ rest) =
      (bits? rest.toList).map (.integer signed) := by
  cases signed with
  | true => exact sized?_int rest
  | false => exact sized?_uint rest

theorem display_integer (signed : Bool) (bits : Nat) :
    (integer signed bits).display = (if signed then "int" else "uint") ++ Decimal.text bits := by
  cases signed <;> rfl

theorem integer_of_bits? {signed : Bool} {rest : String} {n : Nat}
    (h : bits? rest.toList = some n) :
    (integer signed n).WellFormed ∧
      ((if signed then "int" else "uint") ++ rest = (integer signed n).display ∨
        (integer signed n).shortName? = some ((if signed then "int" else "uint") ++ rest)) := by
  obtain ⟨hw, hr | ⟨hr, rfl⟩⟩ := bits?_eq_some_iff.1 h
  · refine ⟨hw, .inl ?_⟩
    rw [display_integer, Decimal.text, ← hr, String.ofList_toList]
  · obtain rfl : rest = "" := by simpa using hr
    refine ⟨hw, .inr ?_⟩
    simp [shortName?]

theorem of_sized? {name : String} {k : Elementary} (h : sized? name = some k) :
    k.WellFormed ∧ (name = k.display ∨ k.shortName? = some name) := by
  rw [sized?] at h
  split at h
  · next rest hrest =>
    obtain rfl := Text.after?_eq_some_iff.1 hrest
    obtain ⟨n, hn, rfl⟩ := Option.map_eq_some_iff.1 h
    obtain ⟨hw, hr⟩ := width?_eq_some_iff.1 hn
    refine ⟨hw, .inl ?_⟩
    rw [display, Decimal.text, ← hr, String.ofList_toList]
  · split at h
    · next rest hrest =>
      obtain rfl := Text.after?_eq_some_iff.1 hrest
      obtain ⟨n, hn, rfl⟩ := Option.map_eq_some_iff.1 h
      exact integer_of_bits? hn
    · obtain ⟨rest, hrest, hk⟩ := Option.bind_eq_some_iff.1 h
      obtain rfl := Text.after?_eq_some_iff.1 hrest
      obtain ⟨n, hn, rfl⟩ := Option.map_eq_some_iff.1 hk
      exact integer_of_bits? hn

theorem ofName_of_sized? {name : String} {k : Elementary} (h : sized? name = some k) :
    ofName name = .ok k := by
  -- the names that are looked for first have no width, so this is none of them
  have hne : ∀ c ∈ ["address", "bool", "string", "bytes", "function", "tuple"], name ≠ c := by
    rintro c hc rfl
    have hnone : sized? name = none := by
      simp only [List.mem_cons, List.not_mem_nil, or_false] at hc
      rcases hc with rfl | rfl | rfl | rfl | rfl | rfl <;> rfl
    cases hnone.symm.trans h
  simp only [List.forall_mem_cons] at hne
  obtain ⟨h1, h2, h3, h4, h5, h6, -⟩ := hne
  rw [ofName, if_neg h1, if_neg h2, if_neg h3, if_neg h4, if_neg h5, if_neg h6, h]

theorem ofName_eq_ok_iff {name : String} {k : Elementary} :
    ofName name = .ok k ↔ k.WellFormed ∧ (name = k.display ∨ k.shortName? = some name) := by
  constructor
  · intro h
    rw [ofName] at h
    split at h
    · next hn => cases h; exact ⟨trivial, .inl hn⟩
    split at h
    · next hn => cases h; exact ⟨trivial, .inl hn⟩
    split at h
    · next hn => cases h; exact ⟨trivial, .inl hn⟩
    split at h
    · next hn => cases h; exact ⟨trivial, .inl hn⟩
    split at h
    · next hn => cases h; exact ⟨trivial, .inl hn⟩
    split at h
    · cases h
    split at h
    · next hs => cases h; exact of_sized? hs
    · cases h
  · rintro ⟨hw, rfl | hs⟩
    · cases k with
      | address | bool | string | function => rfl
      | bytes width =>
        cases width with
        | none => rfl
        | some n =>
          apply ofName_of_sized?
          rw [display, sized?_bytes, Decimal.text, String.toList_ofList,
            width?_eq_some_iff.2 ⟨hw, rfl⟩]
          rfl
      | integer signed bits =>
        apply ofName_of_sized?
        rw [display_integer, sized?_integer, Decimal.text, String.toList_ofList,
          bits?_eq_some_iff.2 ⟨hw, .inl rfl⟩]
        rfl
    · cases k with
      | integer signed bits =>
        simp only [shortName?] at hs
        split at hs
        · next hb =>
          obtain rfl := hb
          obtain rfl := Option.some.inj hs
          apply ofName_of_sized?
          cases signed <;> rfl
        · cases hs
      | _ => cases hs

end Elementary

end ContractAbi
