/-!
# Text

The operations on text that the declaration grammar rests on: dropping characters from both
ends, splitting at a separator, the words of a line, and cutting at the first occurrence of a
character.

Every operation scans a `List Char` and is lifted to `String` by `String.toList` and
`String.ofList`, so a statement about the text is a statement about its characters.
-/

namespace ContractAbi.Text

/-! ### Classes of characters -/

/-- Whether the code point of `c` is in one of some ranges, which include their ends. -/
def isWithin (ranges : List (Nat × Nat)) (c : Char) : Bool :=
  ranges.any fun (low, high) => low ≤ c.toNat && c.toNat ≤ high

/-! ### Beginnings -/

/-- What follows `start` at the beginning of `cs`, if `cs` begins with it. -/
def afterChars? : (start cs : List Char) → Option (List Char)
  | [], cs => some cs
  | _ :: _, [] => none
  | d :: ds, c :: cs => if d = c then afterChars? ds cs else none

theorem eq_append_of_afterChars? {start cs rest : List Char}
    (h : afterChars? start cs = some rest) : cs = start ++ rest := by
  fun_induction afterChars? start cs with
  | case1 => simpa using h
  | case2 => simp at h
  | case3 d ds cs ih => simp [ih h]
  | case4 => simp at h

theorem length_afterChars? {start cs rest : List Char} (h : afterChars? start cs = some rest) :
    rest.length ≤ cs.length := by
  simp [eq_append_of_afterChars? h]

/-- What follows `start` at the beginning of `s`, if `s` begins with it. -/
def after? (start s : String) : Option String :=
  (afterChars? start.toList s.toList).map String.ofList

/-! ### Dropping from both ends -/

/-- `cs` without the characters satisfying `p` at its two ends. -/
def stripChars (p : Char → Bool) (cs : List Char) : List Char :=
  ((cs.dropWhile p).reverse.dropWhile p).reverse

theorem length_stripChars (p : Char → Bool) (cs : List Char) :
    (stripChars p cs).length ≤ cs.length := by
  rw [stripChars, List.length_reverse]
  calc ((cs.dropWhile p).reverse.dropWhile p).length
      ≤ (cs.dropWhile p).reverse.length := (List.dropWhile_suffix p).length_le
    _ = (cs.dropWhile p).length := List.length_reverse
    _ ≤ cs.length := (List.dropWhile_suffix p).length_le

/-- `s` without the characters satisfying `p` at its two ends. -/
def strip (p : Char → Bool) (s : String) : String :=
  String.ofList (stripChars p s.toList)

/-- `s` without the characters of `charset` at its two ends. -/
def trimChars (charset s : String) : String :=
  strip (fun c => charset.toList.contains c) s

/-- `cs` without the spaces at its two ends. No other blank character counts. -/
def trimmed (cs : List Char) : List Char :=
  stripChars (· = ' ') cs

/-- `s` without the spaces at its two ends. -/
def trim (s : String) : String :=
  String.ofList (trimmed s.toList)

/-! ### Splitting -/

/-- Put `c` in front of the first piece. -/
def consFirst (c : Char) : List (List Char) → List (List Char)
  | [] => [[c]]
  | piece :: pieces => (c :: piece) :: pieces

/-- The pieces of a text between the occurrences of the separator `d :: ds`, looked for from the
left. There is one piece more than there are occurrences. -/
def pieces (d : Char) (ds : List Char) : List Char → List (List Char)
  | [] => [[]]
  | c :: cs =>
    if d = c then
      match _h : afterChars? ds cs with
      | some rest => [] :: pieces d ds rest
      | none => consFirst c (pieces d ds cs)
    else consFirst c (pieces d ds cs)
termination_by cs => cs.length
decreasing_by
  · have := length_afterChars? _h; simp; omega
  · simp
  · simp

/-- Split `s` at the occurrences of `sep`.

The empty separator splits `s` into its characters, and a separator that is the whole of `s`
leaves `s` in one piece. -/
def split (s sep : String) : List String :=
  match sep.toList with
  | [] => s.toList.map fun c => String.ofList [c]
  | d :: ds => if s = sep then [s] else (pieces d ds s.toList).map String.ofList

/-- The words of `s`: its maximal runs of characters other than the space. -/
def tokens (s : String) : List String :=
  (split (trim s) " ").filter fun piece => piece ≠ ""

/-- The lines of `s`, without their line feeds. -/
def lines (s : String) : List String :=
  (pieces '\n' [] s.toList).map String.ofList

/-! ### Cutting -/

/-- Put `c` in front of the first of two texts. -/
def consLeft (c : Char) (parts : List Char × List Char) : List Char × List Char :=
  (c :: parts.1, parts.2)

theorem map_consLeft_eq_some_iff {c : Char} {o : Option (List Char × List Char)}
    {l r : List Char} :
    o.map (consLeft c) = some (l, r) ↔ ∃ l', o = some (l', r) ∧ l = c :: l' := by
  cases o <;> grind [consLeft]

/-- What stands before and after the first `c`. -/
def cutChars (c : Char) : List Char → Option (List Char × List Char)
  | [] => none
  | d :: ds => if d = c then some ([], ds) else (cutChars c ds).map (consLeft d)

theorem cutChars_eq_some_iff {c : Char} {cs l r : List Char} :
    cutChars c cs = some (l, r) ↔ cs = l ++ c :: r ∧ c ∉ l := by
  induction cs generalizing l with
  | nil => simp [cutChars]
  | cons d ds ih =>
    rw [cutChars]
    split
    · next h => subst h; cases l <;> grind
    · next h =>
      rw [map_consLeft_eq_some_iff]
      cases l with
      | nil => simp [h]
      | cons e l => grind

theorem cutChars_eq_none_iff {c : Char} {cs : List Char} : cutChars c cs = none ↔ c ∉ cs := by
  induction cs with
  | nil => simp [cutChars]
  | cons d ds ih =>
    rw [cutChars]
    split
    · next h => simp [h]
    · next h => simp [ih, Ne.symm h]

/-- What stands before and after the first `c` in `s`. -/
def cut (c : Char) (s : String) : Option (String × String) :=
  (cutChars c s.toList).map fun parts => (String.ofList parts.1, String.ofList parts.2)

/-- Whether `c` occurs in `s`. -/
def has (c : Char) (s : String) : Bool :=
  s.toList.contains c

/-- `s` followed by spaces up to `width` characters, for columns of text. -/
def padRight (width : Nat) (s : String) : String :=
  s ++ String.ofList (List.replicate (width - s.length) ' ')

end ContractAbi.Text
