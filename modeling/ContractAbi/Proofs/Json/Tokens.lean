import ContractAbi.Json.Printer
import ContractAbi.Json.Token

/-!
# Tokens of written values

A written value is cut into the tokens of the value, whatever follows it. This does not hold of
numbers, which more digits would prolong; the interfaces that are written have none.
-/

namespace ContractAbi.Json

/-! ### The tokens of a value -/

mutual

/-- The tokens of a value. -/
def tokens : Json → List Token
  | .null => [.atom .null]
  | .bool b => [.atom (.bool b)]
  | .number n => [.atom (.number n)]
  | .string s => [.string s]
  | .array [] => [.openArray, .closeArray]
  | .array (item :: items) => .openArray :: (item.tokens ++ (moreItems items ++ [.closeArray]))
  | .object [] => [.openObject, .closeObject]
  | .object ((name, value) :: members) =>
    .openObject :: .string name :: .colon ::
      (value.tokens ++ (moreMembers members ++ [.closeObject]))

/-- The tokens of the items behind the first one. -/
def moreItems : List Json → List Token
  | [] => []
  | item :: items => .comma :: (item.tokens ++ moreItems items)

/-- The tokens of the members behind the first one. -/
def moreMembers : List (String × Json) → List Token
  | [] => []
  | (name, value) :: members =>
    .comma :: .string name :: .colon :: (value.tokens ++ moreMembers members)

end

/-- The tokens of the items of an array. -/
def itemTokens : List Json → List Token
  | [] => []
  | item :: items => item.tokens ++ moreItems items

/-- The tokens of the members of an object. -/
def memberTokens : List (String × Json) → List Token
  | [] => []
  | (name, value) :: members => .string name :: .colon :: (value.tokens ++ moreMembers members)

mutual

/-- Whether a value has no numbers in it. -/
def NumberFree : Json → Prop
  | .number _ => False
  | .array items => NumberFreeItems items
  | .object members => NumberFreeMembers members
  | .null | .bool _ | .string _ => True

/-- Whether items have no numbers in them. -/
def NumberFreeItems : List Json → Prop
  | [] => True
  | item :: items => item.NumberFree ∧ NumberFreeItems items

/-- Whether members have no numbers in them. -/
def NumberFreeMembers : List (String × Json) → Prop
  | [] => True
  | (_, value) :: members => value.NumberFree ∧ NumberFreeMembers members

end

/-! ### Pieces of text and their tokens -/

/-- Whether a text is cut into some tokens, whatever follows it. -/
def Tokenizes (cs : List Char) (ts : List Token) : Prop :=
  ∀ rest, tokens? (cs ++ rest) = (tokens? rest).map (ts ++ ·)

theorem Tokenizes.append {cs ds : List Char} {ts us : List Token} (hc : Tokenizes cs ts)
    (hd : Tokenizes ds us) : Tokenizes (cs ++ ds) (ts ++ us) := by
  intro rest
  rw [List.append_assoc, hc, hd, Option.map_map]
  congr 1
  funext vs
  simp

theorem tokens?_cons {c : Char} {cs rest : List Char} {t : Token} (hc : isSpace c = false)
    (h : scanToken c cs = some (t, rest)) : tokens? (c :: cs) = (tokens? rest).map (t :: ·) := by
  rw [tokens?, if_neg (by simp [hc])]
  split
  · next h' => rw [h] at h'; cases h'
  · next h' =>
    rw [h] at h'
    obtain ⟨rfl, rfl⟩ := Prod.mk.inj (Option.some.inj h')
    rfl

theorem tokenizes_space {c : Char} (hc : isSpace c) : Tokenizes [c] [] := by
  intro rest
  rw [List.singleton_append, tokens?, if_pos hc]
  cases tokens? rest <;> rfl

theorem tokenizes_mark {c : Char} {t : Token} (h : mark? c = some t) : Tokenizes [c] [t] := by
  intro rest
  have hc : isSpace c = false := by
    cases hc : isSpace c with
    | false => rfl
    | true =>
      simp only [isSpace, Bool.or_eq_true, decide_eq_true_eq] at hc
      rcases hc with ((rfl | rfl) | rfl) | rfl <;> cases h
  rw [List.singleton_append, tokens?_cons hc (by rw [scanToken, h])]
  rfl

theorem tokenizes_newLine (depth : Nat) : Tokenizes (newLine depth) [] := by
  have hspaces : ∀ n, Tokenizes (List.replicate n ' ') [] := by
    intro n
    induction n with
    | zero =>
      intro rest
      cases h : tokens? rest <;> simp [h]
    | succ n ih => exact (tokenizes_space (by decide)).append ih
  exact (tokenizes_space (by decide)).append (hspaces _)

/-! ### Strings -/

theorem codeUnit?_digits {n : Nat} (h : n < 0x20) :
    codeUnit? '0' '0' (Hex.digit (n / 16)) (Hex.digit (n % 16)) = some n := by
  revert n
  decide

/-- An escaped character is read as that character. -/
theorem scanString_escapedChars (c : Char) (cs : List Char) :
    scanString (escapedChars c ++ cs) = (scanString cs).map (Text.consLeft c) := by
  rw [escapedChars.eq_def]
  split
  · rfl
  · rfl
  · rfl
  · rfl
  · rfl
  · rfl
  · rfl
  · split
    · next hc =>
      show scanString ('\\' :: 'u' :: '0' :: '0' :: Hex.digit (c.toNat / 16) ::
        Hex.digit (c.toNat % 16) :: cs) = _
      -- a control character is no half of a pair, so its four digits are all there is to read
      have hlead : isLead c.toNat = false := by simp [isLead]; omega
      have htrail : isTrail c.toNat = false := by simp [isTrail]; omega
      rw [scanString]
      simp only [codeUnit?_digits hc, hlead, htrail, Char.ofNat_toNat]
      rfl
    · next hquote hslash _ _ _ _ _ hc =>
      rw [List.singleton_append, scanString.eq_5 c cs hquote (fun _ _ _ _ _ h => absurd h hslash)
        fun _ _ h => absurd h hslash, if_neg (not_or.2 ⟨hslash, hc⟩)]

theorem scanString_flatMap (cs rest : List Char) :
    scanString (cs.flatMap escapedChars ++ '"' :: rest) = some (cs, rest) := by
  induction cs with
  | nil => rfl
  | cons c cs ih =>
    rw [List.flatMap_cons, List.append_assoc, scanString_escapedChars, ih]
    rfl

theorem tokenizes_quotedChars (s : String) : Tokenizes (quotedChars s) [.string s] := by
  intro rest
  have hscan : scanToken '"' (s.toList.flatMap escapedChars ++ ('"' :: rest)) =
      some (.string s, rest) := by
    rw [scanToken]
    simp [mark?, scanString_flatMap]
  have htext : quotedChars s ++ rest = '"' :: (s.toList.flatMap escapedChars ++ ('"' :: rest)) := by
    simp [quotedChars]
  rw [htext, tokens?_cons (by decide) hscan]
  rfl

/-! ### Written values -/

theorem tokenizes_null : Tokenizes ['n', 'u', 'l', 'l'] [.atom .null] := by
  intro rest
  have hscan : scanToken 'n' ('u' :: 'l' :: 'l' :: rest) = some (.atom .null, rest) := rfl
  exact tokens?_cons (by decide) hscan

theorem tokenizes_boolChars (b : Bool) : Tokenizes (boolChars b) [.atom (.bool b)] := by
  intro rest
  cases b with
  | false =>
    have hscan : scanToken 'f' ('a' :: 'l' :: 's' :: 'e' :: rest) =
        some (.atom (.bool false), rest) := rfl
    exact tokens?_cons (by decide) hscan
  | true =>
    have hscan : scanToken 't' ('r' :: 'u' :: 'e' :: rest) =
        some (.atom (.bool true), rest) := rfl
    exact tokens?_cons (by decide) hscan

theorem tokenizes_member {depth : Nat} {name : String} {cs : List Char}
    {ts : List Token} (h : Tokenizes cs ts) :
    Tokenizes (newLine depth ++ quotedChars name ++ ':' :: ' ' :: cs)
      (.string name :: .colon :: ts) := by
  have hname := (tokenizes_newLine depth).append (tokenizes_quotedChars name)
  have hcolon : Tokenizes [':', ' '] [.colon] :=
    (tokenizes_mark (c := ':') rfl).append (tokenizes_space (by decide))
  simpa using (hname.append hcolon).append h

mutual

theorem tokenizes_prettyChars (depth : Nat) :
    ∀ {v : Json}, v.NumberFree → Tokenizes (prettyChars depth v) v.tokens
  | .null, _ => tokenizes_null
  | .bool b, _ => tokenizes_boolChars b
  | .string s, _ => tokenizes_quotedChars s
  | .array [], _ => (tokenizes_mark (c := '[') rfl).append (tokenizes_mark rfl)
  | .array (item :: items), h => by
    have hitems : Tokenizes (prettyItems (depth + 1) (item :: items))
        (itemTokens (item :: items)) :=
      tokenizes_prettyItems (depth + 1) h
    have hend := (tokenizes_newLine depth).append (tokenizes_mark (c := ']') rfl)
    simpa [prettyChars, tokens, itemTokens] using
      (tokenizes_mark (c := '[') rfl).append (hitems.append hend)
  | .object [], _ => (tokenizes_mark (c := '\x7b') rfl).append (tokenizes_mark rfl)
  | .object ((name, value) :: members), h => by
    have hmembers : Tokenizes (prettyMembers (depth + 1) ((name, value) :: members))
        (memberTokens ((name, value) :: members)) :=
      tokenizes_prettyMembers (depth + 1) h
    have hend := (tokenizes_newLine depth).append (tokenizes_mark (c := '\x7d') rfl)
    simpa [prettyChars, tokens, memberTokens] using
      (tokenizes_mark (c := '\x7b') rfl).append (hmembers.append hend)
termination_by structural v => v

theorem tokenizes_prettyItems (depth : Nat) : ∀ {items : List Json},
    NumberFreeItems items → Tokenizes (prettyItems depth items) (itemTokens items)
  | [], _ => fun rest => by cases h : tokens? rest <;> simp [prettyItems, itemTokens, h]
  | [item], h => by
    simpa [prettyItems, itemTokens, moreItems] using
      (tokenizes_newLine depth).append (tokenizes_prettyChars depth h.1)
  | item :: next :: rest, h => by
    have hitem := (tokenizes_newLine depth).append (tokenizes_prettyChars depth h.1)
    have hrest : Tokenizes (prettyItems depth (next :: rest)) (itemTokens (next :: rest)) :=
      tokenizes_prettyItems depth h.2
    simpa [prettyItems, itemTokens, moreItems] using
      hitem.append ((tokenizes_mark (c := ',') rfl).append hrest)
termination_by structural items => items

theorem tokenizes_prettyMembers (depth : Nat) : ∀ {members : Members},
    NumberFreeMembers members → Tokenizes (prettyMembers depth members) (memberTokens members)
  | [], _ => fun rest => by cases h : tokens? rest <;> simp [prettyMembers, memberTokens, h]
  | [(name, value)], h => by
    simpa [prettyMembers, memberTokens, moreMembers] using
      tokenizes_member (tokenizes_prettyChars depth h.1)
  | (name, value) :: next :: rest, h => by
    have hmember : Tokenizes
        (newLine depth ++ quotedChars name ++ ':' :: ' ' :: prettyChars depth value)
        (.string name :: .colon :: value.tokens) :=
      tokenizes_member (tokenizes_prettyChars depth h.1)
    have hrest : Tokenizes (prettyMembers depth (next :: rest)) (memberTokens (next :: rest)) :=
      tokenizes_prettyMembers depth h.2
    simpa [prettyMembers, memberTokens, moreMembers] using
      hmember.append ((tokenizes_mark (c := ',') rfl).append hrest)
termination_by structural members => members

end

theorem tokens?_pretty {v : Json} (h : v.NumberFree) : tokens? v.pretty.toList = some v.tokens := by
  have htext := tokenizes_prettyChars 0 h []
  have hempty : tokens? [] = some [] := by rw [tokens?]
  rw [pretty, String.toList_ofList]
  simpa [hempty] using htext

end ContractAbi.Json
