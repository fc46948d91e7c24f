import ContractAbi.Json.Reader
import ContractAbi.Proofs.Json.Tokens

/-!
# Reading what was written

The tokens of a value are read as the value again, with the members of its objects in the order of
their names. Main statement: `parse?_pretty`, for values that are not nested too deeply.
-/

namespace ContractAbi.Json

mutual

/-- How many arrays and objects are open at once in a value. -/
def depth : Json → Nat
  | .array items => depthOfItems items + 1
  | .object members => depthOfMembers members + 1
  | .null | .bool _ | .number _ | .string _ => 0

/-- The greatest depth of some items. -/
def depthOfItems : List Json → Nat
  | [] => 0
  | item :: items => max item.depth (depthOfItems items)

/-- The greatest depth of the values of some members. -/
def depthOfMembers : List (String × Json) → Nat
  | [] => 0
  | (_, value) :: members => max value.depth (depthOfMembers members)

end

mutual

/-- The value with the members of all objects in the order of their names. -/
def normal : Json → Json
  | .array items => .array (normalItems items)
  | .object members => .object (Members.sorted (normalMembers members))
  | .null => .null
  | .bool b => .bool b
  | .number n => .number n
  | .string s => .string s

/-- Items, each of them normal. -/
def normalItems : List Json → List Json
  | [] => []
  | item :: items => item.normal :: normalItems items

/-- Members in the same order, with normal values. -/
def normalMembers : List (String × Json) → List (String × Json)
  | [] => []
  | (name, value) :: members => (name, value.normal) :: normalMembers members

end

/-! ### Reading tokens -/

/-- No value begins with a closing bracket. -/
theorem tokens_ne_closeArray (v : Json) (ts us : List Token) :
    v.tokens ++ ts ≠ .closeArray :: us := by
  cases v with
  | array items => cases items <;> simp [tokens]
  | object members => cases members <;> simp [tokens]
  | _ => simp [tokens]

/-- Where a string with a colon behind it begins, what follows the value begins with the colon. -/
theorem eq_colon_of_tokens {v : Json} {ts us : List Token} {name : String}
    (h : v.tokens ++ ts = .string name :: .colon :: us) : ts = .colon :: us := by
  cases v with
  | array items => cases items <;> simp [tokens] at h
  | object members => cases members <;> simp [tokens] at h
  | string s => simpa [tokens] using (List.cons.inj h).2
  | _ => simp [tokens] at h

theorem readValue_openArray {stack : List Frame} {ts : List Token}
    (hts : ∀ us, ts ≠ .closeArray :: us) (h : stack.length < maxDepth) :
    readValue stack (.openArray :: ts) = readValue (.array [] :: stack) ts := by
  rw [readValue, if_pos h]
  exact hts

theorem resume_comma_item {stack : List Frame} {items : List Json} {value : Json} {ts : List Token}
    (hts : ∀ name us, ts ≠ .string name :: .colon :: us) :
    resume (.array items :: stack) value (.comma :: ts) =
      readValue (.array (value :: items) :: stack) ts := by
  rw [resume]
  exact hts

/-- No colon follows the value of an item. -/
theorem moreItems_ne_colon (items : List Json) (ts us : List Token) :
    moreItems items ++ .closeArray :: ts ≠ .colon :: us := by
  cases items <;> simp [moreItems]

mutual

/-- The tokens of a value are read as the value, and then the stack awaits what follows. -/
theorem readValue_tokens : ∀ {v : Json} {stack : List Frame} {rest : List Token},
    stack.length + v.depth ≤ maxDepth →
      readValue stack (v.tokens ++ rest) = resume stack v.normal rest
  | .null, _, _, _ => rfl
  | .bool _, _, _, _ => rfl
  | .number _, _, _, _ => rfl
  | .string _, _, _, _ => rfl
  | .array [], stack, rest, h => by
    have hlen : stack.length < maxDepth := by rw [depth] at h; omega
    exact if_pos hlen
  | .array (item :: items), stack, rest, h => by
    rw [depth, depthOfItems] at h
    -- the frame of the array takes the place on the stack that its depth has reserved
    have hlen : stack.length < maxDepth := by omega
    have hitem : (Frame.array [] :: stack).length + item.depth ≤ maxDepth := by
      rw [List.length_cons]
      omega
    have htext : (Json.array (item :: items)).tokens ++ rest =
        .openArray :: (item.tokens ++ (moreItems items ++ .closeArray :: rest)) := by
      simp [tokens]
    rw [htext, readValue_openArray (tokens_ne_closeArray item _) hlen, readValue_tokens hitem,
      resume_moreItems (by omega)]
    rfl
  | .object [], stack, rest, h => by
    have hlen : stack.length < maxDepth := by rw [depth] at h; omega
    exact if_pos hlen
  | .object ((name, value) :: members), stack, rest, h => by
    rw [depth, depthOfMembers] at h
    have hlen : stack.length < maxDepth := by omega
    have hvalue : (Frame.object [] name :: stack).length + value.depth ≤ maxDepth := by
      rw [List.length_cons]
      omega
    have htext : (Json.object ((name, value) :: members)).tokens ++ rest =
        .openObject :: .string name :: .colon ::
          (value.tokens ++ (moreMembers members ++ .closeObject :: rest)) := by
      simp [tokens]
    rw [htext, readValue, if_pos hlen, readValue_tokens hvalue, resume_moreMembers (by omega)]
    rfl
termination_by structural v => v

/-- After an item, the tokens of the others are read and the array is closed. -/
theorem resume_moreItems : ∀ {items before : List Json} {value : Json} {stack : List Frame}
    {rest : List Token}, stack.length + 1 + depthOfItems items ≤ maxDepth →
    resume (.array before :: stack) value (moreItems items ++ .closeArray :: rest) =
      resume stack (.array ((value :: before).reverse ++ normalItems items)) rest
  | [], before, value, stack, rest, _ => by
    rw [moreItems, List.nil_append, resume, normalItems, List.append_nil]
  | item :: items, before, value, stack, rest, h => by
    rw [depthOfItems] at h
    have hitem : (Frame.array (value :: before) :: stack).length + item.depth ≤ maxDepth := by
      rw [List.length_cons]
      omega
    -- a string behind the comma is an item and not the name of a member
    have hcolon : ∀ name us, item.tokens ++ (moreItems items ++ .closeArray :: rest) ≠
        .string name :: .colon :: us := by
      intro name us e
      exact moreItems_ne_colon items rest us (eq_colon_of_tokens e)
    rw [moreItems, List.cons_append, List.append_assoc, resume_comma_item hcolon,
      readValue_tokens hitem, resume_moreItems (by omega), normalItems]
    simp
termination_by structural items => items

/-- After the value of a member, the tokens of the others are read and the object is closed. -/
theorem resume_moreMembers : ∀ {members before : Members} {name : String} {value : Json}
    {stack : List Frame} {rest : List Token}, stack.length + 1 + depthOfMembers members ≤ maxDepth →
    resume (.object before name :: stack) value (moreMembers members ++ .closeObject :: rest) =
      resume stack (.object ((normalMembers members).foldl
        (fun (sorted : Members) member => sorted.insert member.1 member.2)
        (before.insert name value))) rest
  | [], before, name, value, stack, rest, _ => by
    rw [moreMembers, List.nil_append, resume, normalMembers, List.foldl_nil]
  | (next, v) :: members, before, name, value, stack, rest, h => by
    rw [depthOfMembers] at h
    have hvalue : (Frame.object (before.insert name value) next :: stack).length + v.depth ≤
        maxDepth := by
      rw [List.length_cons]
      omega
    rw [moreMembers, List.cons_append, List.cons_append, List.cons_append, List.append_assoc,
      resume, readValue_tokens hvalue, resume_moreMembers (by omega), normalMembers,
      List.foldl_cons]
termination_by structural members => members

end

/-! ### Main statement -/

/-- A written value is read as the value with its members in the order of their names. -/
theorem parse?_pretty {v : Json} (h : v.NumberFree) (hdepth : v.depth ≤ maxDepth) :
    parse? v.pretty = some v.normal := by
  have hread := @readValue_tokens v [] [] (by simpa using hdepth)
  rw [parse?, tokens?_pretty h]
  simpa [resume] using hread

end ContractAbi.Json
