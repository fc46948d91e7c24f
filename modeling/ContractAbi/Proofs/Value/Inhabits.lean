import ContractAbi.Proofs.Json.Members
import ContractAbi.Proofs.Shape.WellFormed
import ContractAbi.Proofs.Value.Integer

/-!
# Values of a shape

`a.Inhabits s` says that the value `a` is one of the values of the shape `s`. Binding gives such
values only, and each of them is what its own JSON form binds to:

    s.bind v = .ok a → a.Inhabits s
    a.Inhabits s     → s.bind a.toJson = .ok a

The second needs `s` to be well formed: the members of an object are found by their names, so two
fields of one name could not be told apart.
-/

namespace ContractAbi

/-- The values of an elementary kind. An integer is told with the width of its type. -/
inductive Atom.Inhabits : Atom → Elementary → Prop
  | address {account} : Inhabits (.address account) .address
  | bool {b} : Inhabits (.bool b) .bool
  | string {s} : Inhabits (.string s) .string
  | bytes {bs} : Inhabits (.bytes bs) (.bytes none)
  | fixedBytes {bs n} : bs.length = n → Inhabits (.fixedBytes bs) (.bytes (some n))
  | uint {bits n} : n < 2 ^ bits → Inhabits (.uint bits n) (.integer false bits)
  | int {bits z} : -2 ^ (bits - 1) ≤ z → z < 2 ^ (bits - 1) →
      Inhabits (.int bits z) (.integer true bits)
  | function {account selector} : Inhabits (.function account selector) .function

namespace Value

mutual

/-- The values of a shape. -/
inductive Inhabits : Value → Shape → Prop
  | atom {a kind} : a.Inhabits kind → Inhabits (.atom a) (.elementary kind)
  | fixedArray {items element length} : items.length = length →
      (∀ item ∈ items, Inhabits item element) → Inhabits (.array items) (.fixedArray element length)
  | dynamicArray {items element} :
      (∀ item ∈ items, Inhabits item element) → Inhabits (.array items) (.dynamicArray element)
  | struct {vs fields} : InhabitFields vs fields → Inhabits (.struct vs) (.struct fields)

/-- The values of the fields of a tuple: the same names in the same order, and values of the shapes
of the fields. -/
inductive InhabitFields : List (String × Value) → Fields → Prop
  | nil : InhabitFields [] []
  | cons {name v s vs fields} : Inhabits v s → InhabitFields vs fields →
      InhabitFields ((name, v) :: vs) ((name, s) :: fields)

end

end Value

/-! ### Binding gives values of the shape -/

namespace Atom

theorem inhabits_of_ofInteger? {signed : Bool} {bits : Nat} {m : SignedMagnitude} {a : Atom}
    (h : ofInteger? signed bits m = some a) : a.Inhabits (.integer signed bits) := by
  cases signed with
  | true =>
    rw [ofInteger?_signed_eq] at h
    split at h
    · next hrange =>
      obtain rfl := Option.some.inj h
      obtain ⟨hlow, hhigh⟩ := m.word_mem_range hrange
      exact .int hlow hhigh
    · cases h
  | false =>
    rw [ofInteger?_unsigned] at h
    split at h
    · next hrange =>
      obtain rfl := Option.some.inj h
      refine .uint ?_
      have hlt : (m.value.toNat : Int) < (2 ^ bits : Nat) := by
        rw [Int.toNat_of_nonneg hrange.1]
        exact_mod_cast hrange.2
      exact_mod_cast hlt
    · cases h

end Atom

theorem Elementary.inhabits_of_bind? {kind : Elementary} {v : Json} {a : Atom}
    (h : kind.bind? v = some a) : a.Inhabits kind := by
  cases kind with
  | address =>
    obtain ⟨account, -, rfl⟩ := Option.map_eq_some_iff.1 h
    exact .address
  | bool =>
    cases v with
    | bool b =>
      obtain rfl := Option.some.inj h
      exact .bool
    | _ => cases h
  | string =>
    obtain ⟨s, -, rfl⟩ := Option.map_eq_some_iff.1 h
    exact .string
  | bytes width =>
    cases width with
    | none =>
      obtain ⟨bs, -, rfl⟩ := Option.map_eq_some_iff.1 h
      exact .bytes
    | some n =>
      obtain ⟨bs, hbs, rfl⟩ := Option.map_eq_some_iff.1 h
      exact .fixedBytes (by simpa using (Option.filter_eq_some_iff.1 hbs).2)
  | integer signed bits =>
    obtain ⟨z, -, hz⟩ := Option.bind_eq_some_iff.1 h
    exact Atom.inhabits_of_ofInteger? hz
  | function =>
    obtain ⟨bs, -, hbs⟩ := Option.bind_eq_some_iff.1 h
    split at hbs
    · obtain rfl := Option.some.inj hbs
      exact .function
    · cases hbs

namespace Shape

/-- The elements that an array binds to are as many values of the shape of its elements. -/
theorem inhabits_of_mapM_bind {element : Shape} {items : List Json} {vs : List Value}
    (hbind : ∀ v a, element.bind v = .ok a → a.Inhabits element)
    (h : items.mapM element.bind = .ok vs) :
    vs.length = items.length ∧ ∀ item ∈ vs, item.Inhabits element := by
  induction Except.mapM_eq_ok_iff.1 h with
  | nil => simp
  | cons hx hxs ih =>
    have ih := ih (Except.mapM_eq_ok_iff.2 hxs)
    refine ⟨by simp [ih.1], ?_⟩
    intro a ha
    rcases List.mem_cons.1 ha with rfl | ha
    · exact hbind _ _ hx
    · exact ih.2 a ha

mutual

theorem inhabits_of_bind : ∀ {s : Shape} {v : Json} {a : Value}, s.bind v = .ok a → a.Inhabits s
  | elementary kind, v, a, h => by
    obtain ⟨b, hb, rfl⟩ := bind_elementary_eq_ok_iff.1 h
    exact .atom (Elementary.inhabits_of_bind? hb)
  | fixedArray element length, v, a, h => by
    rw [bind.eq_def] at h
    dsimp only at h
    split at h
    · next items =>
      split at h
      · exact absurd h Except.throw_bind_ne_ok
      · next hlen =>
        obtain ⟨vs, hvs, h⟩ := Except.bind_eq_ok_iff.1 h
        obtain rfl := Except.pure_eq_ok_iff.1 h
        obtain ⟨hl, hall⟩ := inhabits_of_mapM_bind (fun _ _ => inhabits_of_bind) hvs
        exact .fixedArray (by omega) hall
    · exact absurd h Except.throw_ne_ok
  | dynamicArray element, v, a, h => by
    rw [bind.eq_def] at h
    dsimp only at h
    split at h
    · next items =>
      obtain ⟨vs, hvs, h⟩ := Except.bind_eq_ok_iff.1 h
      obtain rfl := Except.pure_eq_ok_iff.1 h
      exact .dynamicArray (inhabits_of_mapM_bind (fun _ _ => inhabits_of_bind) hvs).2
    · exact absurd h Except.throw_ne_ok
  | struct fields, v, a, h => by
    rw [bind.eq_def] at h
    dsimp only at h
    split at h
    · next members =>
      split at h
      · exact absurd h Except.throw_bind_ne_ok
      · obtain ⟨vs, hvs, h⟩ := Except.bind_eq_ok_iff.1 h
        obtain rfl := Except.pure_eq_ok_iff.1 h
        exact .struct (inhabitFields_of_bindMembers hvs)
    · next items =>
      split at h
      · exact absurd h Except.throw_bind_ne_ok
      · next hlen =>
        obtain ⟨vs, hvs, h⟩ := Except.bind_eq_ok_iff.1 h
        obtain rfl := Except.pure_eq_ok_iff.1 h
        exact .struct (inhabitFields_of_bindPositions (by omega) hvs)
    · exact absurd h Except.throw_ne_ok
termination_by structural s => s

theorem inhabitFields_of_bindMembers : ∀ {fields : Fields} {missing : AbiError}
    {members : Json.Members} {vs : List (String × Value)},
    bindMembers missing members fields = .ok vs → Value.InhabitFields vs fields
  | [], _, _, vs, h => by
    obtain rfl := Except.pure_eq_ok_iff.1 h
    exact .nil
  | (name, s) :: rest, missing, members, vs, h => by
    rw [bindMembers] at h
    split at h
    · exact absurd h Except.throw_ne_ok
    · obtain ⟨v, hv, h⟩ := Except.bind_eq_ok_iff.1 h
      obtain ⟨vs', hvs, h⟩ := Except.bind_eq_ok_iff.1 h
      obtain rfl := Except.pure_eq_ok_iff.1 h
      exact .cons (inhabits_of_bind hv) (inhabitFields_of_bindMembers hvs)
termination_by structural fields => fields

theorem inhabitFields_of_bindPositions : ∀ {fields : Fields} {items : List Json}
    {vs : List (String × Value)}, items.length = fields.length →
    bindPositions items fields = .ok vs → Value.InhabitFields vs fields
  | [], items, vs, _, h => by
    rw [bindPositions] at h
    · obtain rfl := Except.pure_eq_ok_iff.1 h
      exact .nil
    · nofun
  | (name, s) :: rest, [], vs, hlen, h => by simp at hlen
  | (name, s) :: rest, item :: items, vs, hlen, h => by
    rw [bindPositions] at h
    obtain ⟨v, hv, h⟩ := Except.bind_eq_ok_iff.1 h
    obtain ⟨vs', hvs, h⟩ := Except.bind_eq_ok_iff.1 h
    obtain rfl := Except.pure_eq_ok_iff.1 h
    exact .cons (inhabits_of_bind hv) (inhabitFields_of_bindPositions (by simpa using hlen) hvs)
termination_by structural fields => fields

end

end Shape

/-! ### The JSON form binds to the value -/

namespace Json

theorem denotesInteger_text (n : Nat) : DenotesInteger (.string (Decimal.text n)) n :=
  .numeral (magnitude_digits n)

theorem denotesInteger_signedText (z : Int) :
    DenotesInteger (.string (Decimal.signedText z)) z := by
  rw [Decimal.signedText]
  split
  · next hz =>
    have htext : "-" ++ Decimal.text z.natAbs =
        String.ofList ('-' :: Decimal.digits z.natAbs) := by
      rw [Decimal.text, String.ofList_cons]
      rfl
    have hvalue : -(z.natAbs : Int) = z := by omega
    have hdenotes := DenotesInteger.negative (magnitude_digits z.natAbs)
    rwa [hvalue, ← htext] at hdenotes
  · next hz =>
    have hvalue : (z.natAbs : Int) = z := by omega
    have hdenotes := denotesInteger_text z.natAbs
    rwa [hvalue] at hdenotes

end Json

theorem Bytes.ofList?_val {n : Nat} (bs : Bytes n) : Bytes.ofList? n bs.val = some bs := by
  rw [Bytes.ofList?, dif_pos bs.property]

theorem Elementary.bind?_toJson {kind : Elementary} {a : Atom} (hk : kind.WellFormed)
    (h : a.Inhabits kind) : kind.bind? a.toJson = some a := by
  cases h with
  | @address account =>
    simp [bind?, Atom.toJson, Json.string?, Hex.read?_text, Bytes.ofList?_val]
  | bool => rfl
  | string => rfl
  | bytes => simp [bind?, Atom.toJson, Json.bytes?, Hex.read?_text]
  | fixedBytes hlen => simp [bind?, Atom.toJson, Json.bytes?, Hex.read?_text, hlen]
  | @uint bits n hn =>
    have hhas : HasInteger false bits n := ⟨by omega, by exact_mod_cast hn⟩
    exact (bind?_integer_iff hk.2.1).2 ⟨n, Json.denotesInteger_text n, hhas, rfl⟩
  | @int bits z hlow hhigh =>
    exact (bind?_integer_iff hk.2.1).2 ⟨z, Json.denotesInteger_signedText z, ⟨hlow, hhigh⟩, rfl⟩
  | @function account selector =>
    have htake : (account.val ++ selector.val).take 20 = account.val := by
      rw [List.take_append_of_le_length (by simp [account.property]), List.take_of_length_le]
      simp [account.property]
    have hdrop : (account.val ++ selector.val).drop 20 = selector.val := by
      rw [List.drop_append_of_le_length (by simp [account.property]), List.drop_of_length_le,
        List.nil_append]
      simp [account.property]
    simp [bind?, Atom.toJson, Json.string?, Hex.read?_text, htake, hdrop, Bytes.ofList?_val]

namespace Value

theorem length_toJsonList (items : List Value) : (toJsonList items).length = items.length := by
  induction items with
  | nil => rfl
  | cons v vs ih => simp [toJsonList, ih]

theorem names_toJsonMembers {vs : List (String × Value)} {fields : Fields}
    (h : InhabitFields vs fields) : (toJsonMembers vs).map Prod.fst = fields.map Prod.fst := by
  induction vs generalizing fields with
  | nil => cases h; rfl
  | cons v vs ih =>
    cases h with
    | cons _ h => simp [toJsonMembers, ih h]

end Value

namespace Shape

theorem mapM_bind_toJsonList {element : Shape} {items : List Value}
    (hbind : ∀ a, a.Inhabits element → element.bind a.toJson = .ok a)
    (h : ∀ item ∈ items, item.Inhabits element) :
    (Value.toJsonList items).mapM element.bind = .ok items := by
  rw [Except.mapM_eq_ok_iff]
  induction items with
  | nil => exact .nil
  | cons v vs ih => exact .cons (hbind v (h v (by simp))) (ih fun w hw => h w (by simp [hw]))

mutual

theorem bind_toJson : ∀ {s : Shape} {a : Value}, s.WellFormed → a.Inhabits s →
    s.bind a.toJson = .ok a
  | elementary kind, _, hs, .atom ha => by
    rw [Value.toJson, bind, Elementary.bind?_toJson hs ha]
    rfl
  | fixedArray element length, _, hs, .fixedArray hlen ha => by
    rw [Value.toJson, bind, if_neg (by simp [Value.length_toJsonList, hlen])]
    rw [mapM_bind_toJsonList (fun _ => bind_toJson hs.1) ha]
    rfl
  | dynamicArray element, _, hs, .dynamicArray ha => by
    rw [Value.toJson, bind, mapM_bind_toJsonList (fun _ => bind_toJson (s := element) hs) ha]
    rfl
  | struct fields, _, hs, @Value.Inhabits.struct vs _ ha => by
    have hnames := Value.names_toJsonMembers ha
    have hnodup : ((Value.toJsonMembers vs).map Prod.fst).Nodup := hnames ▸ hs.1
    have hlen : (Value.toJsonMembers vs).sorted.length = fields.length := by
      rw [(Json.Members.sorted_perm hnodup).length_eq]
      simpa using congrArg List.length hnames
    -- the members are sorted by name, but looking them up by name does not depend on the order
    rw [Value.toJson, Json.ofMembers, bind, if_neg (not_not.2 hlen)]
    rw [bindMembers_toJsonMembers hs.2 ha fun m hm => Json.Members.get?_sorted hnodup hm]
    rfl
termination_by structural s => s

/-- Each field finds its value if the members hold those of all fields. -/
theorem bindMembers_toJsonMembers : ∀ {fields : Fields} {vs : List (String × Value)}
    {missing : AbiError} {members : Json.Members}, WellFormedFields fields →
    Value.InhabitFields vs fields →
    (∀ m ∈ Value.toJsonMembers vs, members.get? m.1 = some m.2) →
    bindMembers missing members fields = .ok vs
  | [], _, _, _, _, .nil, _ => rfl
  | (name, s) :: rest, (_, v) :: vs, missing, members, hs, .cons hv hvs, hm => by
    have hrest : bindMembers missing members rest = .ok vs :=
      bindMembers_toJsonMembers hs.2 hvs fun m h => hm m (List.mem_cons_of_mem _ h)
    rw [bindMembers, hm _ List.mem_cons_self]
    dsimp only
    rw [bind_toJson hs.1 hv, hrest]
    rfl
termination_by structural fields => fields

end

end Shape

/-! ### Main statement -/

/-- Binding and rendering are inverse on the shape of every parameter that has one. -/
theorem Parameter.bind_toJson_inverse {p : Parameter} {s : Shape} (h : p.shape = .ok s) :
    (∀ v a, s.bind v = .ok a → a.Inhabits s) ∧ ∀ a, a.Inhabits s → s.bind a.toJson = .ok a :=
  ⟨fun _ _ => Shape.inhabits_of_bind, fun _ => Shape.bind_toJson (wellFormed_of_shape h)⟩

/-- An array of tuples with a field without a name and with a tuple that has no fields. -/
theorem Parameter.bind_toJson_inverse_of_tuples :
    ∃ s, (Parameter.mk "tuple[2][]" "" false none (some
        [.plain "int8" "z", .plain "function" "", .mk "tuple" "e" false none (some [])])).shape =
          .ok s ∧
      (∀ v a, s.bind v = .ok a → a.Inhabits s) ∧ ∀ a, a.Inhabits s → s.bind a.toJson = .ok a := by
  have h : (Parameter.mk "tuple[2][]" "" false none (some
      [.plain "int8" "z", .plain "function" "", .mk "tuple" "e" false none (some [])])).shape =
        .ok (.dynamicArray (.fixedArray (.struct [("z", .elementary (.integer true 8)),
          ("1", .elementary .function), ("e", .struct [])]) 2)) := by
    with_unfolding_all rfl
  exact ⟨_, h, Parameter.bind_toJson_inverse h⟩

end ContractAbi
