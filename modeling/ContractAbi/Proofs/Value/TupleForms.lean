import ContractAbi.Binding
import ContractAbi.Proofs.Json.Members
import ContractAbi.Proofs.Shape.WellFormed

/-!
# Tuples by name and by position

The items of a tuple may be written as an array in the order of the fields or as an object under the
names of the fields. `fields.Gives v items` says that `v` is one of these forms, and binding depends
on the items only:

    fields.Gives v items → (struct fields).bind v = bindPositions items fields

So where a value binds, each of its tuples, at any depth, may be written in the other form. Main
statement: `Parameter.bind_tuple_forms`.
-/

namespace ContractAbi

/-! ### The two forms -/

/-- Whether a JSON value gives items to the fields of a tuple, one to each in their order: as an
array of the items, or as an object that has as many members as there are fields and under the name
of each field its item. -/
inductive Fields.Gives (fields : Fields) : Json → List Json → Prop
  | positions {items} : items.length = fields.length → Gives fields (.array items) items
  | names {members items} : members.length = fields.length →
      List.Forall₂ (fun field item => Json.Members.get? members field.1 = some item) fields items →
      Gives fields (.object members) items

/-- The object with the items under the names of the fields. -/
def Fields.named (fields : Fields) (items : List Json) : Json :=
  .ofMembers ((fields.map Prod.fst).zip items)

theorem Fields.gives_named {fields : Fields} {items : List Json}
    (hnodup : (fields.map Prod.fst).Nodup) (hlength : items.length = fields.length) :
    fields.Gives (fields.named items) items := by
  have hnames : (((fields.map Prod.fst).zip items).map Prod.fst) = fields.map Prod.fst :=
    List.map_fst_zip (by simp [hlength])
  rw [← hnames] at hnodup
  apply Gives.names
  · rw [(Json.Members.sorted_perm hnodup).length_eq]
    simp [hlength]
  · rw [List.forall₂_iff_zip]
    refine ⟨hlength.symm, ?_⟩
    intro field item hmem
    apply Json.Members.get?_sorted hnodup
    rw [List.zip_map_left]
    exact List.mem_map.2 ⟨(field, item), hmem, rfl⟩

namespace Shape

theorem bindMembers_eq_bindPositions {fields : Fields} {members : Json.Members}
    {items : List Json} {missing : AbiError}
    (h : List.Forall₂ (fun field item => members.get? field.1 = some item) fields items) :
    bindMembers missing members fields = bindPositions items fields := by
  induction h with
  | nil => rfl
  | cons hitem _ ih => rw [bindMembers, bindPositions, hitem, ih]

/-- Binding a tuple depends on the items that its fields are given. -/
theorem bind_struct_of_gives {fields : Fields} {v : Json} {items : List Json}
    (h : fields.Gives v items) :
    (struct fields).bind v = (do return .struct (← bindPositions items fields)) := by
  cases h with
  | positions hlength => rw [bind, if_neg (not_not_intro hlength)]
  | names hlength hitems =>
    rw [bind, if_neg (not_not_intro hlength), bindMembers_eq_bindPositions hitems]

theorem exists_items_of_bindMembers {fields : Fields} {members : Json.Members}
    {vs : List (String × Value)} {missing : AbiError}
    (h : bindMembers missing members fields = .ok vs) :
    ∃ items, List.Forall₂ (fun field item => members.get? field.1 = some item) fields items := by
  induction fields generalizing vs with
  | nil => exact ⟨[], .nil⟩
  | cons field fields ih =>
    obtain ⟨name, s⟩ := field
    rw [bindMembers] at h
    cases hitem : members.get? name with
    | none =>
      rw [hitem] at h
      exact absurd h Except.throw_ne_ok
    | some item =>
      rw [hitem] at h
      obtain ⟨_, -, h⟩ := Except.bind_eq_ok_iff.1 h
      obtain ⟨_, hrest, -⟩ := Except.bind_eq_ok_iff.1 h
      obtain ⟨items, hitems⟩ := ih hrest
      exact ⟨item :: items, .cons hitem hitems⟩

/-- What binds to a tuple has one of the two forms. -/
theorem exists_gives_of_bind {fields : Fields} {v : Json} {a : Value}
    (h : (struct fields).bind v = .ok a) :
    ∃ items, items.length = fields.length ∧ fields.Gives v items := by
  cases v with
  | array items =>
    rw [bind, Except.ite_throw_bind_eq_ok_iff, not_not] at h
    exact ⟨items, h.1, .positions h.1⟩
  | object members =>
    rw [bind, Except.ite_throw_bind_eq_ok_iff, not_not] at h
    obtain ⟨hlength, h⟩ := h
    obtain ⟨_, hmembers, -⟩ := Except.bind_eq_ok_iff.1 h
    obtain ⟨items, hitems⟩ := exists_items_of_bindMembers hmembers
    exact ⟨items, hitems.length_eq.symm, .names hlength hitems⟩
  | _ => exact absurd h Except.throw_ne_ok

/-! ### Rewriting tuples -/

mutual

/-- Whether a value of a shape is another one with some of the tuples in it, at any depth, written
in the other form. -/
inductive Respells : Shape → Json → Json → Prop
  | same {s v} : Respells s v v
  | fixedArray {element length items items'} : RespellsItems element items items' →
      Respells (.fixedArray element length) (.array items) (.array items')
  | dynamicArray {element items items'} : RespellsItems element items items' →
      Respells (.dynamicArray element) (.array items) (.array items')
  | struct {fields v w items items'} : Fields.Gives fields v items →
      RespellsFields fields items items' → Fields.Gives fields w items' →
      Respells (.struct fields) v w

/-- Whether this holds of each element of an array. -/
inductive RespellsItems : Shape → List Json → List Json → Prop
  | nil {element} : RespellsItems element [] []
  | cons {element v w items items'} : Respells element v w → RespellsItems element items items' →
      RespellsItems element (v :: items) (w :: items')

/-- Whether this holds of each item of a tuple. -/
inductive RespellsFields : Fields → List Json → List Json → Prop
  | nil : RespellsFields [] [] []
  | cons {name s fields v w items items'} : Respells s v w → RespellsFields fields items items' →
      RespellsFields ((name, s) :: fields) (v :: items) (w :: items')

end

theorem RespellsItems.length_eq {element : Shape} {items items' : List Json}
    (h : RespellsItems element items items') : items.length = items'.length := by
  induction items generalizing items' with
  | nil => cases h; rfl
  | cons v items ih =>
    cases h with
    | cons _ h => exact congrArg Nat.succ (ih h)

mutual

theorem bind_of_respells : ∀ {s : Shape} {v w : Json} {a : Value}, s.Respells v w →
    s.bind v = .ok a → s.bind w = .ok a
  | _, _, _, _, .same, ha => ha
  | .fixedArray element length, .array items, .array items', a, .fixedArray h, ha => by
    rw [bind, Except.ite_throw_bind_eq_ok_iff] at ha ⊢
    rw [← h.length_eq]
    refine ha.imp_right ?_
    intro ha
    obtain ⟨vs, hvs, ha⟩ := Except.bind_eq_ok_iff.1 ha
    exact Except.bind_eq_ok_iff.2 ⟨vs, mapM_bind_of_respells h hvs, ha⟩
  | .dynamicArray element, .array items, .array items', a, .dynamicArray h, ha => by
    rw [bind] at ha ⊢
    obtain ⟨vs, hvs, ha⟩ := Except.bind_eq_ok_iff.1 ha
    exact Except.bind_eq_ok_iff.2 ⟨vs, mapM_bind_of_respells h hvs, ha⟩
  | .struct fields, v, w, a, .struct hv h hw, ha => by
    rw [bind_struct_of_gives hv] at ha
    rw [bind_struct_of_gives hw]
    obtain ⟨vs, hvs, ha⟩ := Except.bind_eq_ok_iff.1 ha
    exact Except.bind_eq_ok_iff.2 ⟨vs, bindPositions_of_respells h hvs, ha⟩

theorem mapM_bind_of_respells : ∀ {element : Shape} {items items' : List Json} {vs : List Value},
    RespellsItems element items items' → items.mapM element.bind = .ok vs →
    items'.mapM element.bind = .ok vs
  | _, _, _, _, .nil, h => h
  | _, _, _, _, .cons hv hitems, h => by
    rw [Except.mapM_eq_ok_iff] at h ⊢
    cases h with
    | cons hx hxs =>
      refine .cons (bind_of_respells hv hx) ?_
      exact Except.mapM_eq_ok_iff.1 (mapM_bind_of_respells hitems (Except.mapM_eq_ok_iff.2 hxs))

theorem bindPositions_of_respells : ∀ {fields : Fields} {items items' : List Json}
    {vs : List (String × Value)}, RespellsFields fields items items' →
    bindPositions items fields = .ok vs → bindPositions items' fields = .ok vs
  | _, _, _, _, .nil, h => h
  | _, _, _, _, .cons hv hitems, h => by
    rw [bindPositions] at h ⊢
    obtain ⟨a, ha, h⟩ := Except.bind_eq_ok_iff.1 h
    obtain ⟨vs, hvs, h⟩ := Except.bind_eq_ok_iff.1 h
    refine Except.bind_eq_ok_iff.2 ⟨a, bind_of_respells hv ha, ?_⟩
    exact Except.bind_eq_ok_iff.2 ⟨vs, bindPositions_of_respells hitems hvs, h⟩

end

end Shape

/-! ### Main statement -/

/-- In the shape of a parameter a tuple binds alike in its two forms, and has one of them where it
binds, so rewriting tuples of a value that binds, at any depth, changes nothing. -/
theorem Parameter.bind_tuple_forms {p : Parameter} {s : Shape} (h : p.shape = .ok s) :
    (∀ fields : Fields, (Shape.struct fields).OccursIn s →
      (∀ items, items.length = fields.length →
        (fields.Gives (.array items) items ∧ fields.Gives (fields.named items) items) ∧
        (Shape.struct fields).bind (.array items) =
          (Shape.struct fields).bind (fields.named items)) ∧
      ∀ v a, (Shape.struct fields).bind v = .ok a →
        ∃ items, items.length = fields.length ∧ fields.Gives v items) ∧
    ∀ v w a, s.Respells v w → s.bind v = .ok a → s.bind w = .ok a := by
  refine ⟨?_, fun v w a => Shape.bind_of_respells⟩
  intro fields hoccurs
  refine ⟨?_, fun v a => Shape.exists_gives_of_bind⟩
  intro items hlength
  have hnodup := (hoccurs.wellFormed (wellFormed_of_shape h)).1
  have hpositions : fields.Gives (.array items) items := .positions hlength
  have hnamed := Fields.gives_named hnodup hlength
  refine ⟨⟨hpositions, hnamed⟩, ?_⟩
  rw [Shape.bind_struct_of_gives hpositions, Shape.bind_struct_of_gives hnamed]

/-- An array of tuples with a field that is called by its position, and a tuple in it. -/
theorem Parameter.bind_tuple_forms_of_nested :
    let p : Parameter := ⟨"tuple[]", "", false, none,
      some [.plain "bool" "b", ⟨"tuple", "", false, none, some [.plain "uint8" "x"]⟩]⟩
    let inner : Fields := [("x", .elementary (.integer false 8))]
    let outer : Fields := [("b", .elementary .bool), ("1", .struct inner)]
    let s : Shape := .dynamicArray (.struct outer)
    let seven : Json := .number (.integer 7)
    let v : Json := .array [.object [("1", .array [seven]), ("b", .bool true)]]
    let w : Json := .array [.array [.bool true, .object [("x", seven)]]]
    let a : Value :=
      .array [.struct [("b", .atom (.bool true)), ("1", .struct [("x", .atom (.uint 8 7))])]]
    p.shape = .ok s ∧
    (Shape.struct outer).bind (.array [.bool true, .null]) =
      (Shape.struct outer).bind (.object [("1", .null), ("b", .bool true)]) ∧
    s.Respells v w ∧ s.bind v = .ok a ∧ s.bind w = .ok a := by
  intro p inner outer s seven v w a
  have hshape : p.shape = .ok s := by with_unfolding_all rfl
  obtain ⟨htuple, hrespell⟩ := Parameter.bind_tuple_forms hshape
  have hx : inner.Gives (.array [seven]) [seven] := .positions rfl
  have hx' : inner.Gives (.object [("x", seven)]) [seven] := .names rfl (.cons rfl .nil)
  have hb : outer.Gives (.object [("1", .array [seven]), ("b", .bool true)])
      [.bool true, .array [seven]] := .names rfl (.cons rfl (.cons rfl .nil))
  have hb' : outer.Gives (.array [.bool true, .object [("x", seven)]])
      [.bool true, .object [("x", seven)]] := .positions rfl
  have hinner : (Shape.struct inner).Respells (.array [seven]) (.object [("x", seven)]) :=
    .struct hx (.cons .same .nil) hx'
  have houter : s.Respells v w :=
    .dynamicArray (.cons (.struct hb (.cons .same (.cons hinner .nil)) hb') .nil)
  have hv : s.bind v = .ok a := rfl
  have hnamed : outer.named [.bool true, .null] = .object [("1", .null), ("b", .bool true)] := by
    dsimp only [outer, inner]
    with_unfolding_all rfl
  have hpair := ((htuple outer (.dynamicArray .self)).1 [.bool true, .null] rfl).2
  rw [hnamed] at hpair
  exact ⟨hshape, hpair, houter, hv, hrespell v w a houter hv⟩

end ContractAbi
