import ContractAbi.Proofs.DataModel
import ContractAbi.Proofs.Shape.CanonicalText
import ContractAbi.Proofs.Shape.Suffixes

/-!
# What counts as a tuple

A parameter is a tuple if its root is `tuple`. The check of an interface, the canonical type and the
shape each look for the root in their own way, and they find the same one behind all suffixes that
can be taken off. So an interface that passed the check has the components that a shape needs, at
every depth. Main statement: `Parameter.tuple_views_agree`.
-/

namespace ContractAbi

/-! ### Shapes -/

namespace Elementary

/-- Only the name of a tuple asks for components; any other one without a kind is unknown. -/
theorem eq_of_ofName_eq_error {name : String} {e : AbiError} (hname : name ≠ "tuple")
    (h : ofName name = .error e) : e = .unknownAbiType name := by
  unfold ofName at h
  grind

end Elementary

namespace Shape

/-- The shape inside all arrays. -/
def root : Shape → Shape
  | fixedArray element _ => element.root
  | dynamicArray element => element.root
  | elementary kind => .elementary kind
  | struct fields => .struct fields

theorem root_wrapAll (s : Shape) (xs : List Suffix) : (s.wrapAll xs).root = s.root := by
  induction xs generalizing s with
  | nil => rfl
  | cons x xs ih =>
    show ((x.wrap s).wrapAll xs).root = s.root
    rw [ih]
    cases x <;> rfl

/-- Whether the shape is a struct or an array of structs. -/
def HasStructBase (s : Shape) : Prop :=
  ∃ fields, s.root = .struct fields

end Shape

namespace Parameter

theorem isTuple_iff {p : Parameter} : p.isTuple = true ↔ p.rootType = "tuple" := by
  rw [isTuple, decide_eq_true_iff]

/-! ### Failing for want of components -/

/-- Whether a parameter is a tuple without components. -/
def LacksComponents (p : Parameter) : Prop :=
  p.rootType = "tuple" ∧ p.components = none

/-- Why a parameter has no shape. -/
theorem shape_eq_error_iff {type name : String} {indexed : Bool} {internalType : Option String}
    {components : Option (List Parameter)} {e : AbiError} :
    Parameter.shape ⟨type, name, indexed, internalType, components⟩ = .error e ↔
      Suffix.split type = .error e ∨ ∃ base xs, Suffix.split type = .ok (base, xs) ∧
        ((base = "tuple" ∧ components = none ∧ e = .missingTupleComponents type) ∨
          (base = "tuple" ∧ ∃ ps, components = some ps ∧ fieldsFrom type 0 [] ps = .error e) ∨
          (base ≠ "tuple" ∧ Elementary.ofName base = .error e)) := by
  rw [Parameter.shape, Except.bind_eq_error_iff]
  apply or_congr Iff.rfl
  constructor
  · rintro ⟨⟨base, xs⟩, hsplit, h⟩
    refine ⟨base, xs, hsplit, ?_⟩
    dsimp only at h
    split at h
    · next hbase =>
      cases components with
      | none => exact .inl ⟨hbase, rfl, (Except.error.inj h).symm⟩
      | some ps =>
        rcases Except.bind_eq_error_iff.1 h with h | ⟨fields, -, h⟩
        · exact .inr (.inl ⟨hbase, ps, rfl, h⟩)
        · cases h
    · next hbase =>
      rcases Except.bind_eq_error_iff.1 h with h | ⟨kind, -, h⟩
      · exact .inr (.inr ⟨hbase, h⟩)
      · cases h
  · rintro ⟨base, xs, hsplit, ⟨rfl, rfl, rfl⟩ | ⟨rfl, ps, rfl, h⟩ | ⟨hbase, h⟩⟩
    · exact ⟨_, hsplit, rfl⟩
    · refine ⟨_, hsplit, ?_⟩
      dsimp only
      rw [if_pos rfl, h]
      rfl
    · refine ⟨_, hsplit, ?_⟩
      dsimp only
      rw [if_neg hbase, h]
      rfl

/-- Why some parameters make up no fields. -/
theorem of_fieldsFrom_eq_error {owner : String} {position : Nat} {taken : List String}
    {p : Parameter} {ps : List Parameter} {e : AbiError}
    (h : fieldsFrom owner position taken (p :: ps) = .error e) :
    e = .duplicateFieldName owner (p.fieldName position) ∨ p.shape = .error e ∨
      ∃ taken, fieldsFrom owner (position + 1) taken ps = .error e := by
  rw [fieldsFrom] at h
  dsimp only at h
  split at h
  · exact .inl (Except.error.inj h).symm
  · rcases Except.bind_eq_error_iff.1 h with h | ⟨s, -, h⟩
    · exact .inr (.inl h)
    rcases Except.bind_eq_error_iff.1 h with h | ⟨rest, -, h⟩
    · exact .inr (.inr ⟨_, h⟩)
    · cases h

theorem Occurs.mono {q : Parameter} {ps qs : List Parameter} (h : q.Occurs ps)
    (hsub : ∀ p ∈ ps, p ∈ qs) : q.Occurs qs := by
  cases h with
  | here hmem => exact .here (hsub q hmem)
  | within hmem hparts hq => exact .within (hsub _ hmem) hparts hq

/-- What occurs in a parameter occurs where the parameter does. -/
theorem Occurs.trans {p q : Parameter} {ps : List Parameter} (hq : q.Occurs [p])
    (hp : p.Occurs ps) : q.Occurs ps := by
  induction hp with
  | here hmem => exact hq.mono (by simpa using hmem)
  | within hmem hparts _ ih => exact .within hmem hparts ih

mutual

/-- Components are wanted only of a tuple that has none, at some depth. -/
theorem exists_lacking_of_shape : ∀ {p : Parameter} {type : String},
    p.shape = .error (.missingTupleComponents type) → ∃ q : Parameter, q.Occurs [p] ∧
      q.LacksComponents
  | ⟨ownType, name, indexed, internalType, components⟩, type, h => by
    rcases shape_eq_error_iff.1 h with hsplit | ⟨base, xs, hsplit, hbase⟩
    · cases Suffix.eq_of_split_eq_error hsplit
    rcases hbase with ⟨rfl, hnone, -⟩ | ⟨-, ps, hps, hfields⟩ | ⟨hne, hname⟩
    · refine ⟨_, .here (List.mem_singleton_self _), ?_, hnone⟩
      exact rootType_of_split hsplit
    · cases components with
      | none => cases hps
      | some qs =>
        obtain rfl := Option.some.inj hps
        obtain ⟨q, hq, hlacks⟩ := exists_lacking_of_fieldsFrom hfields
        exact ⟨q, .within (List.mem_singleton_self _) rfl hq, hlacks⟩
    · cases Elementary.eq_of_ofName_eq_error hne hname
termination_by structural p => p

theorem exists_lacking_of_fieldsFrom : ∀ {ps : List Parameter} {owner : String} {position : Nat}
    {taken : List String} {type : String},
    fieldsFrom owner position taken ps = .error (.missingTupleComponents type) →
      ∃ q : Parameter, q.Occurs ps ∧ q.LacksComponents
  | [], _, _, _, _, h => by cases h
  | p :: ps, _, _, _, _, h => by
    rcases of_fieldsFrom_eq_error h with hname | hshape | ⟨taken, hrest⟩
    · cases hname
    · obtain ⟨q, hq, hlacks⟩ := exists_lacking_of_shape hshape
      exact ⟨q, hq.mono (by simp), hlacks⟩
    · obtain ⟨q, hq, hlacks⟩ := exists_lacking_of_fieldsFrom hrest
      exact ⟨q, hq.mono fun p hp => List.mem_cons_of_mem _ hp, hlacks⟩
termination_by structural ps => ps

end

/-- Where the tuples are the parameters with components, no shape fails for want of them. -/
theorem shape_ne_missing {ps : List Parameter}
    (h : ∀ q : Parameter, q.Occurs ps → (q.components.isSome ↔ q.rootType = "tuple"))
    {p : Parameter} (hp : p.Occurs ps) (type : String) :
    p.shape ≠ .error (.missingTupleComponents type) := by
  intro hshape
  obtain ⟨q, hq, htuple, hnone⟩ := exists_lacking_of_shape hshape
  have hsome := (h q (hq.trans hp)).2 htuple
  rw [hnone] at hsome
  cases hsome

/-! ### The three views -/

/-- Whether an interface must have components for the parameter: its check rejects the parameter
without them. -/
def RequiresComponents (p : Parameter) : Prop :=
  let bare := { p with components := none }
  Schema.checkParameter true bare = .error (.missingComponents bare)

/-- Whether the canonical type lists the components in parentheses. -/
def ExpandsComponents (p : Parameter) : Prop :=
  ∃ ps ∈ p.components, ∃ suffixes : String,
    p.canonicalType = "(" ++ canonicalList ps ++ ")" ++ suffixes

theorem requiresComponents_iff {p : Parameter} (h : Text.trimBlanks p.type ≠ "") :
    p.RequiresComponents ↔ p.isTuple := by
  obtain ⟨type, name, indexed, internalType, components⟩ := p
  have hcheck : Schema.checkParameter true ⟨type, name, indexed, internalType, none⟩ =
      if (mk type name indexed internalType none).isTuple then
        .error (.missingComponents ⟨type, name, indexed, internalType, none⟩)
      else .ok () := by
    rw [Schema.checkParameter, if_neg h, Bool.not_true, Bool.and_false]
    split <;> rfl
  show Schema.checkParameter true ⟨type, name, indexed, internalType, none⟩ = _ ↔
    (mk type name indexed internalType none).isTuple
  rw [hcheck]
  by_cases htuple : (mk type name indexed internalType none).isTuple
  · simp [htuple]
  · simp [htuple]

/-- The canonical type of a tuple with components. -/
theorem canonicalType_of_root {p : Parameter} {ps : List Parameter} {suffixes : List Char}
    (hroot : splitRoot p.type.toList = ("tuple".toList, suffixes)) (hps : p.components = some ps) :
    p.canonicalType = "(" ++ canonicalList ps ++ ")" ++ String.ofList suffixes := by
  obtain ⟨type, name, indexed, internalType, components⟩ := p
  obtain rfl : components = some ps := hps
  have hroot : splitRoot type.toList = ("tuple".toList, suffixes) := hroot
  rw [canonicalType, hroot]
  simp [canonicalList]

/-- What the base of a type and the shape have to do with each other. -/
theorem exists_base_of_shape_eq {p : Parameter} {s : Shape} (h : p.shape = .ok s) :
    ∃ base xs, Suffix.split p.type = .ok (base, xs) ∧
      ((base = "tuple" ∧ ∃ ps fields, p.components = some ps ∧
          s = (Shape.struct fields).wrapAll xs) ∨
        (base ≠ "tuple" ∧ ∃ kind, Elementary.ofName base = .ok kind ∧
          s = (Shape.elementary kind).wrapAll xs)) := by
  obtain ⟨type, name, indexed, internalType, components⟩ := p
  obtain ⟨base, xs, hsplit, hbase⟩ := shape_eq_ok_iff.1 h
  refine ⟨base, xs, hsplit, hbase.imp_left ?_⟩
  rintro ⟨rfl, ps, fields, hps, -, hs⟩
  exact ⟨rfl, ps, fields, hps, hs⟩

theorem views_of_isTuple {p : Parameter} {s : Shape} (h : p.shape = .ok s) (ht : p.isTuple) :
    p.RequiresComponents ∧ p.ExpandsComponents ∧ s.HasStructBase := by
  obtain ⟨base, xs, hsplit, hbase⟩ := exists_base_of_shape_eq h
  have hroot : p.rootType = base := rootType_of_split hsplit
  rcases hbase with ⟨rfl, ps, fields, hps, rfl⟩ | ⟨hne, -⟩
  · refine ⟨?_, ?_, ?_⟩
    · have htype := (Suffix.split_eq_ok_iff.1 hsplit).2.2
      apply (requiresComponents_iff ?_).2 ht
      exact Text.trimBlanks_ne_empty (c := 't') (by simp [htype]) (by decide)
    · exact ⟨ps, hps, _, canonicalType_of_root (splitRoot_of_split hsplit) hps⟩
    · exact ⟨fields, Shape.root_wrapAll _ xs⟩
  · exact absurd (hroot.symm.trans (isTuple_iff.1 ht)) hne

theorem views_of_not_isTuple {p : Parameter} {s : Shape} (h : p.shape = .ok s)
    (ht : ¬p.isTuple) :
    ¬p.RequiresComponents ∧ ¬p.ExpandsComponents ∧ ¬s.HasStructBase := by
  obtain ⟨base, xs, hsplit, hbase⟩ := exists_base_of_shape_eq h
  have hroot : p.rootType = base := rootType_of_split hsplit
  rcases hbase with ⟨hbase, -⟩ | ⟨-, kind, hkind, rfl⟩
  · exact absurd (isTuple_iff.2 (hroot.trans hbase)) ht
  refine ⟨?_, ?_, ?_⟩
  · have htype := (Suffix.split_eq_ok_iff.1 hsplit).2.2
    have hnames := Elementary.ofName_eq_ok_iff_names.1 hkind
    obtain ⟨c, hc⟩ := List.exists_mem_of_ne_nil _ (Elementary.ne_nil_of_names hnames)
    rw [requiresComponents_iff]
    · exact ht
    · have hmem : c ∈ p.type.toList := by simp [htype, hc]
      exact Text.trimBlanks_ne_empty hmem (Elementary.isAlphanum_of_ofName hkind c hc)
  · -- no name of an elementary type has a parenthesis in it
    rintro ⟨ps, -, suffixes, hexpanded⟩
    have hopen : '(' ∈ kind.display.toList ++ Suffix.chars xs := by
      have hcanonical := canonicalType_of_shape h
      rw [hexpanded, Shape.canonicalChars_wrapAll, Shape.canonicalChars] at hcanonical
      rw [← hcanonical]
      simp
    rcases List.mem_append.1 hopen with hopen | hopen
    · exact Elementary.not_mem_display (by decide) hopen
    · exact (Suffix.mark_not_mem_chars xs _ hopen).1 rfl
  · rintro ⟨fields, hfields⟩
    rw [Shape.root_wrapAll] at hfields
    cases hfields

end Parameter

/-! ### Main statement -/

/-- What was read from JSON has passed the check. -/
theorem Descriptor.conforms_of_ofJson {v : Json} {d : Descriptor} (h : ofJson v = .ok d) :
    ∀ e ∈ d.entries, e.Conforms := by
  obtain ⟨elements, rfl, hread, -⟩ := ofJson_eq_ok_iff.1 h
  intro e he
  obtain ⟨element, -, hentry⟩ := Except.exists_of_mem_mapM (Except.mapM_eq_ok_iff.2 hread) he
  exact Schema.conforms_of_entry hentry

namespace Parameter

/-- In an interface that was read from JSON no tuple wants components. The root of a type is the
same to everyone who looks for it, so that of a parameter with a shape either the check requires
components, the canonical type lists them and the shape is made of a struct, or none of this. -/
theorem tuple_views_agree :
    (∀ v d, Descriptor.ofJson v = .ok d → ∀ e ∈ d.entries, ∀ p : Parameter,
      p.Occurs (e.inputs ++ e.outputs) → ∀ type, p.shape ≠ .error (.missingTupleComponents type)) ∧
    (∀ (p : Parameter) base xs, Suffix.split p.type = .ok (base, xs) →
      Suffix.splitFromEnd p.type = .ok (base, xs) ∧ p.rootType = base ∧
        splitRoot p.type.toList = (base.toList, Suffix.chars xs)) ∧
    ∀ (p : Parameter) s, p.shape = .ok s →
      (p.RequiresComponents ∧ p.ExpandsComponents ∧ s.HasStructBase) ∨
        (¬p.RequiresComponents ∧ ¬p.ExpandsComponents ∧ ¬s.HasStructBase) := by
  refine ⟨?_, ?_, ?_⟩
  · intro v d h e he p hp
    have hconforms := Descriptor.conforms_of_ofJson h e he
    exact shape_ne_missing (fun q hq => hconforms.isSome_components_iff hq) hp
  · intro p base xs h
    exact ⟨(Suffix.splitFromEnd_eq_split p.type).trans h, rootType_of_split h,
      splitRoot_of_split h⟩
  · intro p s h
    by_cases htuple : p.isTuple
    · exact .inl (views_of_isTuple h htuple)
    · exact .inr (views_of_not_isTuple h htuple)

/-- An array of tuples in an output, with a tuple without members and an array of numbers in it. -/
theorem tuple_views_agree_of_nested :
    let inner : Parameter := ⟨"tuple", "b", false, none, some []⟩
    let number : Parameter := ⟨"uint[4]", "c", false, none, none⟩
    let p : Parameter := ⟨"tuple[2][]", "a", false, none, some [inner, number]⟩
    let e : Entry := .function ⟨"f", [], [p], .view⟩
    let v : Json := .array [.object [("name", .string "f"), ("constant", .bool true), ("outputs",
      .array [.object [("type", .string "tuple[2][]"), ("name", .string "a"), ("components",
        .array [
          .object [("name", .string "b"), ("components", .array []), ("type", .string "tuple")],
          .object [("name", .string "c"), ("type", .string "uint[4]")]])]])]]
    let s : Shape := .dynamicArray (.fixedArray (.struct [("b", .struct []),
      ("c", .fixedArray (.elementary (.integer false 256)) 4)]) 2)
    Descriptor.ofJson v = .ok ⟨[e]⟩ ∧
      (∀ type, inner.shape ≠ .error (.missingTupleComponents type)) ∧
      (Suffix.split p.type = .ok ("tuple", [.fixed 2, .dynamic]) ∧
        Suffix.splitFromEnd p.type = .ok ("tuple", [.fixed 2, .dynamic]) ∧
        p.rootType = "tuple" ∧
        splitRoot p.type.toList = ("tuple".toList, Suffix.chars [.fixed 2, .dynamic])) ∧
      p.shape = .ok s ∧
      ((p.RequiresComponents ∧ p.ExpandsComponents ∧ s.HasStructBase) ∨
        (¬p.RequiresComponents ∧ ¬p.ExpandsComponents ∧ ¬s.HasStructBase)) := by
  intro inner number p e v s
  obtain ⟨hread, hroot, hviews⟩ := tuple_views_agree
  have hv : Descriptor.ofJson v = .ok ⟨[e]⟩ := rfl
  have hinner : inner.Occurs (e.inputs ++ e.outputs) :=
    .within (List.mem_singleton_self p) rfl (.here List.mem_cons_self)
  have hsplit : Suffix.split "tuple[2][]" = .ok ("tuple", [.fixed 2, .dynamic]) := by
    with_unfolding_all rfl
  have hshape : p.shape = .ok s := by with_unfolding_all rfl
  refine ⟨hv, ?_, ⟨hsplit, hroot p _ _ hsplit⟩, hshape, hviews p s hshape⟩
  exact hread v _ hv e (List.mem_singleton_self e) inner hinner

end Parameter

end ContractAbi
