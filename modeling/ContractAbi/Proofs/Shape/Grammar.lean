import ContractAbi.Proofs.Shape.PlainType

/-!
# The grammar of types

What a type may be, without reference to how types are read. A type is a base with suffixes behind
it, and `Parameter.Denotes` tells which shape it stands for: the base stands for an elementary kind,
or for the struct of the components, and each suffix from left to right makes an array of what
stands before it. Main statement: `Parameter.shape_eq_ok_iff_denotes`, by which a parameter has the
shape that it denotes and none otherwise, and the arrays of a shape come off with the suffixes.
-/

namespace ContractAbi

/-! ### Elementary types -/

namespace Elementary

/-- Whether a word is a name of an elementary kind. -/
inductive Names : String → Elementary → Prop
  | address : Names "address" .address
  | bool : Names "bool" .bool
  | string : Names "string" .string
  | bytes : Names "bytes" (.bytes none)
  | function : Names "function" .function
  | fixedBytes {width} : 1 ≤ width → width ≤ 32 →
      Names ("bytes" ++ Decimal.text width) (.bytes (some width))
  | int : Names "int" (.integer true 256)
  | uint : Names "uint" (.integer false 256)
  | sizedInt {bits} : 8 ≤ bits → bits ≤ 256 → 8 ∣ bits →
      Names ("int" ++ Decimal.text bits) (.integer true bits)
  | sizedUint {bits} : 8 ≤ bits → bits ≤ 256 → 8 ∣ bits →
      Names ("uint" ++ Decimal.text bits) (.integer false bits)

theorem names_display {kind : Elementary} (h : kind.WellFormed) : Names kind.display kind := by
  cases kind with
  | address => exact .address
  | bool => exact .bool
  | string => exact .string
  | function => exact .function
  | bytes width =>
    cases width with
    | none => exact .bytes
    | some width => exact .fixedBytes h.1 h.2
  | integer signed bits =>
    obtain ⟨hlow, hhigh, hmod⟩ := h
    cases signed with
    | true => exact .sizedInt hlow hhigh (Nat.dvd_of_mod_eq_zero hmod)
    | false => exact .sizedUint hlow hhigh (Nat.dvd_of_mod_eq_zero hmod)

theorem names_of_shortName? {kind : Elementary} {name : String} (h : kind.shortName? = some name) :
    Names name kind := by
  cases kind with
  | integer signed bits =>
    rw [shortName?] at h
    split at h
    · next hbits =>
      subst hbits
      obtain rfl := Option.some.inj h
      cases signed with
      | true => exact .int
      | false => exact .uint
    · cases h
  | _ => cases h

/-- The reader of elementary types accepts their names. -/
theorem ofName_eq_ok_iff_names {name : String} {kind : Elementary} :
    ofName name = .ok kind ↔ Names name kind := by
  rw [ofName_eq_ok_iff]
  constructor
  · rintro ⟨hwf, rfl | hshort⟩
    · exact names_display hwf
    · exact names_of_shortName? hshort
  · intro h
    cases h with
    | address | bool | string | bytes | function => exact ⟨trivial, .inl rfl⟩
    | fixedBytes hlow hhigh => exact ⟨⟨hlow, hhigh⟩, .inl rfl⟩
    | int | uint => exact ⟨⟨by decide, Nat.le_refl 256, rfl⟩, .inr rfl⟩
    | sizedInt hlow hhigh hdvd | sizedUint hlow hhigh hdvd =>
      exact ⟨⟨hlow, hhigh, Nat.mod_eq_zero_of_dvd hdvd⟩, .inl rfl⟩

theorem isBase_of_names {name : String} {kind : Elementary} (h : Names name kind) :
    Suffix.IsBase name := by
  intro c hc
  have halphanum := isAlphanum_of_ofName (ofName_eq_ok_iff_names.2 h) c hc
  rw [Suffix.isBracket, Bool.or_eq_false_iff, decide_eq_false_iff_not, decide_eq_false_iff_not]
  constructor
  · rintro rfl
    cases halphanum
  · rintro rfl
    cases halphanum

theorem not_names_tuple {kind : Elementary} : ¬Names "tuple" kind := by
  intro h
  cases ofName_eq_ok_iff_names.2 h

end Elementary

/-! ### Suffixes -/

namespace Suffix

/-- The type that has the suffixes behind a base. -/
def written (base : String) (xs : List Suffix) : String :=
  xs.foldl (fun type x => type ++ x.text) base

theorem toList_text (x : Suffix) : x.text.toList = '[' :: (x.size ++ [']']) := by
  cases x with
  | dynamic => rfl
  | fixed n => simp [text, size]

theorem toList_written (base : String) (xs : List Suffix) :
    (written base xs).toList = base.toList ++ chars xs := by
  induction xs generalizing base with
  | nil => exact (List.append_nil _).symm
  | cons x xs ih =>
    show (written (base ++ x.text) xs).toList = _
    rw [ih, String.toList_append, toList_text, List.append_assoc]
    rfl

theorem isBase_tuple : IsBase "tuple" := by
  simp [IsBase, isBracket]

theorem split_eq_ok_iff_written {type base : String} {xs : List Suffix} :
    split type = .ok (base, xs) ↔
      IsBase base ∧ (∀ x ∈ xs, x.WellFormed) ∧ type = written base xs := by
  rw [split_eq_ok_iff, ← toList_written, String.toList_inj]

end Suffix

namespace Shape

theorem wrapAll_append (s : Shape) (xs ys : List Suffix) :
    s.wrapAll (xs ++ ys) = (s.wrapAll xs).wrapAll ys :=
  List.foldl_append

theorem element?_wrap (s : Shape) (x : Suffix) : (x.wrap s).element? = some s := by
  cases x <;> rfl

theorem dimensions_wrap (s : Shape) (x : Suffix) : (x.wrap s).dimensions = s.dimensions + 1 := by
  cases x <;> rfl

theorem dimensions_wrapAll (s : Shape) (xs : List Suffix) :
    (s.wrapAll xs).dimensions = s.dimensions + xs.length := by
  induction xs generalizing s with
  | nil => rfl
  | cons x xs ih =>
    show ((x.wrap s).wrapAll xs).dimensions = _
    rw [ih, dimensions_wrap, List.length_cons, Nat.add_assoc, Nat.add_comm 1]

/-- The shape inside the outermost `levels` arrays. -/
def peel? : Nat → Shape → Option Shape
  | 0, s => some s
  | levels + 1, s => s.element?.bind (peel? levels)

/-- The last suffixes are the outermost arrays. -/
theorem peel?_wrapAll (s : Shape) (xs : List Suffix) :
    (s.wrapAll xs).peel? xs.length = some s := by
  -- from the end, since the last suffix is the first array to come off
  induction xs using List.reverseRecOn with
  | nil => rfl
  | append_singleton xs x ih =>
    rw [wrapAll_append, List.length_append]
    show (x.wrap (s.wrapAll xs)).element?.bind (peel? xs.length) = some s
    rw [element?_wrap, Option.bind_some, ih]

end Shape

/-! ### Parameters -/

namespace Parameter

/-- The names of the fields for parameters from a position on. -/
def fieldNamesFrom (position : Nat) : List Parameter → List String
  | [] => []
  | p :: ps => p.fieldName position :: fieldNamesFrom (position + 1) ps

/-- The names of the fields for parameters. -/
def fieldNames (ps : List Parameter) : List String :=
  fieldNamesFrom 0 ps

/-- Whether a parameter denotes a shape. -/
inductive Denotes : Parameter → Shape → Prop
  | elementary {p base kind xs} : p.type = Suffix.written base xs → Elementary.Names base kind →
      (∀ x ∈ xs, x.WellFormed) → Denotes p ((Shape.elementary kind).wrapAll xs)
  | tuple {p xs ps ss} : p.type = Suffix.written "tuple" xs → p.components = some ps →
      List.Forall₂ Denotes ps ss → (fieldNames ps).Nodup → (∀ x ∈ xs, x.WellFormed) →
      Denotes p ((Shape.struct ((fieldNames ps).zip ss)).wrapAll xs)

/-- The fields of parameters are their names, all different, with their shapes. -/
theorem fieldsFrom_eq_ok_iff {owner : String} {position : Nat} {taken : List String}
    {ps : List Parameter} {fields : Fields} :
    fieldsFrom owner position taken ps = .ok fields ↔
      ∃ ss, List.Forall₂ (fun p s => p.shape = .ok s) ps ss ∧
        (fieldNamesFrom position ps).Nodup ∧ (∀ name ∈ fieldNamesFrom position ps, name ∉ taken) ∧
        fields = (fieldNamesFrom position ps).zip ss := by
  induction ps generalizing position taken fields with
  | nil =>
    constructor
    · intro h
      obtain rfl := Except.pure_eq_ok_iff.1 h
      exact ⟨[], .nil, List.nodup_nil, List.forall_mem_nil _, rfl⟩
    · rintro ⟨ss, -, -, -, rfl⟩
      rfl
  | cons p ps ih =>
    rw [fieldsFrom_cons_eq_ok_iff, fieldNamesFrom]
    constructor
    · rintro ⟨hnew, s, rest, hs, hrest, rfl⟩
      obtain ⟨ss, hss, hnodup, hfree, rfl⟩ := ih.1 hrest
      have hlater : p.fieldName position ∉ fieldNamesFrom (position + 1) ps := by
        intro hmem
        exact hfree _ hmem List.mem_cons_self
      refine ⟨s :: ss, .cons hs hss, List.nodup_cons.2 ⟨hlater, hnodup⟩, ?_, rfl⟩
      refine List.forall_mem_cons.2 ⟨hnew, ?_⟩
      intro name hname htaken
      exact hfree name hname (List.mem_cons_of_mem _ htaken)
    · rintro ⟨_, ⟨⟩ | ⟨hs, hss⟩, hnodup, hfree, rfl⟩
      rw [List.nodup_cons] at hnodup
      rw [List.forall_mem_cons] at hfree
      refine ⟨hfree.1, _, _, hs, ih.2 ⟨_, hss, hnodup.2, ?_, rfl⟩, rfl⟩
      intro name hname
      rw [List.mem_cons, not_or]
      refine ⟨?_, hfree.2 name hname⟩
      rintro rfl
      exact hnodup.1 hname

theorem fieldsFrom_zero_eq_ok_iff {owner : String} {ps : List Parameter} {fields : Fields} :
    fieldsFrom owner 0 [] ps = .ok fields ↔
      ∃ ss, List.Forall₂ (fun p s => p.shape = .ok s) ps ss ∧ (fieldNames ps).Nodup ∧
        fields = (fieldNames ps).zip ss := by
  rw [fieldsFrom_eq_ok_iff]
  refine exists_congr fun ss => and_congr_right fun _ => and_congr_right fun _ => ?_
  exact and_iff_right fun _ _ => List.not_mem_nil

/-- A parameter has the shapes that it denotes if its components do. -/
theorem shape_iff_of_components {p : Parameter} {s : Shape}
    (h : ∀ ps ∈ p.components, ∀ ss,
      List.Forall₂ (fun p s => p.shape = .ok s) ps ss ↔ List.Forall₂ Denotes ps ss) :
    p.shape = .ok s ↔ p.Denotes s := by
  obtain ⟨type, name, indexed, internalType, components⟩ := p
  rw [shape_eq_ok_iff]
  constructor
  · rintro ⟨base, xs, hsplit, hbase⟩
    obtain ⟨-, hxs, htype⟩ := Suffix.split_eq_ok_iff_written.1 hsplit
    rcases hbase with ⟨rfl, ps, fields, hps, hfields, rfl⟩ | ⟨-, kind, hkind, rfl⟩
    · obtain ⟨ss, hss, hnodup, rfl⟩ := fieldsFrom_zero_eq_ok_iff.1 hfields
      exact .tuple htype hps ((h ps hps ss).1 hss) hnodup hxs
    · exact .elementary htype (Elementary.ofName_eq_ok_iff_names.1 hkind) hxs
  · intro hdenotes
    cases hdenotes with
    | @elementary _ base kind xs htype hkind hxs =>
      have hsplit : Suffix.split type = .ok (base, xs) :=
        Suffix.split_eq_ok_iff_written.2 ⟨Elementary.isBase_of_names hkind, hxs, htype⟩
      refine ⟨base, xs, hsplit, .inr ⟨?_, kind, Elementary.ofName_eq_ok_iff_names.2 hkind, rfl⟩⟩
      rintro rfl
      exact Elementary.not_names_tuple hkind
    | @tuple _ xs ps ss htype hps hss hnodup hxs =>
      have hsplit : Suffix.split type = .ok ("tuple", xs) :=
        Suffix.split_eq_ok_iff_written.2 ⟨Suffix.isBase_tuple, hxs, htype⟩
      have hfields : fieldsFrom type 0 [] ps = .ok ((fieldNames ps).zip ss) :=
        fieldsFrom_zero_eq_ok_iff.2 ⟨ss, (h ps hps ss).2 hss, hnodup, rfl⟩
      exact ⟨"tuple", xs, hsplit, .inl ⟨rfl, ps, _, hps, hfields, rfl⟩⟩

mutual

/-- A parameter has the shape that it denotes, and no shape if it denotes none. -/
theorem shape_iff_denotes : ∀ {p : Parameter} {s : Shape}, p.shape = .ok s ↔ p.Denotes s
  | ⟨_, _, _, _, none⟩, _ => shape_iff_of_components nofun
  | ⟨_, _, _, _, some ps⟩, _ => by
    apply shape_iff_of_components
    rintro _ ⟨⟩ ss
    exact forall₂_shape_iff_denotes
termination_by structural p => p

theorem forall₂_shape_iff_denotes : ∀ {ps : List Parameter} {ss : List Shape},
    List.Forall₂ (fun p s => p.shape = .ok s) ps ss ↔ List.Forall₂ Denotes ps ss
  | [], _ => by
    rw [List.forall₂_nil_left_iff, List.forall₂_nil_left_iff]
  | _ :: ps, _ :: ss => by
    rw [List.forall₂_cons, List.forall₂_cons, shape_iff_denotes, forall₂_shape_iff_denotes]
  | _ :: _, [] => by
    simp
termination_by structural ps => ps

end

/-- Suffixes say nothing about what stands before them: behind the same base any others make arrays
of the same shape. -/
theorem Denotes.exists_root {p : Parameter} {s : Shape} (h : p.Denotes s) :
    ∃ (base : String) (xs : List Suffix) (root : Shape),
      (Suffix.IsBase base ∧ (∀ x ∈ xs, x.WellFormed) ∧ p.type = Suffix.written base xs) ∧
      (s = root.wrapAll xs ∧ root.dimensions = 0) ∧
      ∀ ys : List Suffix, (∀ y ∈ ys, y.WellFormed) →
        Denotes { p with type := Suffix.written base ys } (root.wrapAll ys) := by
  cases h with
  | @elementary _ base kind xs htype hkind hxs =>
    refine ⟨base, xs, .elementary kind, ⟨Elementary.isBase_of_names hkind, hxs, htype⟩,
      ⟨rfl, rfl⟩, ?_⟩
    intro ys hys
    exact .elementary rfl hkind hys
  | @tuple _ xs ps ss htype hps hss hnodup hxs =>
    refine ⟨"tuple", xs, .struct ((fieldNames ps).zip ss), ⟨Suffix.isBase_tuple, hxs, htype⟩,
      ⟨rfl, rfl⟩, ?_⟩
    intro ys hys
    exact .tuple rfl hps hss hnodup hys

/-! ### Main statement -/

/-- A parameter has a shape exactly if its type is in the grammar. The arrays of the shape are the
suffixes of the type, the last one outermost. -/
theorem shape_follows_grammar (p : Parameter) (s : Shape) :
    (p.shape = .ok s ↔ p.Denotes s) ∧
    (p.shape = .ok s → s.WellFormed ∧ ∃ (base : String) (xs : List Suffix) (root : Shape),
      (Suffix.IsBase base ∧ (∀ x ∈ xs, x.WellFormed) ∧ p.type = Suffix.written base xs) ∧
      s = root.wrapAll xs ∧ s.dimensions = xs.length ∧
      ∀ kept removed, kept ++ removed = xs → s.peel? removed.length = some (root.wrapAll kept) ∧
        Parameter.shape { p with type := Suffix.written base kept } = .ok (root.wrapAll kept)) := by
  refine ⟨shape_iff_denotes, ?_⟩
  intro h
  obtain ⟨base, xs, root, htype, ⟨rfl, hroot⟩, hothers⟩ := (shape_iff_denotes.1 h).exists_root
  refine ⟨wellFormed_of_shape h, base, xs, root, htype, rfl, ?_, ?_⟩
  · rw [Shape.dimensions_wrapAll, hroot, Nat.zero_add]
  · rintro kept removed rfl
    constructor
    · rw [Shape.wrapAll_append, Shape.peel?_wrapAll]
    · apply shape_iff_denotes.2
      apply hothers
      exact fun x hx => htype.2.1 x (List.mem_append_left _ hx)

/-- An array of pairs of tuples, one field of which has no name. -/
theorem shape_follows_grammar_of_tuples :
    let p : Parameter := ⟨"tuple[2][]", "t", false, none,
      some [.plain "uint" "", ⟨"tuple", "b", false, none, some [.plain "bytes4[]" "c"]⟩]⟩
    let pair : Shape := .fixedArray (.struct [("0", .elementary (.integer false 256)),
      ("b", .struct [("c", .dynamicArray (.elementary (.bytes (some 4))))])]) 2
    p.shape = .ok (.dynamicArray pair) ∧ p.Denotes (.dynamicArray pair) ∧
      pair.dynamicArray.WellFormed ∧ ∃ (base : String) (xs : List Suffix) (root : Shape),
        (Suffix.IsBase base ∧ (∀ x ∈ xs, x.WellFormed) ∧ p.type = Suffix.written base xs) ∧
        pair.dynamicArray = root.wrapAll xs ∧ pair.dynamicArray.dimensions = xs.length ∧
        ∀ kept removed, kept ++ removed = xs →
          pair.dynamicArray.peel? removed.length = some (root.wrapAll kept) ∧
          Parameter.shape { p with type := Suffix.written base kept } =
            .ok (root.wrapAll kept) := by
  intro p pair
  have hshape : p.shape = .ok (.dynamicArray pair) := by with_unfolding_all rfl
  obtain ⟨hdenotes, hgrammar⟩ := shape_follows_grammar p (.dynamicArray pair)
  exact ⟨hshape, hdenotes.1 hshape, hgrammar hshape⟩

end Parameter

end ContractAbi
