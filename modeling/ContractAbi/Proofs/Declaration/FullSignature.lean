import ContractAbi.Proofs.Declaration.Heading
import ContractAbi.Proofs.Shape.Display

/-!
# Full signatures are declarations

The full signature of a function is written without the keyword, without names and without a
mutability, in canonical types. Read as a declaration it declares a function that has the same
signature and the same shape: `Parameter.canonical` keeps both, and no space is in the text, so no
part of it is taken for a name or a keyword. Main statement: `Function.ofDeclaration_fullSignature`.
-/

namespace ContractAbi

namespace Parameter

/-! ### Parameters in canonical form -/

/-- A parameter of the same canonical type, without a name or anything else. -/
def canonical (p : Parameter) : Parameter :=
  plain p.canonicalType ""

/-- Whether a parameter has a shape that is free of tuples. -/
def TupleFree (p : Parameter) : Prop :=
  p.isTuple = false ∧ ∃ s, p.shape = .ok s

/-- Without tuples the type alone tells the shape. -/
theorem shape_plain_of_not_isTuple {p : Parameter} {s : Shape} (htuple : p.isTuple = false)
    (h : p.shape = .ok s) : (plain p.type "").shape = .ok s := by
  obtain ⟨type, name, indexed, internalType, components⟩ := p
  obtain ⟨base, xs, hsplit, hbase⟩ := shape_eq_ok_iff.1 h
  refine shape_eq_ok_iff.2 ⟨base, xs, hsplit, ?_⟩
  rcases hbase with ⟨rfl, -⟩ | hbase
  · have hroot : Parameter.rootType ⟨type, name, indexed, internalType, components⟩ = "tuple" :=
      rootType_of_split hsplit
    rw [isTuple, hroot] at htuple
    cases htuple
  · exact .inr hbase

/-- The canonical type of a parameter has its shape. -/
theorem shape_canonical {p : Parameter} {s : Shape} (htuple : p.isTuple = false)
    (h : p.shape = .ok s) : p.canonical.shape = .ok s := by
  have hplain := shape_plain_of_not_isTuple htuple h
  obtain ⟨hdisplay, hcanonical, hshape⟩ := display_eq_canonicalText hplain
  have htype : p.canonicalType = s.display := by
    rw [hdisplay, hcanonical, ← String.toList_inj, canonicalType_of_shape h,
      canonicalType_of_shape hplain]
  unfold canonical
  rw [htype]
  exact hshape

theorem canonicalType_canonical {p : Parameter} (h : p.TupleFree) :
    p.canonical.canonicalType = p.canonicalType := by
  obtain ⟨htuple, s, hs⟩ := h
  rw [← String.toList_inj, canonicalType_of_shape (shape_canonical htuple hs),
    canonicalType_of_shape hs]

theorem isWord_canonicalType {p : Parameter} (h : p.TupleFree) :
    Text.IsWord p.canonicalType := by
  obtain ⟨htuple, s, hs⟩ := h
  exact isWord_of_shape (shape_canonical htuple hs)

/-! ### Lists in canonical form -/

theorem canonicalTypes_eq_map (ps : List Parameter) :
    canonicalTypes ps = ps.map canonicalType := by
  induction ps with
  | nil => rfl
  | cons p ps ih => exact congrArg (p.canonicalType :: ·) ih

theorem canonicalList_map_canonical {ps : List Parameter} (h : ∀ p ∈ ps, p.TupleFree) :
    canonicalList (ps.map canonical) = canonicalList ps := by
  unfold canonicalList
  rw [canonicalTypes_eq_map, canonicalTypes_eq_map, List.map_map]
  exact congrArg _ (List.map_congr_left fun p hp => canonicalType_canonical (h p hp))

theorem shapes_map_canonical {ps : List Parameter} (h : ∀ p ∈ ps, p.TupleFree) :
    ∃ ss, shapes ps = .ok ss ∧ shapes (ps.map canonical) = .ok ss := by
  induction ps with
  | nil => exact ⟨[], rfl, rfl⟩
  | cons p ps ih =>
    rw [List.forall_mem_cons] at h
    obtain ⟨⟨htuple, s, hs⟩, hps⟩ := h
    obtain ⟨ss, hss, hcanonical⟩ := ih hps
    exact ⟨s :: ss, shapes_cons_eq_ok_iff.2 ⟨s, ss, hs, hss, rfl⟩,
      shapes_cons_eq_ok_iff.2 ⟨s, ss, shape_canonical htuple hs, hcanonical, rfl⟩⟩

theorem toList_canonicalList_eq (ps : List Parameter) : (canonicalList ps).toList =
    List.intercalate [','] (ps.map fun p => p.canonicalType.toList) := by
  unfold canonicalList
  rw [String.toList_intercalate, canonicalTypes_eq_map, List.map_map]
  rfl

/-- Neither a space nor a parenthesis is in a list of canonical types. -/
theorem mem_canonicalList {ps : List Parameter} (h : ∀ p ∈ ps, p.TupleFree) :
    ∀ c ∈ (canonicalList ps).toList, c ≠ ' ' ∧ c ≠ '(' ∧ c ≠ ')' := by
  rw [toList_canonicalList_eq]
  apply Text.forall_mem_intercalate (P := fun c => c ≠ ' ' ∧ c ≠ '(' ∧ c ≠ ')')
  · simp
  · intro piece hpiece c hc
    obtain ⟨p, hp, rfl⟩ := List.mem_map.1 hpiece
    obtain ⟨hspace, -, hparens⟩ := (isWord_canonicalType (h p hp)).2 c hc
    exact ⟨hspace, hparens⟩

/-- A list of canonical types declares the parameters in canonical form. -/
theorem listOfText_canonicalList {ps : List Parameter} (h : ∀ p ∈ ps, p.TupleFree) :
    listOfText (canonicalList ps) = .ok (ps.map canonical) := by
  cases ps with
  | nil => exact listOfText_empty
  | cons p ps =>
    have hword : ∀ q ∈ p :: ps, Text.IsWord q.canonicalType :=
      fun q hq => isWord_canonicalType (h q hq)
    have htext := toList_canonicalList_eq (p :: ps)
    -- the first type has a character that is neither a space nor a comma
    obtain ⟨c, hc⟩ : ∃ c, c ∈ p.canonicalType.toList :=
      List.exists_mem_of_ne_nil _ (by simpa using (hword p List.mem_cons_self).1)
    obtain ⟨hspace, hcomma, -⟩ := (hword p List.mem_cons_self).2 c hc
    have hmem : c ∈ (canonicalList (p :: ps)).toList := by
      rw [htext]
      exact Text.mem_intercalate List.mem_cons_self hc
    have hblank : Text.trim (canonicalList (p :: ps)) ≠ "" := by
      rw [Ne, Text.trim_eq_empty_iff]
      exact fun hall => hspace (hall c hmem)
    have hne : canonicalList (p :: ps) ≠ "," := by
      intro e
      rw [e] at hmem
      exact hcomma (by simpa using hmem)
    rw [listOfText_eq_ok_iff hblank hne, htext, List.splitOn_intercalate, List.forall₂_map_left_iff,
      List.forall₂_map_right_iff, List.forall₂_same]
    · intro q hq
      refine ⟨(hword q hq).open_not_mem, ?_⟩
      rw [(hword q hq).words, List.map_singleton, String.ofList_toList]
      exact .type
    · intro piece hpiece hc
      obtain ⟨q, hq, rfl⟩ := List.mem_map.1 hpiece
      exact ((hword q hq).2 _ hc).2.1 rfl
    · simp

end Parameter

namespace Function

open Mutability (keywords)

/-- The function that a full signature declares. -/
def canonical (f : Function) : Function :=
  ⟨f.name, f.inputs.map Parameter.canonical, f.outputs.map Parameter.canonical, .nonpayable⟩

/-- The part of the full signature behind the inputs. -/
def outputGroup (f : Function) : String :=
  "(" ++ Parameter.canonicalList f.outputs ++ ")"

theorem toList_fullSignature (f : Function) : f.fullSignature.toList =
    f.name.toList ++ '(' :: ((Parameter.canonicalList f.inputs).toList ++
      ')' :: f.outputGroup.toList) := by
  simp [fullSignature, signature, outputGroup]

theorem trim_fullSignature {f : Function} (hname : isIdentifier f.name)
    (h : ∀ p ∈ f.inputs ++ f.outputs, p.TupleFree) :
    Text.trim f.fullSignature = f.fullSignature := by
  rw [List.forall_mem_append] at h
  have hlist : ∀ {ps : List Parameter}, (∀ p ∈ ps, p.TupleFree) →
      ' ' ∉ (Parameter.canonicalList ps).toList :=
    fun hps hc => (Parameter.mem_canonicalList hps _ hc).1 rfl
  apply Text.trim_of_not_mem
  rw [toList_fullSignature]
  simpa [outputGroup] using
    ⟨(isWord_of_isIdentifier hname).space_not_mem, hlist h.1, hlist h.2⟩

theorem declaresOutputs_outputGroup {f : Function} (h : ∀ p ∈ f.outputs, p.TupleFree) :
    DeclaresOutputs f.outputGroup.toList (f.outputs.map Parameter.canonical) := by
  have hlist := Parameter.listOfText_canonicalList h
  rw [← String.ofList_toList (s := Parameter.canonicalList f.outputs)] at hlist
  have hgroup := @DeclaresOutputs.group [] _ [] _ List.not_mem_nil
    (fun c hc => (Parameter.mem_canonicalList h c hc).2) hlist
  simpa [outputGroup] using hgroup

/-- The outputs are a single word, and its parentheses keep it from being a keyword. -/
theorem keywords_outputGroup {f : Function} (h : ∀ p ∈ f.outputs, p.TupleFree) :
    keywords f.outputGroup.toList = [] := by
  have hspace : ' ' ∉ f.outputGroup.toList := by
    simpa [outputGroup] using fun hc => (Parameter.mem_canonicalList h _ hc).1 rfl
  exact Mutability.keywords_eq_nil_of_mem (c := '(') hspace (by simp [outputGroup]) (by decide)

/-- What a full signature declares. -/
theorem ofDeclaration_fullSignature_eq {f : Function} (mode : Mode) (hname : isIdentifier f.name)
    (hreserved : f.name ∉ reservedNames) (h : ∀ p ∈ f.inputs ++ f.outputs, p.TupleFree) :
    Entry.ofDeclaration mode f.fullSignature = .ok (.function f.canonical) := by
  have htext := toList_fullSignature f
  rw [← trim_fullSignature hname h] at htext
  rw [List.forall_mem_append] at h
  have hhead : Heading.kindAndName? f.name = some (.function, f.name) :=
    Heading.kindAndName?_bare hname hreserved (n := 0) (by simp [Text.spaces]) fun _ => rfl
  rw [Entry.ofDeclaration_eq_ok_iff_of_parts htext (isWord_of_isIdentifier hname).open_not_mem hhead
    (.inr hname) (fun c hc => (Parameter.mem_canonicalList h.1 c hc).2)
    (Parameter.listOfText_canonicalList h.1)]
  constructor
  · apply Entry.MadeOf.function (declaresOutputs_outputGroup h.2)
    rw [keywords_outputGroup h.2]
    exact Mutability.told_nil mode
  · apply Entry.refuseIndexed_eq_ok_iff.2
    right
    intro p hp
    simp only [Entry.inputs, Entry.outputs, canonical, ← List.map_append] at hp
    obtain ⟨q, -, rfl⟩ := List.mem_map.1 hp
    rfl

/-! ### What is kept -/

theorem signature_canonical {f : Function} (h : ∀ p ∈ f.inputs, p.TupleFree) :
    f.canonical.signature = f.signature := by
  unfold signature canonical
  rw [Parameter.canonicalList_map_canonical h]

theorem fullSignature_canonical {f : Function} (h : ∀ p ∈ f.inputs ++ f.outputs, p.TupleFree) :
    f.canonical.fullSignature = f.fullSignature := by
  rw [List.forall_mem_append] at h
  unfold fullSignature
  rw [signature_canonical h.1]
  unfold canonical
  rw [Parameter.canonicalList_map_canonical h.2]

theorem shape_canonical {f : Function} (h : ∀ p ∈ f.inputs ++ f.outputs, p.TupleFree) :
    ∃ s, f.shape = .ok s ∧ f.canonical.shape = .ok s := by
  rw [List.forall_mem_append] at h
  obtain ⟨inputs, hinputs, hinputs'⟩ := Parameter.shapes_map_canonical h.1
  obtain ⟨outputs, houtputs, houtputs'⟩ := Parameter.shapes_map_canonical h.2
  refine ⟨⟨inputs, .ofShapes outputs⟩, ?_, ?_⟩
  · unfold shape
    rw [hinputs, houtputs]
    rfl
  · unfold shape canonical
    rw [hinputs', houtputs']
    rfl

/-! ### Main statement -/

/-- In both modes the full signature of a function is a declaration of a function with the same
signatures, the same selector and the same shape. -/
theorem ofDeclaration_fullSignature {f : Function} (hname : isIdentifier f.name)
    (hreserved : f.name ∉ reservedNames) (h : ∀ p ∈ f.inputs ++ f.outputs, p.TupleFree)
    (mode : Mode) :
    ∃ g s, Entry.ofDeclaration mode f.fullSignature = .ok (.function g) ∧
      g.signature = f.signature ∧ g.fullSignature = f.fullSignature ∧ g.selector = f.selector ∧
      f.shape = .ok s ∧ g.shape = .ok s := by
  have hsignature := signature_canonical (List.forall_mem_append.1 h).1
  obtain ⟨s, hf, hg⟩ := shape_canonical h
  refine ⟨f.canonical, s, ofDeclaration_fullSignature_eq mode hname hreserved h, hsignature,
    fullSignature_canonical h, ?_, hf, hg⟩
  unfold selector
  rw [hsignature]

/-- A function that is called like a keyword, with integers of the full width under their short
names. -/
theorem ofDeclaration_fullSignature_of_function :
    let f : Function := ⟨"function",
      [.plain "uint[2]" "view", ⟨"function", "", false, some "fn", some []⟩],
      [.plain "int" "payable"], .view⟩
    isIdentifier f.name ∧ f.name ∉ reservedNames ∧
      (∀ p ∈ f.inputs ++ f.outputs, p.TupleFree) ∧
      ∃ g s, Entry.ofDeclaration .strict f.fullSignature = .ok (.function g) ∧
        g.signature = f.signature ∧ g.fullSignature = f.fullSignature ∧ g.selector = f.selector ∧
        f.shape = .ok s ∧ g.shape = .ok s := by
  intro f
  have hname : isIdentifier f.name := by decide
  have hreserved : f.name ∉ reservedNames := by decide
  have h : ∀ p ∈ f.inputs ++ f.outputs, p.TupleFree := by
    simp only [f, List.cons_append, List.nil_append, List.forall_mem_cons]
    refine ⟨⟨by decide, .fixedArray (.elementary (.integer false 256)) 2, ?_⟩,
      ⟨by decide, .elementary .function, ?_⟩, ⟨by decide, .elementary (.integer true 256), ?_⟩,
      List.forall_mem_nil _⟩ <;>
      with_unfolding_all rfl
  exact ⟨hname, hreserved, h, ofDeclaration_fullSignature hname hreserved h .strict⟩

end Function

end ContractAbi
