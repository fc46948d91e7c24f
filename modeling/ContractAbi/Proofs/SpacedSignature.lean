import ContractAbi.Proofs.Overloads

/-!
# Signatures with spaces

The types in a signature are compared in their canonical form, in which the gaps between them are
gone. So gaps beside the marks of a signature select the same function, unless all that is in the
parentheses is a gap: this is taken for a type, which no function has.
Main statement: `Descriptor.functionByTypes_spaced_iff`.
-/

namespace ContractAbi

/-! ### Lists of types -/

/-- Shapes as the fields of a tuple, without names. -/
def Fields.unnamed (ss : List Shape) : Fields :=
  ss.map fun s => ("", s)

namespace Shape

theorem canonicalFields_unnamed (ss : List Shape) :
    canonicalFields (.unnamed ss) = ss.map canonicalChars := by
  induction ss with
  | nil => rfl
  | cons s ss ih =>
    show s.canonicalChars :: canonicalFields (.unnamed ss) = _
    rw [ih, List.map_cons]

theorem wellFormedFields_unnamed {ss : List Shape} (h : ∀ s ∈ ss, s.WellFormed) :
    WellFormedFields (.unnamed ss) := by
  induction ss with
  | nil => trivial
  | cons s ss ih =>
    rw [List.forall_mem_cons] at h
    exact ⟨h.1, ih h.2⟩

end Shape

/-! ### The types in a signature with gaps -/

/-- A gap alone in the parentheses counts as one type. -/
theorem signatureTypes_of_spaces {signature : String} {name : List Char} {n : Nat}
    (hname : '(' ∉ name) (h : signature.toList = name ++ '(' :: (Text.spaces n ++ [')'])) :
    signatureTypes signature = if n = 0 then [] else [String.ofList (Text.spaces n)] := by
  have hcut : Text.cutChars '(' signature.toList = some (name, Text.spaces n ++ [')']) :=
    Text.cutChars_eq_some_iff.2 ⟨h, hname⟩
  have hclose : Text.closeChars 0 (Text.spaces n ++ [')']) = some (Text.spaces n, []) :=
    Text.closeChars_group (Text.isMember_spaces n).balanced []
  have hopen : '(' ∉ Text.spaces n := Text.not_mem_spaces (by decide)
  rw [signatureTypes, hcut]
  simp only [hclose]
  rw [if_neg hopen]
  by_cases hn : n = 0
  · subst hn
    rfl
  · have hgap : Text.spaces n ≠ [] := by simpa [Text.spaces] using hn
    have hcomma : ',' ∉ Text.spaces n := Text.not_mem_spaces (by decide)
    have htext : String.ofList (Text.spaces n) ≠ "," := by
      intro e
      rw [← String.toList_inj, String.toList_ofList] at e
      rw [e] at hcomma
      exact hcomma (by decide)
    rw [if_neg hn, if_neg hgap, Text.split_eq_splitOn (d := ',') (by decide) htext,
      String.toList_ofList, List.splitOn_eq_singleton hcomma, List.map_singleton]

theorem canonicalText_spaces (n : Nat) : canonicalText (String.ofList (Text.spaces n)) = "" := by
  have hnil : Text.trimmed (Text.spaces n) = [] := Text.trimmed_spaces n
  rw [canonicalText, String.toList_ofList, canonicalChars_plain (by simp [hnil]), hnil]
  decide

/-- The parentheses are closed at once exactly if there is no gap in them. -/
theorem exists_append_parens_iff {t : String} {name : List Char} {n : Nat}
    (h : t.toList = name ++ '(' :: (Text.spaces n ++ [')'])) :
    (∃ start, t = start ++ "()") ↔ n = 0 := by
  constructor
  · rintro ⟨start, rfl⟩
    have hparens : "()".toList = ['('] ++ [')'] := rfl
    rw [String.toList_append, hparens, ← List.append_assoc, ← List.cons_append,
      ← List.append_assoc] at h
    have hlast := congrArg List.getLast? (List.append_inj_left' h rfl)
    cases n with
    | zero => rfl
    | succ n =>
      rw [Text.spaces_add, ← List.cons_append, ← List.append_assoc, List.getLast?_concat] at hlast
      have hspace : some '(' = some ' ' := hlast.trans List.getLast?_concat
      exact absurd hspace (by decide)
  · rintro rfl
    refine ⟨String.ofList name, ?_⟩
    rw [← String.toList_inj, h, String.toList_append, String.toList_ofList]
    rfl

namespace Function

variable {f : Function} {t : String} {ss : List Shape}

/-- Gaps beside the marks do not change what the types in a signature are, if there are any. -/
theorem map_canonicalText_signatureTypes_of_spaced (hname : '(' ∉ f.name.toList)
    (hshapes : Parameter.shapes f.inputs = .ok ss) (hne : ss ≠ [])
    (h : Text.Spaced f.signature.toList t.toList) :
    (signatureTypes t).map canonicalText = Parameter.canonicalTypes f.inputs := by
  rw [toList_signature hshapes] at h
  obtain ⟨name, group, hnamed, hgroup, htext⟩ := h.of_append
  obtain ⟨m, n, inner, rest, hinner, -, rfl⟩ := hgroup.of_group
  -- with the gaps at its ends the list is the one of spellings of the types
  rw [← Shape.canonicalFields_unnamed] at hinner
  obtain ⟨pieces, hpieces, e⟩ := Shape.spellsMembers_of_spaced m n (by simpa [Fields.unnamed])
    (Shape.wellFormedFields_unnamed (Parameter.wellFormed_of_shapes hshapes)) hinner
  rw [e] at htext
  have hmembers : ∀ x ∈ pieces, Text.IsMember x ∧ Text.trimmed x ≠ [] := fun x hx =>
    ⟨hpieces.isMember x hx, hpieces.trimmed_ne_nil x hx⟩
  rw [signatureTypes_of_members (hnamed.not_mem (by decide) hname) hmembers htext,
    Parameter.canonicalTypes_eq_of_shapes hshapes, ← Shape.canonicalFields_unnamed,
    ← Shape.map_canonicalChars_of_spellsMembers hpieces, List.map_map, List.map_map]
  simp [Function.comp_def, canonicalText]

/-- Without inputs there is only one place for a gap behind the name. -/
theorem toList_of_spaced_of_nil (hinputs : f.inputs = [])
    (h : Text.Spaced f.signature.toList t.toList) :
    ∃ name n, Text.Spaced f.name.toList name ∧
      t.toList = name ++ '(' :: (Text.spaces n ++ [')']) := by
  have hshapes : Parameter.shapes f.inputs = .ok [] := by
    rw [hinputs]
    rfl
  rw [toList_signature hshapes] at h
  obtain ⟨name, group, hnamed, hgroup, htext⟩ := h.of_append
  obtain ⟨m, n, inner, rest, hinner, hrest, rfl⟩ := hgroup.of_group
  cases hinner
  cases hrest
  refine ⟨name, m + n, hnamed, ?_⟩
  rw [htext, Text.spaces_add]
  simp

end Function

/-! ### Looking a function up -/

namespace Overloads

/-- Types are compared in their canonical form. -/
theorem byInputTypes_congr {o : Overloads} {types others : List String}
    (h : types.map canonicalText = others.map canonicalText) :
    o.byInputTypes types = o.byInputTypes others := by
  rw [byInputTypes, h, byInputTypes]

/-- No function whose inputs have shapes is selected by an empty type. -/
theorem byInputTypes_of_empty {o : Overloads} {types : List String}
    (hshapes : ∀ g ∈ o.candidates, ∃ ss, Parameter.shapes g.inputs = .ok ss)
    (h : types.map canonicalText = [""]) :
    o.byInputTypes types = .error (.entryNotFound .function o.name) := by
  have hnone : (o.candidates.filter fun g =>
      Parameter.canonicalTypes g.inputs = types.map canonicalText) = [] := by
    rw [List.filter_eq_nil_iff]
    intro g hg htypes
    obtain ⟨ss, hss⟩ := hshapes g hg
    have hmem : "" ∈ Parameter.canonicalTypes g.inputs := by
      rw [of_decide_eq_true htypes, h]
      exact List.mem_singleton_self ""
    rw [Parameter.canonicalTypes_eq_of_shapes hss, List.map_map, List.mem_map] at hmem
    obtain ⟨s, -, hs⟩ := hmem
    exact s.canonicalChars_ne_nil (String.ofList_eq_empty_iff.1 hs)
  rw [byInputTypes, hnone]
  rfl

end Overloads

namespace Descriptor

theorem functionByTypes_of_mem {d : Descriptor} {f : Function} (hf : f ∈ d.functions)
    (types : List String) : d.functionByTypes f.name types =
      Overloads.byInputTypes ⟨f.name, d.functions.filter (·.name = f.name)⟩ types := by
  rw [functionByTypes, function_of_mem hf]
  rfl

section Spaced

variable {d : Descriptor} {f : Function} {t : String} (hf : f ∈ d.functions)
  (hname : '(' ∉ f.name.toList)
  (hshapes : ∀ g ∈ d.functions, g.name = f.name → ∃ ss, Parameter.shapes g.inputs = .ok ss)
  (hspaced : Text.Spaced f.signature.toList t.toList)

include hf hname hshapes

/-- What its own signature selects may be one function of many, but there is one. -/
theorem functionByTypes_signature_ne :
    d.functionByTypes f.name (signatureTypes f.signature) ≠
      .error (.entryNotFound .function f.name) := by
  obtain ⟨ss, hss⟩ := hshapes f hf rfl
  have hmem : f ∈ (d.functions.filter (·.name = f.name)).filter fun g =>
      Parameter.canonicalTypes g.inputs = (signatureTypes f.signature).map canonicalText := by
    rw [Function.signatureTypes_signature hname hss,
      Parameter.map_canonicalText_canonicalTypes hss]
    simpa using hf
  rw [functionByTypes_of_mem hf, Overloads.byInputTypes, (Overloads.unique_of_mem hmem).2]
  split <;> simp

include hspaced

theorem functionByTypes_of_spaced (h : f.inputs ≠ [] ∨ ∃ start, t = start ++ "()") :
    d.functionByTypes f.name (signatureTypes t) =
      d.functionByTypes f.name (signatureTypes f.signature) := by
  obtain ⟨ss, hss⟩ := hshapes f hf rfl
  rw [functionByTypes_of_mem hf, functionByTypes_of_mem hf]
  apply Overloads.byInputTypes_congr
  rw [Function.signatureTypes_signature hname hss, Parameter.map_canonicalText_canonicalTypes hss]
  by_cases hinputs : f.inputs = []
  · obtain ⟨name, n, hnamed, htext⟩ := Function.toList_of_spaced_of_nil hinputs hspaced
    obtain rfl := (exists_append_parens_iff htext).1 (h.resolve_left (not_not_intro hinputs))
    rw [signatureTypes_of_spaces (hnamed.not_mem (by decide) hname) htext, hinputs]
    rfl
  · refine Function.map_canonicalText_signatureTypes_of_spaced hname hss ?_ hspaced
    rintro rfl
    exact hinputs (List.length_eq_zero_iff.1 (Parameter.length_of_shapes hss).symm)

theorem functionByTypes_of_gap (h : ¬(f.inputs ≠ [] ∨ ∃ start, t = start ++ "()")) :
    d.functionByTypes f.name (signatureTypes t) = .error (.entryNotFound .function f.name) := by
  rw [not_or, not_not] at h
  obtain ⟨hinputs, hend⟩ := h
  obtain ⟨name, n, hnamed, htext⟩ := Function.toList_of_spaced_of_nil hinputs hspaced
  rw [exists_append_parens_iff htext] at hend
  rw [functionByTypes_of_mem hf,
    signatureTypes_of_spaces (hnamed.not_mem (by decide) hname) htext, if_neg hend]
  apply Overloads.byInputTypes_of_empty
  · intro g hg
    obtain ⟨hmem, hsame⟩ := List.mem_filter.1 hg
    exact hshapes g hmem (of_decide_eq_true hsame)
  · rw [List.map_singleton, canonicalText_spaces]

end Spaced

/-! ### Main statement -/

/-- Gaps beside the marks of the signature of a function select what the signature selects, unless
the function has no inputs and there is a gap in the parentheses. Then nothing is found. -/
theorem functionByTypes_spaced_iff {d : Descriptor} {f : Function} {t : String}
    (hf : f ∈ d.functions) (hname : '(' ∉ f.name.toList)
    (hshapes : ∀ g ∈ d.functions, g.name = f.name → ∃ ss, Parameter.shapes g.inputs = .ok ss)
    (hspaced : Text.Spaced f.signature.toList t.toList) :
    (d.functionByTypes f.name (signatureTypes t) =
        d.functionByTypes f.name (signatureTypes f.signature) ↔
      f.inputs ≠ [] ∨ ∃ start, t = start ++ "()") ∧
    (¬(f.inputs ≠ [] ∨ ∃ start, t = start ++ "()") →
      d.functionByTypes f.name (signatureTypes t) = .error (.entryNotFound .function f.name)) := by
  refine ⟨⟨?_, functionByTypes_of_spaced hf hname hshapes hspaced⟩,
    functionByTypes_of_gap hf hname hshapes hspaced⟩
  intro hsame
  by_contra hgap
  rw [functionByTypes_of_gap hf hname hshapes hspaced hgap] at hsame
  exact functionByTypes_signature_ne hf hname hshapes hsame.symm

/-- A signature with a tuple in a tuple that is written with gaps, and another function of the
name. -/
theorem functionByTypes_spaced_iff_of_tuples :
    let inner : Parameter := ⟨"tuple", "", false, none, some [.plain "bool" ""]⟩
    let outer : Parameter := ⟨"tuple[2]", "", false, none, some [.plain "uint" "", inner]⟩
    let f : Function := ⟨"f", [outer, .plain "int8[]" ""], [], .view⟩
    let g : Function := ⟨"f", [], [], .view⟩
    let d : Descriptor := ⟨[.function g, .function f]⟩
    let t := "f( (uint256 ,(bool ))[2],  int8[])"
    (f ∈ d.functions ∧ '(' ∉ f.name.toList ∧
      (∀ k ∈ d.functions, k.name = f.name → ∃ ss, Parameter.shapes k.inputs = .ok ss) ∧
      Text.Spaced f.signature.toList t.toList) ∧
      d.functionByTypes f.name (signatureTypes f.signature) = .ok f ∧
      d.functionByTypes f.name (signatureTypes t) = .ok f := by
  intro inner outer f g d t
  have hf : f ∈ d.functions := by simp [d, functions, Entry.function?]
  have hname : '(' ∉ f.name.toList := by decide
  have hshapes : ∀ k ∈ d.functions, k.name = f.name →
      ∃ ss, Parameter.shapes k.inputs = .ok ss := by
    show ∀ k ∈ [g, f], _
    simp only [List.forall_mem_cons]
    refine ⟨fun _ => ⟨[], rfl⟩, fun _ => ⟨[.fixedArray (.struct [
      ("0", .elementary (.integer false 256)), ("1", .struct [("0", .elementary .bool)])]) 2,
      .dynamicArray (.elementary (.integer true 8))], ?_⟩, by simp⟩
    with_unfolding_all rfl
  have hsignature : f.signature = "f((uint256,(bool))[2],int8[])" := rfl
  have hspaced : Text.Spaced f.signature.toList t.toList := by
    have hlast := Text.Spaced.cons (c := ',') 0 2 (.inl rfl) (.inr (.inr rfl))
      (.refl "int8[])".toList)
    have hbool := Text.Spaced.cons (c := ')') 1 0 (.inr (.inr rfl)) (.inl rfl)
      ((Text.Spaced.refl ")[2]".toList).append hlast)
    have huint := Text.Spaced.cons (c := ',') 1 0 (.inr (.inl rfl)) (.inl rfl)
      ((Text.Spaced.refl "(bool".toList).append hbool)
    have hopen := Text.Spaced.cons (c := '(') 0 1 (.inl rfl) (.inr (.inl rfl))
      ((Text.Spaced.refl "(uint256".toList).append huint)
    rw [hsignature]
    simpa [t, Text.spaces] using (Text.Spaced.refl ['f']).append hopen
  have hfound : d.functionByTypes f.name (signatureTypes f.signature) = .ok f := by
    have htypes : signatureTypes "f((uint256,(bool))[2],int8[])" =
        ["(uint256,(bool))[2]", "int8[]"] := by with_unfolding_all rfl
    rw [functionByTypes_of_mem hf, hsignature, htypes]
    with_unfolding_all rfl
  refine ⟨⟨hf, hname, hshapes, hspaced⟩, hfound, ?_⟩
  have hinputs : f.inputs ≠ [] := List.cons_ne_nil outer _
  rw [(functionByTypes_spaced_iff hf hname hshapes hspaced).1.2 (.inl hinputs), hfound]

/-- A function without inputs is not found by its signature with a space in the parentheses. -/
theorem functionByTypes_spaced_ne :
    let f : Function := ⟨"f", [], [], .nonpayable⟩
    let d : Descriptor := ⟨[.function f]⟩
    f ∈ d.functions ∧ '(' ∉ f.name.toList ∧
      (∀ g ∈ d.functions, g.name = f.name → ∃ ss, Parameter.shapes g.inputs = .ok ss) ∧
      Text.Spaced f.signature.toList "f( )".toList ∧
      d.functionByTypes f.name (signatureTypes f.signature) = .ok f ∧
      d.functionByTypes f.name (signatureTypes "f( )") ≠
        d.functionByTypes f.name (signatureTypes f.signature) := by
  intro f d
  have hsignature : f.signature = "f()" := rfl
  have hspaced : Text.Spaced f.signature.toList "f( )".toList := by
    rw [hsignature]
    exact .cons 0 0 (.inl rfl) (.inl rfl) (.cons 0 1 (.inl rfl) (.inr (.inl rfl))
      (.cons 0 0 (.inl rfl) (.inl rfl) .nil))
  have hfound : d.functionByTypes f.name (signatureTypes f.signature) = .ok f := by
    rw [hsignature]
    dsimp only [d, f]
    with_unfolding_all rfl
  have hmissed : d.functionByTypes f.name (signatureTypes "f( )") =
      .error (.entryNotFound .function "f") := by with_unfolding_all rfl
  refine ⟨by simp [d, functions, Entry.function?], by decide, ?_, hspaced, hfound, ?_⟩
  · intro g hg _
    obtain rfl : g = f := by simpa [d, functions, Entry.function?] using hg
    exact ⟨[], rfl⟩
  · rw [hfound, hmissed]
    intro h
    cases h

end Descriptor

end ContractAbi
