import ContractAbi.Descriptor
import ContractAbi.Proofs.Shape.CanonicalText
import ContractAbi.Proofs.Signature

/-!
# Functions by their signatures

A signature that is taken apart and looked up finds the function that it was written for, or, where
several functions have it, these and no others.
-/

namespace ContractAbi

/-! ### The types in a signature -/

/-- A text without parentheses has its members between all its commas. -/
theorem Text.split_intercalate {xs : List (List Char)}
    (h : ∀ x ∈ xs, IsMember x ∧ trimmed x ≠ []) (hne : xs ≠ [])
    (hopen : '(' ∉ List.intercalate [','] xs) :
    split (String.ofList (List.intercalate [','] xs)) "," = xs.map String.ofList := by
  have hcomma : ∀ x ∈ xs, ',' ∉ x := by
    intro x hx
    apply (h x hx).1.comma_not_mem
    intro hc
    exact hopen (mem_intercalate hx hc)
  have htext : String.ofList (List.intercalate [','] xs) ≠ "," := by
    intro e
    -- the two members of a single comma are empty
    have hempty : [] ∈ topLevel (List.intercalate [','] xs) := by
      rw [← String.toList_inj, String.toList_ofList] at e
      rw [e]
      decide
    rw [topLevel_intercalate h] at hempty
    exact (h [] hempty).2 rfl
  rw [split_eq_splitOn (d := ',') (by decide) htext, String.toList_ofList,
    List.splitOn_intercalate _ hcomma hne]

/-- A list of members is taken apart in one of two ways, depending on whether there are parentheses
in it. Both give the members back. -/
theorem signatureTypes_of_members {signature : String} {name rest : List Char}
    {xs : List (List Char)} (hname : '(' ∉ name)
    (h : ∀ x ∈ xs, Text.IsMember x ∧ Text.trimmed x ≠ [])
    (htext : signature.toList = name ++ '(' :: (List.intercalate [','] xs ++ ')' :: rest)) :
    signatureTypes signature = xs.map String.ofList := by
  have hcut : Text.cutChars '(' signature.toList =
      some (name, List.intercalate [','] xs ++ ')' :: rest) :=
    Text.cutChars_eq_some_iff.2 ⟨htext, hname⟩
  have hclose : Text.closeChars 0 (List.intercalate [','] xs ++ ')' :: rest) =
      some (List.intercalate [','] xs, rest) :=
    Text.closeChars_group (Text.balanced_intercalate fun x hx => (h x hx).1.balanced) rest
  have htop := Text.topLevel_intercalate h
  rw [signatureTypes, hcut]
  simp only [hclose]
  split
  · rw [htop]
  · next hopen =>
    split
    · next hnil =>
      rw [← htop, hnil]
      rfl
    · next hlist =>
      apply Text.split_intercalate h _ hopen
      rintro rfl
      exact hlist rfl

theorem Shape.forall_mem_map_canonicalChars (ss : List Shape) :
    ∀ x ∈ ss.map Shape.canonicalChars, Text.IsMember x ∧ Text.trimmed x ≠ [] := by
  intro x hx
  obtain ⟨s, -, rfl⟩ := List.mem_map.1 hx
  exact ⟨s.isMember_canonicalChars, s.trimmed_canonicalChars_ne_nil⟩

theorem Parameter.canonicalTypes_eq_of_shapes {ps : List Parameter} {ss : List Shape}
    (h : shapes ps = .ok ss) :
    canonicalTypes ps = (ss.map Shape.canonicalChars).map String.ofList := by
  rw [← canonicalTypes_of_shapes h, List.map_map]
  simp [Function.comp_def]

theorem Function.signatureTypes_signature {f : Function} {ss : List Shape}
    (hname : '(' ∉ f.name.toList) (h : Parameter.shapes f.inputs = .ok ss) :
    signatureTypes f.signature = Parameter.canonicalTypes f.inputs := by
  rw [signatureTypes_of_members hname (Shape.forall_mem_map_canonicalChars ss) (toList_signature h),
    Parameter.canonicalTypes_eq_of_shapes h]

theorem Parameter.map_canonicalText_canonicalTypes {ps : List Parameter} {ss : List Shape}
    (h : shapes ps = .ok ss) : (canonicalTypes ps).map canonicalText = canonicalTypes ps := by
  rw [canonicalTypes_eq_of_shapes h, List.map_map, List.map_map, List.map_map]
  refine List.map_congr_left fun s hs => ?_
  simp [canonicalText, Shape.canonicalChars_canonicalChars (wellFormed_of_shapes h s hs)]

/-- Of functions of one name whose inputs have shapes, the signature tells the canonical types. -/
theorem Function.signature_eq_iff_canonicalTypes {f g : Function} {ss ts : List Shape}
    (hname : f.name = g.name) (hf : Parameter.shapes f.inputs = .ok ss)
    (hg : Parameter.shapes g.inputs = .ok ts) :
    f.signature = g.signature ↔
      Parameter.canonicalTypes f.inputs = Parameter.canonicalTypes g.inputs := by
  constructor
  · intro h
    rw [← String.toList_inj, toList_signature hf, toList_signature hg, hname] at h
    have hlist := List.append_cancel_right (List.cons.inj (List.append_cancel_left h)).2
    have hmem : ∀ (us : List Shape), ∀ x ∈ us.map Shape.canonicalChars,
        Text.IsMember x ∧ x ≠ [] := by
      intro us x hx
      obtain ⟨s, -, rfl⟩ := List.mem_map.1 hx
      exact ⟨s.isMember_canonicalChars, s.canonicalChars_ne_nil⟩
    rw [Parameter.canonicalTypes_eq_of_shapes hf, Parameter.canonicalTypes_eq_of_shapes hg,
      Text.intercalate_injective (hmem ss) (hmem ts) hlist]
  · intro h
    rw [signature, signature, Parameter.canonicalList, Parameter.canonicalList, hname, h]

/-! ### Looking a function up -/

namespace Overloads

/-- If a function is among those that are left, it is found or it is not the only one. -/
theorem unique_of_mem {o : Overloads} {fs : List Function} {f : Function} (h : f ∈ fs) :
    1 ≤ fs.length ∧ o.unique fs =
      if fs.length = 1 then .ok f else .error (.ambiguousOverload o.name fs.length) := by
  match fs with
  | [g] =>
    obtain rfl := List.mem_singleton.1 h
    exact ⟨Nat.le_refl 1, rfl⟩
  | g :: g' :: rest => exact ⟨by simp, by simp [unique, throw, throwThe, MonadExceptOf.throw]⟩

end Overloads

namespace Descriptor

/-- A name that a function has is found with all its functions. -/
theorem function_of_mem {d : Descriptor} {f : Function} (h : f ∈ d.functions) :
    d.function f.name = .ok ⟨f.name, d.functions.filter (·.name = f.name)⟩ := by
  have hmem : f ∈ d.functions.filter (·.name = f.name) := by simpa using h
  rw [function]
  split
  · next hnil =>
    rw [hnil] at hmem
    cases hmem
  · rfl

/-! ### Main statement -/

/-- A function is found by the types in its signature, unless there are others with the signature;
then there are as many as the error tells. -/
theorem functionByTypes_signature {d : Descriptor} {f : Function} (hf : f ∈ d.functions)
    (hname : '(' ∉ f.name.toList)
    (hshapes : ∀ g ∈ d.functions, g.name = f.name → ∃ ss, Parameter.shapes g.inputs = .ok ss) :
    signatureTypes f.signature = Parameter.canonicalTypes f.inputs ∧
    let count := d.functions.countP fun g => g.name = f.name ∧ g.signature = f.signature
    1 ≤ count ∧ d.functionByTypes f.name (signatureTypes f.signature) =
      if count = 1 then .ok f else .error (.ambiguousOverload f.name count) := by
  obtain ⟨ss, hss⟩ := hshapes f hf rfl
  have htypes := Function.signatureTypes_signature hname hss
  refine ⟨htypes, ?_⟩
  -- what the lookup keeps are the functions with the signature
  have hkept : (d.functions.filter (·.name = f.name)).filter (fun g =>
      Parameter.canonicalTypes g.inputs = (signatureTypes f.signature).map canonicalText) =
      d.functions.filter fun g => g.name = f.name ∧ g.signature = f.signature := by
    rw [List.filter_filter, htypes, Parameter.map_canonicalText_canonicalTypes hss]
    apply List.filter_congr
    intro g hg
    rw [← Bool.decide_and, decide_eq_decide]
    by_cases hn : g.name = f.name
    · obtain ⟨ts, hts⟩ := hshapes g hg hn
      rw [Function.signature_eq_iff_canonicalTypes hn hts hss, and_comm]
    · simp [hn]
  have hmem : f ∈ d.functions.filter fun g => g.name = f.name ∧ g.signature = f.signature := by
    simpa using hf
  rw [List.countP_eq_length_filter, functionByTypes, function_of_mem hf]
  show _ ∧ Overloads.byInputTypes _ _ = _
  rw [Overloads.byInputTypes, hkept]
  exact Overloads.unique_of_mem hmem

/-- Functions of one name: one with a tuple, one without inputs, and two whose inputs differ in how
their width is written. -/
theorem functionByTypes_signature_of_tuple :
    let p : Parameter := ⟨"tuple[2]", "", false, none, some [.plain "uint" "a", .plain "bool" ""]⟩
    let f : Function := ⟨"f", [p], [], .view⟩
    let g : Function := ⟨"f", [], [p], .view⟩
    let h : Function := ⟨"f", [.plain "uint" "x"], [], .view⟩
    let h' : Function := ⟨"f", [.plain "uint256" ""], [.plain "bool" ""], .pure⟩
    let d : Descriptor := ⟨[.function f, .function g, .receive .payable, .function h, .function h']⟩
    (∀ k ∈ d.functions, '(' ∉ k.name.toList ∧ ∃ ss, Parameter.shapes k.inputs = .ok ss) ∧
      (signatureTypes f.signature = Parameter.canonicalTypes f.inputs ∧
        d.functionByTypes f.name (signatureTypes f.signature) = .ok f) ∧
      (signatureTypes g.signature = Parameter.canonicalTypes g.inputs ∧
        d.functionByTypes g.name (signatureTypes g.signature) = .ok g) ∧
      signatureTypes h.signature = Parameter.canonicalTypes h.inputs ∧
        d.functionByTypes h.name (signatureTypes h.signature) =
          .error (.ambiguousOverload h.name 2) := by
  intro p f g h h' d
  have hshapes : ∀ k ∈ d.functions, ∃ ss, Parameter.shapes k.inputs = .ok ss := by
    show ∀ k ∈ [f, g, h, h'], _
    simp only [List.forall_mem_cons]
    refine ⟨⟨[.fixedArray (.struct [("a", .elementary (.integer false 256)),
      ("1", .elementary .bool)]) 2], ?_⟩, ⟨[], rfl⟩, ⟨[.elementary (.integer false 256)], ?_⟩,
      ⟨[.elementary (.integer false 256)], ?_⟩, by simp⟩ <;>
      with_unfolding_all rfl
  have hname : ∀ k ∈ d.functions, '(' ∉ k.name.toList := by decide
  have hlookup := fun k hk =>
    @functionByTypes_signature d k hk (hname k hk) fun k' hk' _ => hshapes k' hk'
  have hf : (d.functions.countP fun k => k.name = f.name ∧ k.signature = f.signature) = 1 :=
    rfl
  have hg : (d.functions.countP fun k => k.name = g.name ∧ k.signature = g.signature) = 1 :=
    rfl
  have hh : (d.functions.countP fun k => k.name = h.name ∧ k.signature = h.signature) = 2 :=
    rfl
  obtain ⟨hftypes, -, hffound⟩ := hlookup f (by simp [d, functions, Entry.function?])
  obtain ⟨hgtypes, -, hgfound⟩ := hlookup g (by simp [d, functions, Entry.function?])
  obtain ⟨hhtypes, -, hhfound⟩ := hlookup h (by simp [d, functions, Entry.function?])
  rw [hf, if_pos rfl] at hffound
  rw [hg, if_pos rfl] at hgfound
  rw [hh, if_neg (by decide)] at hhfound
  exact ⟨fun k hk => ⟨hname k hk, hshapes k hk⟩, ⟨hftypes, hffound⟩, ⟨hgtypes, hgfound⟩,
    hhtypes, hhfound⟩

end Descriptor

end ContractAbi
