import ContractAbi.Proofs.Declaration.Parts

/-!
# Reading a display

The display of an entry has the parts that the entry is made of, so it is read as the entry again,
but for one thing. In a display ", " stands between parameters, and then the type of an output may
be a word of its own where the declaration had none, and a keyword. Main statement: the display of
what was declared reads back exactly if no such keyword changes the mutability.
-/

namespace ContractAbi

open Mutability (keywords Told)

namespace Entry

/-! ### The parts of a display -/

theorem trim_of_parts {s : String} {head list clause : List Char}
    (htext : s.toList = head ++ '(' :: (list ++ ')' :: clause)) (hhead : ∀ c ∈ head.head?, c ≠ ' ')
    (hclause : ∀ c ∈ clause.getLast?, c ≠ ' ') : Text.trim s = s := by
  have hsplit : s.toList = (head ++ '(' :: list) ++ (')' :: clause) := by simp [htext]
  apply Text.trim_eq_self
  · rw [htext]
    cases head with
    | nil => simp
    | cons d head => simpa using hhead
  · rw [hsplit, List.getLast?_append]
    cases clause with
    | nil => simp
    | cons d clause => simpa [List.getLast?_cons] using hclause

theorem getLast?_clause (f : Function) : ∀ c ∈ f.clause.toList.getLast?, c ≠ ' ' := by
  rw [Function.toList_clause]
  by_cases hnil : f.outputs = []
  · rw [if_pos hnil, List.append_nil]
    cases f.mutability <;> simp [Mutability.text]
  · rw [if_neg hnil]
    simp [List.getLast?_append, List.getLast?_cons]

theorem toList_display_function (f : Function) : (display (.function f)).toList =
    ("function " ++ f.name).toList ++
      '(' :: ((Parameter.displayList f.inputs).toList ++ ')' :: f.clause.toList) := by
  have hdisplay : display (.function f) = "function " ++ f.name ++ "(" ++
      Parameter.displayList f.inputs ++ ")" ++ suffixUnless .nonpayable f.mutability ++
      (if f.outputs.isEmpty then ""
        else " returns (" ++ Parameter.displayList f.outputs ++ ")") := rfl
  simp [hdisplay, Function.clause]

theorem toList_display_event (e : Event) : (display (.event e)).toList =
    ("event " ++ e.name).toList ++ '(' :: ((Parameter.displayList e.inputs).toList ++
      ')' :: (if e.anonymous then " anonymous" else "").toList) := by
  have hdisplay : display (.event e) = "event " ++ e.name ++ "(" ++
      Parameter.displayList e.inputs ++ ")" ++ (if e.anonymous then " anonymous" else "") := rfl
  simp [hdisplay]

theorem toList_display_error (e : CustomError) : (display (.error e)).toList =
    ("error " ++ e.name).toList ++
      '(' :: ((Parameter.displayList e.inputs).toList ++ ')' :: "".toList) := by
  have hdisplay : display (.error e) = "error " ++ e.name ++ "(" ++
      Parameter.displayList e.inputs ++ ")" := rfl
  simp [hdisplay]

theorem toList_display_constructor (c : Constructor) : (display (.constructor c)).toList =
    "constructor".toList ++ '(' :: ((Parameter.displayList c.inputs).toList ++
      ')' :: (payableSuffix c.mutability).toList) := by
  have hdisplay : display (.constructor c) = "constructor(" ++
      Parameter.displayList c.inputs ++ ")" ++ payableSuffix c.mutability := rfl
  simp [hdisplay]

/-- A display that falls into a heading, inputs and a clause. -/
theorem ofDeclaration_eq_ok_iff_of_toList {mode : Mode} {declaration head clause name : String}
    {kind : EntryKind} {inputs : List Parameter} {e : Entry}
    (htext : declaration.toList = head.toList ++
      '(' :: ((Parameter.displayList inputs).toList ++ ')' :: clause.toList))
    (hhead : Heading.kindAndName? head = some (kind, name))
    (hname : kind = .constructor ∨ isIdentifier name)
    (hinputs : Parameter.DeclarableList inputs) (hopen : '(' ∉ head.toList)
    (hfirst : ∀ c ∈ head.toList.head?, c ≠ ' ') (hlast : ∀ c ∈ clause.toList.getLast?, c ≠ ' ') :
    ofDeclaration mode declaration = .ok e ↔
      MadeOf mode inputs clause kind name e ∧ e.refuseIndexed = .ok () := by
  have htrim := trim_of_parts htext hfirst hlast
  exact ofDeclaration_eq_ok_iff_of_parts (by rw [htrim, htext]) hopen hhead hname
    (Parameter.mem_displayList hinputs) (Parameter.listOfText_displayList hinputs)

/-- Whether the loose keywords of an entry leave its mutability as it is. -/
def KeepsMutability (mode : Mode) : Entry → Prop
  | .function f => f.KeepsMutability mode
  | _ => True

instance {mode : Mode} {e : Entry} : Decidable (e.KeepsMutability mode) :=
  match e with
  | .function f => inferInstanceAs (Decidable (f.KeepsMutability mode))
  | .event _ | .error _ | .constructor _ | .fallback _ | .receive _ =>
    inferInstanceAs (Decidable True)

theorem ofDeclaration_display_function {mode : Mode} {f : Function} (hname : isIdentifier f.name)
    (hinputs : Parameter.DeclarableList f.inputs) (houtputs : Parameter.DeclarableList f.outputs)
    (hindexed : ∀ p ∈ f.inputs ++ f.outputs, p.indexed = false) :
    ofDeclaration mode (display (.function f)) = .ok (.function f) ↔ f.KeepsMutability mode := by
  have hi : ∀ p ∈ f.outputs, p.indexed = false := fun p hp => hindexed p (by simp [hp])
  rw [ofDeclaration_eq_ok_iff_of_toList (toList_display_function f)
    (Heading.kindAndName?_function hname) (.inr hname) hinputs
    (not_mem_keyword_append (by decide) hname) (by simp) (getLast?_clause f)]
  constructor
  · rintro ⟨hmade, -⟩
    exact (Function.told_clause houtputs hi).1 hmade.told
  · intro hkeeps
    refine ⟨?_, refuseIndexed_eq_ok_iff.2 (.inr hindexed)⟩
    exact .function (Function.declaresOutputs_clause houtputs)
      ((Function.told_clause houtputs hi).2 hkeeps)

theorem ofDeclaration_display_event {mode : Mode} {e : Event} (hname : isIdentifier e.name)
    (hinputs : Parameter.DeclarableList e.inputs) :
    ofDeclaration mode (display (.event e)) = .ok (.event e) := by
  rw [ofDeclaration_eq_ok_iff_of_toList (toList_display_event e)
    (Heading.kindAndName?_event hname) (.inr hname) hinputs
    (not_mem_keyword_append (by decide) hname) (by simp) (by cases e.anonymous <;> simp)]
  refine ⟨?_, refuseIndexed_eq_ok_iff.2 (.inl rfl)⟩
  have hkeywords : keywords (if e.anonymous then " anonymous" else "").toList = [] := by
    cases e.anonymous <;> rfl
  have hanonymous : (Text.tokens (if e.anonymous then " anonymous" else "")).contains "anonymous" =
      e.anonymous := by
    cases e.anonymous <;> with_unfolding_all rfl
  have hmade : MadeOf mode e.inputs (if e.anonymous then " anonymous" else "") .event e.name
      (.event ⟨e.name, e.inputs, _⟩) := .event hkeywords
  rwa [hanonymous] at hmade

theorem ofDeclaration_display_error {mode : Mode} {e : CustomError} (hname : isIdentifier e.name)
    (hinputs : Parameter.DeclarableList e.inputs) (hindexed : ∀ p ∈ e.inputs, p.indexed = false) :
    ofDeclaration mode (display (.error e)) = .ok (.error e) := by
  rw [ofDeclaration_eq_ok_iff_of_toList (toList_display_error e)
    (Heading.kindAndName?_error hname) (.inr hname) hinputs
    (not_mem_keyword_append (by decide) hname) (by simp) (by simp)]
  refine ⟨.error Mutability.keywords_nil, ?_⟩
  rw [refuseIndexed_eq_ok_iff]
  exact .inr (by simpa [Entry.inputs, outputs] using hindexed)

theorem ofDeclaration_display_constructor {mode : Mode} {c : Constructor}
    (hinputs : Parameter.DeclarableList c.inputs) (hindexed : ∀ p ∈ c.inputs, p.indexed = false)
    (hread : c.mutability.isReadOnly = false) :
    ofDeclaration mode (display (.constructor c)) = .ok (.constructor c) := by
  rw [ofDeclaration_eq_ok_iff_of_toList (toList_display_constructor c)
    Heading.kindAndName?_constructor (.inl rfl) hinputs (by decide) (by simp)
    (by cases c.mutability <;> simp [payableSuffix])]
  have hkeywords : ∀ m : Mutability, keywords (payableSuffix m).toList =
      if m = .payable then [.payable] else [] := by
    intro m
    cases m <;> rfl
  -- of the two mutabilities that are left, `payable` is written and the other goes without saying
  have htold : Told mode (keywords (payableSuffix c.mutability).toList) c.mutability := by
    rw [hkeywords]
    revert hread
    cases c.mutability <;> cases mode <;> simp [Mutability.isReadOnly, Told]
  refine ⟨.constructor htold hread, ?_⟩
  rw [refuseIndexed_eq_ok_iff]
  exact .inr (by simpa [Entry.inputs, outputs] using hindexed)

/-- The display of an entry that can be declared declares it if the loose keywords do not matter. -/
theorem ofDeclaration_display {mode : Mode} {e : Entry} (h : e.Declarable) :
    ofDeclaration mode e.display = .ok e ↔ e.KeepsMutability mode := by
  cases h with
  | function hname hinputs houtputs hindexed =>
    exact ofDeclaration_display_function hname hinputs houtputs hindexed
  | event hname hinputs => simp [ofDeclaration_display_event hname hinputs, KeepsMutability]
  | error hname hinputs hindexed =>
    simp [ofDeclaration_display_error hname hinputs hindexed, KeepsMutability]
  | constructor hinputs hindexed hread =>
    simp [ofDeclaration_display_constructor hinputs hindexed hread, KeepsMutability]

/-! ### Outputs of type `view` -/

/-- In this list the type `view` is no word of its own. -/
theorem listOfText_uint_view :
    Parameter.listOfText "uint a,view b" = .ok [.plain "uint" "a", .plain "view" "b"] := by
  rw [Parameter.listOfText_eq_ok_iff (by decide) (by decide)]
  exact .cons ⟨by decide, .name (by decide)⟩ (.cons ⟨by decide, .name (by decide)⟩ .nil)

theorem ofDeclaration_uint_view (mode : Mode) {m : Mutability} (hm : m = .nonpayable ∨ m = .view)
    {declaration : String}
    (h : declaration = "function f()" ++ suffixUnless .nonpayable m ++ " returns (uint a,view b)") :
    ofDeclaration mode declaration =
      .ok (.function ⟨"f", [], [.plain "uint" "a", .plain "view" "b"], m⟩) := by
  subst h
  have htext : (Text.trim
      ("function f()" ++ suffixUnless .nonpayable m ++ " returns (uint a,view b)")).toList =
        ("function " ++ "f").toList ++ '(' :: ("".toList ++
          ')' :: (suffixUnless .nonpayable m ++ " returns (uint a,view b)").toList) := by
    rcases hm with rfl | rfl <;> decide
  have houtputs : DeclaresOutputs (suffixUnless .nonpayable m ++ " returns (uint a,view b)").toList
      [.plain "uint" "a", .plain "view" "b"] := by
    have hgroup := fun before h => @DeclaresOutputs.group before "uint a,view b".toList [] _ h
      (by simp) listOfText_uint_view
    rcases hm with rfl | rfl
    · exact hgroup " returns ".toList (by decide)
    · exact hgroup " view returns ".toList (by decide)
  have htold : Told mode
      (keywords (suffixUnless .nonpayable m ++ " returns (uint a,view b)").toList) m := by
    have hkeywords :
        keywords (suffixUnless .nonpayable m ++ " returns (uint a,view b)").toList =
          if m = .nonpayable then [] else [m] := by
      rcases hm with rfl | rfl <;> decide
    rw [hkeywords]
    rcases hm with rfl | rfl <;> cases mode <;> simp [Told]
  rw [ofDeclaration_eq_ok_iff_of_parts htext (by decide) (Heading.kindAndName?_function (by decide))
    (.inr (by decide)) (by simp) Parameter.listOfText_empty]
  exact ⟨.function houtputs htold, rfl⟩

/-! ### Main statement -/

/-- The display of what was declared reads back exactly if its loose keywords keep the
mutability. -/
theorem reparse_display_iff {mode : Mode} {declaration : String} {e : Entry}
    (h : ofDeclaration mode declaration = .ok e) :
    ofDeclaration mode e.display = .ok e ↔ e.KeepsMutability mode :=
  ofDeclaration_display (declarable_of_ofDeclaration h)

theorem reparse_display_iff_of_view : ∃ e,
    ofDeclaration .strict "function f() view returns (uint a,view b)" = .ok e ∧
      (ofDeclaration .strict e.display = .ok e ↔ e.KeepsMutability .strict) ∧
      e.KeepsMutability .strict := by
  have h : ofDeclaration .strict "function f() view returns (uint a,view b)" = .ok _ :=
    ofDeclaration_uint_view .strict (.inr rfl) (by decide)
  exact ⟨_, h, reparse_display_iff h, by decide⟩

/-- The type `view` is no word of this declaration, but of the display of what it declares. -/
theorem reparse_display_ne : ∃ e,
    ofDeclaration .strict "function f() returns (uint a,view b)" = .ok e ∧
    ofDeclaration .relaxed "function f() returns (uint a,view b)" = .ok e ∧
    ofDeclaration .strict e.display ≠ .ok e ∧ ofDeclaration .relaxed e.display ≠ .ok e := by
  have hread := fun mode =>
    @ofDeclaration_uint_view mode _ (.inl rfl) "function f() returns (uint a,view b)" (by decide)
  have hdisplay := fun mode =>
    @ofDeclaration_display mode _ (declarable_of_ofDeclaration (hread mode))
  refine ⟨_, hread .strict, hread .relaxed, ?_, ?_⟩
  · rw [Ne, hdisplay]
    decide
  · rw [Ne, hdisplay]
    decide

end Entry

end ContractAbi
