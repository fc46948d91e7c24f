import ContractAbi.Proofs.Declaration.Batch

/-!
# The two modes

The mode is asked for once in the reading of a declaration, where several keywords are found, and
steps behind that one may still fail. `Relaxes` tells how the outcomes of a step in the two modes go
together, and it is kept when steps are chained. Main statement: relaxed mode has the outcome of
strict mode unless this is an ambiguity, which relaxed mode never finds, so over a batch it only
adds entries.
-/

namespace ContractAbi

/-! ### Ambiguity -/

/-- Whether the outcome of a step is another one than an ambiguity. -/
def IsUnambiguous {α : Type} (x : Except AbiError α) : Prop :=
  ∀ clause found, x ≠ .error (.ambiguousMutability clause found)

section

variable {α β : Type}

@[simp] theorem isUnambiguous_pure (a : α) : IsUnambiguous (pure a) := by
  intro clause found h
  cases h

@[simp] theorem isUnambiguous_throw {e : AbiError} :
    IsUnambiguous (throw e : Except AbiError α) ↔
      ∀ clause found, e ≠ .ambiguousMutability clause found :=
  ⟨fun h clause found he => h clause found (congrArg Except.error he),
    fun h clause found he => h clause found (Except.error.inj he)⟩

theorem IsUnambiguous.bind {x : Except AbiError α} {f : α → Except AbiError β}
    (hx : IsUnambiguous x) (hf : ∀ a, IsUnambiguous (f a)) : IsUnambiguous (x >>= f) := by
  cases x with
  | error e =>
    intro clause found h
    exact hx clause found (congrArg Except.error (Except.error.inj h))
  | ok a => exact hf a

theorem isUnambiguous_mapM {f : α → Except AbiError β} (hf : ∀ a, IsUnambiguous (f a))
    (as : List α) : IsUnambiguous (as.mapM f) := by
  induction as with
  | nil => exact isUnambiguous_pure []
  | cons a as ih =>
    rw [List.mapM_cons]
    exact (hf a).bind fun b => ih.bind fun bs => isUnambiguous_pure _

end

theorem isUnambiguous_heading (declaration : String) :
    IsUnambiguous (Heading.ofDeclaration declaration) := by
  rw [Heading.ofDeclaration]
  split
  · simp
  · split
    · simp
    · split <;> simp

theorem isUnambiguous_splitGroup (declaration inner : String) :
    IsUnambiguous (splitGroup declaration inner) := by
  rw [splitGroup]
  split
  · simp
  · split <;> simp

theorem Parameter.isUnambiguous_ofFragment (fragment : String) :
    IsUnambiguous (ofFragment fragment) := by
  rw [ofFragment]
  split
  · simp
  · split
    · simp
    · split <;> simp
    · split <;> simp
    · simp

theorem Parameter.isUnambiguous_listOfText (list : String) : IsUnambiguous (listOfText list) := by
  rw [listOfText]
  split
  · simp
  · exact isUnambiguous_mapM (fun fragment => isUnambiguous_ofFragment _) _

theorem isUnambiguous_outputsOfClause (declaration clause : String) :
    IsUnambiguous (outputsOfClause declaration clause) := by
  rw [outputsOfClause]
  split
  · simp
  · exact (isUnambiguous_splitGroup _ _).bind fun _ => Parameter.isUnambiguous_listOfText _

theorem Mutability.isUnambiguous_refuse (kind : EntryKind) (clause : String) :
    IsUnambiguous (refuse kind clause) := by
  rw [refuse]
  split <;> simp

theorem Entry.isUnambiguous_refuseIndexed (e : Entry) : IsUnambiguous e.refuseIndexed := by
  rw [refuseIndexed.eq_def]
  split
  · simp
  · split <;> simp

/-! ### Outcomes in the two modes -/

/-- How the outcomes of a step in strict and in relaxed mode go together: they are the same unless
strict mode finds an ambiguity, and relaxed mode finds none. -/
structure Relaxes {α : Type} (strict relaxed : Except AbiError α) : Prop where
  eq_of_isUnambiguous : IsUnambiguous strict → relaxed = strict
  isUnambiguous : IsUnambiguous relaxed

/-- A step that does not ask for the mode. -/
theorem Relaxes.refl {α : Type} {x : Except AbiError α} (h : IsUnambiguous x) : Relaxes x x :=
  ⟨fun _ => rfl, h⟩

theorem Relaxes.bind {α β : Type} {x y : Except AbiError α} {f g : α → Except AbiError β}
    (hxy : Relaxes x y) (hfg : ∀ a, Relaxes (f a) (g a)) : Relaxes (x >>= f) (y >>= g) := by
  constructor
  · intro h
    cases x with
    | error e =>
      -- the chain ends here, and for something else than an ambiguity
      have hx : IsUnambiguous (Except.error e : Except AbiError α) := by
        intro clause found he
        exact h clause found (congrArg Except.error (Except.error.inj he))
      rw [hxy.eq_of_isUnambiguous hx]
      rfl
    | ok a =>
      have hx : IsUnambiguous (Except.ok a : Except AbiError α) := isUnambiguous_pure a
      rw [hxy.eq_of_isUnambiguous hx]
      exact (hfg a).eq_of_isUnambiguous h
  · exact hxy.isUnambiguous.bind fun a => (hfg a).isUnambiguous

/-- The step that asks for the mode. -/
theorem Mutability.relaxes_ofClause (clause : String) :
    Relaxes (ofClause .strict clause) (ofClause .relaxed clause) := by
  rw [ofClause.eq_def, ofClause.eq_def]
  cases distinct (Text.split clause " ") with
  | nil => exact .refl (isUnambiguous_pure _)
  | cons m found =>
    cases found with
    | nil => exact .refl (isUnambiguous_pure m)
    | cons n found =>
      refine ⟨?_, isUnambiguous_pure m⟩
      intro h
      exact absurd rfl (h _ _)

theorem Mutability.relaxes_ofConstructorClause (clause : String) :
    Relaxes (ofConstructorClause .strict clause) (ofConstructorClause .relaxed clause) := by
  refine (relaxes_ofClause clause).bind fun m => .refl ?_
  split
  · exact (isUnambiguous_throw.2 (by simp)).bind fun _ => isUnambiguous_pure m
  · exact isUnambiguous_pure m

namespace Entry

theorem relaxes_ofParts (declaration : String) (heading : Heading) (inputs : List Parameter)
    (clause : String) : Relaxes (ofParts .strict declaration heading inputs clause)
      (ofParts .relaxed declaration heading inputs clause) := by
  rw [ofParts.eq_def, ofParts.eq_def]
  cases heading.kind with
  | function =>
    refine (Relaxes.refl (isUnambiguous_outputsOfClause _ _)).bind fun outputs => ?_
    exact (Mutability.relaxes_ofClause clause).bind fun m => .refl (isUnambiguous_pure _)
  | event => exact .refl ((Mutability.isUnambiguous_refuse _ _).bind fun _ => isUnambiguous_pure _)
  | error => exact .refl ((Mutability.isUnambiguous_refuse _ _).bind fun _ => isUnambiguous_pure _)
  | constructor =>
    exact (Mutability.relaxes_ofConstructorClause clause).bind fun m => .refl (isUnambiguous_pure _)
  | fallback => exact .refl (isUnambiguous_throw.2 (by simp))
  | receive => exact .refl (isUnambiguous_throw.2 (by simp))

theorem relaxes_ofDeclaration (declaration : String) :
    Relaxes (ofDeclaration .strict declaration) (ofDeclaration .relaxed declaration) := by
  refine (Relaxes.refl (isUnambiguous_heading _)).bind fun heading => ?_
  refine (Relaxes.refl (isUnambiguous_splitGroup _ _)).bind fun group => ?_
  refine (Relaxes.refl (Parameter.isUnambiguous_listOfText _)).bind fun inputs => ?_
  refine (relaxes_ofParts _ heading inputs group.2).bind fun e => .refl ?_
  exact e.isUnambiguous_refuseIndexed.bind fun _ => isUnambiguous_pure _

/-- An entry that strict mode reads is read in relaxed mode. -/
theorem ofDeclaration_relaxed {declaration : String} {e : Entry}
    (h : ofDeclaration .strict declaration = .ok e) :
    ofDeclaration .relaxed declaration = .ok e := by
  rw [← h]
  apply (relaxes_ofDeclaration declaration).eq_of_isUnambiguous
  rw [h]
  exact isUnambiguous_pure e

end Entry

/-! ### Batches -/

theorem Outcome.entry?_eq_toOption (o : Outcome) : o.entry? = o.result.toOption := by
  obtain ⟨position, source, result⟩ := o
  cases result <;> rfl

namespace Report

open Entry (ofDeclaration)

variable {mode : Mode} {declarations : List String}

/-- The outcomes of a batch: one for each place, of the declaration that stands there. -/
theorem mem_outcomes_iff {o : Outcome} : o ∈ (ofDeclarations mode declarations).outcomes ↔
    declarations[o.position]? = some o.source ∧ o.result = ofDeclaration mode o.source := by
  rw [ofDeclarations, ofPlaced, List.map_map, List.mem_map]
  constructor
  · rintro ⟨⟨source, place⟩, hplace, rfl⟩
    exact ⟨List.mem_zipIdx_iff_getElem?.1 hplace, rfl⟩
  · rintro ⟨hplace, hresult⟩
    refine ⟨(o.source, o.position), List.mem_zipIdx_iff_getElem?.2 hplace, ?_⟩
    show Outcome.mk o.position o.source (ofDeclaration mode o.source) = o
    rw [← hresult]

/-- The declarations of a batch that are refused, with their places. -/
theorem mem_rejected_iff {r : Rejection} : r ∈ (ofDeclarations mode declarations).rejected ↔
    declarations[r.position]? = some r.source ∧ ofDeclaration mode r.source = .error r.error := by
  rw [rejected, List.mem_filterMap]
  constructor
  · rintro ⟨o, ho, hr⟩
    obtain ⟨hplace, hresult⟩ := mem_outcomes_iff.1 ho
    rw [Outcome.rejection?] at hr
    split at hr
    · cases hr
    · next e he =>
      obtain rfl := Option.some.inj hr
      exact ⟨hplace, hresult.symm.trans he⟩
  · rintro ⟨hplace, hresult⟩
    refine ⟨⟨r.position, r.source, .error r.error⟩, mem_outcomes_iff.2 ⟨hplace, hresult.symm⟩, ?_⟩
    rfl

/-- The entries of a batch do not depend on the places of the declarations. -/
theorem entries_ofPlaced {placed : List (Nat × String)} :
    (ofPlaced mode placed).descriptor.entries =
      (placed.map Prod.snd).filterMap fun declaration =>
        (ofDeclaration mode declaration).toOption := by
  rw [descriptor, ofPlaced, List.filterMap_map, List.filterMap_map]
  generalize ofDeclaration mode = read
  apply List.filterMap_congr
  intro place _
  exact Outcome.entry?_eq_toOption _

theorem entries_ofDeclarations : (ofDeclarations mode declarations).descriptor.entries =
    declarations.filterMap fun declaration => (ofDeclaration mode declaration).toOption := by
  rw [ofDeclarations, entries_ofPlaced, List.map_map]
  exact congrArg _ (List.zipIdx_map_fst 0 declarations)

/-- What strict mode reads of a batch is a part of what relaxed mode reads, in the same order. -/
theorem sublist_entries_relaxed (declarations : List String) :
    (ofDeclarations .strict declarations).descriptor.entries.Sublist
      (ofDeclarations .relaxed declarations).descriptor.entries := by
  rw [entries_ofDeclarations, entries_ofDeclarations]
  induction declarations with
  | nil => exact .slnil
  | cons declaration declarations ih =>
    rw [List.filterMap_cons, List.filterMap_cons]
    cases hstrict : ofDeclaration .strict declaration with
    | ok e =>
      rw [Entry.ofDeclaration_relaxed hstrict]
      exact ih.cons_cons e
    | error _ =>
      cases ofDeclaration .relaxed declaration with
      | ok e => exact ih.cons e
      | error _ => exact ih

/-! ### Main statement -/

/-- Relaxed mode only adds to strict mode: declaration by declaration, and over a batch. -/
theorem ofDeclarations_relaxed :
    (∀ declaration,
      Relaxes (ofDeclaration .strict declaration) (ofDeclaration .relaxed declaration)) ∧
    ∀ declarations,
      let strict := ofDeclarations .strict declarations
      let relaxed := ofDeclarations .relaxed declarations
      strict.descriptor.entries.Sublist relaxed.descriptor.entries ∧
        (∀ r ∈ relaxed.rejected,
          ∃ s ∈ strict.rejected, s.position = r.position ∧ s.source = r.source) ∧
        ∀ o ∈ strict.outcomes, ∀ o' ∈ relaxed.outcomes, o.position = o'.position →
          ∀ e ∈ o.entry?, o'.entry? = some e := by
  refine ⟨Entry.relaxes_ofDeclaration, fun declarations => ?_⟩
  refine ⟨sublist_entries_relaxed declarations, ?_, ?_⟩
  · intro r hr
    obtain ⟨hplace, hrelaxed⟩ := mem_rejected_iff.1 hr
    cases hstrict : ofDeclaration .strict r.source with
    | ok e =>
      rw [Entry.ofDeclaration_relaxed hstrict] at hrelaxed
      cases hrelaxed
    | error e => exact ⟨⟨r.position, r.source, e⟩, mem_rejected_iff.2 ⟨hplace, hstrict⟩, rfl, rfl⟩
  · intro o ho o' ho' hposition e he
    obtain ⟨hplace, hstrict⟩ := mem_outcomes_iff.1 ho
    obtain ⟨hplace', hrelaxed⟩ := mem_outcomes_iff.1 ho'
    have hsource : o'.source = o.source := by
      rw [hposition, hplace'] at hplace
      exact Option.some.inj hplace
    rw [Outcome.entry?_eq_toOption, hstrict] at he
    rw [Outcome.entry?_eq_toOption, hrelaxed, hsource]
    cases hread : ofDeclaration .strict o.source with
    | ok e' =>
      rw [hread] at he
      rw [Entry.ofDeclaration_relaxed hread]
      exact he
    | error _ =>
      rw [hread] at he
      cases he

/-- A function with two keywords, one with a single keyword, and an event, which may have none. -/
theorem ofDeclarations_relaxed_of_pure_view :
    let declarations := ["function f() pure view", "g() payable", "event e() view"]
    let strict := ofDeclarations .strict declarations
    let relaxed := ofDeclarations .relaxed declarations
    let f : Entry := .function ⟨"f", [], [], .pure⟩
    let g : Entry := .function ⟨"g", [], [], .payable⟩
    (strict.descriptor.entries = [g] ∧ relaxed.descriptor.entries = [f, g] ∧
        strict.descriptor.entries.Sublist relaxed.descriptor.entries) ∧
      (IsUnambiguous (ofDeclaration .strict "g() payable") ∧
        ofDeclaration .relaxed "g() payable" = ofDeclaration .strict "g() payable") ∧
      (∃ r ∈ relaxed.rejected, r.position = 2 ∧
        ∃ s ∈ strict.rejected, s.position = 2 ∧ s.source = r.source) ∧
      ∃ o ∈ strict.outcomes, ∃ o' ∈ relaxed.outcomes, o.position = o'.position ∧
        o.entry? = some g ∧ o'.entry? = some g := by
  intro declarations strict relaxed f g
  have hf : ofDeclaration .strict "function f() pure view" =
      .error (.ambiguousMutability "pure view" [.pure, .view]) := by with_unfolding_all rfl
  have hf' : ofDeclaration .relaxed "function f() pure view" = .ok f := by with_unfolding_all rfl
  have hg : ofDeclaration .strict "g() payable" = .ok g := by with_unfolding_all rfl
  have hg' : ofDeclaration .relaxed "g() payable" = .ok g := by with_unfolding_all rfl
  have he : ∀ mode, ofDeclaration mode "event e() view" =
      .error (.invalidMutability .event .view) := by
    intro mode
    cases mode <;> with_unfolding_all rfl
  obtain ⟨hrelaxes, hbatch⟩ := ofDeclarations_relaxed
  obtain ⟨hentries, hrejected, houtcomes⟩ := hbatch declarations
  have hunambiguous : IsUnambiguous (ofDeclaration .strict "g() payable") := by
    rw [hg]
    exact isUnambiguous_pure g
  have hr : ⟨2, "event e() view", .invalidMutability .event .view⟩ ∈ relaxed.rejected :=
    mem_rejected_iff.2 ⟨rfl, he .relaxed⟩
  have ho : ⟨1, "g() payable", .ok g⟩ ∈ strict.outcomes := mem_outcomes_iff.2 ⟨rfl, hg.symm⟩
  have ho' : ⟨1, "g() payable", .ok g⟩ ∈ relaxed.outcomes := mem_outcomes_iff.2 ⟨rfl, hg'.symm⟩
  refine ⟨⟨?_, ?_, hentries⟩, ⟨hunambiguous, ?_⟩, ⟨_, hr, rfl, hrejected _ hr⟩, ?_⟩
  · rw [entries_ofDeclarations]
    simp [declarations, hf, hg, he, Except.toOption]
  · rw [entries_ofDeclarations]
    simp [declarations, hf', hg', he, Except.toOption]
  · exact (hrelaxes _).eq_of_isUnambiguous hunambiguous
  · exact ⟨_, ho, _, ho', rfl, rfl, houtcomes _ ho _ ho' rfl g rfl⟩

end Report

end ContractAbi
