import Mathlib.Algebra.GroupWithZero.Nat
import ContractAbi.Proofs.Lookups
import ContractAbi.Proofs.Overloads

/-!
# Functions grouped by their names

Each name of a function is listed once, where its first function is declared, and looking the name
up gives its functions. So every function is found under one name. Listing the names of functions of
some mutabilities goes by these functions alone: others of the name neither list it nor change its
place. Main statement: `Descriptor.function_partition`.
-/

namespace ContractAbi

namespace Descriptor

/-! ### Names of functions -/

/-- The name of a function, if its mutability is admitted. -/
def listedName? (allowed : Option (List Mutability)) (f : Function) : Option String :=
  if admits allowed (.function f) then some f.name else none

theorem listedName?_eq_some_iff {allowed : Option (List Mutability)} {f : Function}
    {name : String} :
    listedName? allowed f = some name ↔ f.name = name ∧ admits allowed (.function f) = true := by
  rw [listedName?, Option.ite_none_right_eq_some, Option.some_inj, and_comm]

theorem namesOf_function (d : Descriptor) (allowed : Option (List Mutability)) :
    d.namesOf .function allowed =
      firstOccurrences (d.functions.filterMap (listedName? allowed)) := by
  rw [namesOf, ofKind, functions, List.filter_filter, List.filterMap_filter,
    List.filterMap_filterMap]
  congr 2
  funext e
  cases e <;> simp [Entry.kind, Entry.function?, Entry.name?, listedName?]

/-- The names stand in the order in which their first admitted functions are declared. -/
theorem pairwise_namesOf_function (d : Descriptor) (allowed : Option (List Mutability)) :
    (d.namesOf .function allowed).Pairwise fun n m =>
      d.functions.findIdx (fun f => f.name = n ∧ admits allowed (.function f)) <
        d.functions.findIdx (fun f => f.name = m ∧ admits allowed (.function f)) := by
  rw [namesOf_function]
  simpa only [listedName?_eq_some_iff] using
    pairwise_firstOccurrences (listedName? allowed) d.functions

theorem mem_namesOf_function {d : Descriptor} {allowed : Option (List Mutability)}
    {name : String} :
    name ∈ d.namesOf .function allowed ↔
      ∃ f ∈ d.functions, f.name = name ∧ admits allowed (.function f) = true := by
  rw [namesOf_function, mem_firstOccurrences, List.mem_filterMap]
  simp only [listedName?_eq_some_iff]

theorem nodup_namesOf (d : Descriptor) (kind : EntryKind) (allowed : Option (List Mutability)) :
    (d.namesOf kind allowed).Nodup :=
  nodup_firstOccurrences _

/-- Only functions are restricted to mutabilities. -/
theorem namesOf_eq_of_ne (d : Descriptor) {kind : EntryKind} (h : kind ≠ .function)
    (ms : List Mutability) : d.namesOf kind (some ms) = d.namesOf kind none := by
  have hadmits : ∀ e ∈ d.ofKind kind, admits (some ms) e = admits none e := by
    intro e he
    obtain rfl := (mem_ofKind.1 he).2
    cases e with
    | function => exact absurd rfl h
    | _ => rfl
  rw [namesOf, namesOf, List.filter_congr hadmits]

/-! ### Looking functions up -/

/-- A look-up finds all functions of a name, if the name is listed. -/
theorem function_eq_ok_iff {d : Descriptor} {name : String} {o : Overloads} :
    d.function name = .ok o ↔
      name ∈ d.namesOf .function none ∧ o = ⟨name, d.functions.filter (·.name = name)⟩ := by
  by_cases hsome : ∃ f ∈ d.functions, f.name = name
  · obtain ⟨f, hf, rfl⟩ := hsome
    rw [function_of_mem hf, Except.ok.injEq, eq_comm]
    exact (and_iff_right (mem_namesOf_function.2 ⟨f, hf, rfl, rfl⟩)).symm
  · have hnil : d.functions.filter (·.name = name) = [] := by
      rw [List.filter_eq_nil_iff]
      intro f hf hname
      exact hsome ⟨f, hf, of_decide_eq_true hname⟩
    rw [function, hnil]
    refine iff_of_false Except.throw_ne_ok ?_
    rintro ⟨hname, -⟩
    obtain ⟨f, hf, hname, -⟩ := mem_namesOf_function.1 hname
    exact hsome ⟨f, hf, hname⟩

/-- The functions of each listed name. -/
def overloadSets (d : Descriptor) : List Overloads :=
  (d.namesOf .function none).map fun name => ⟨name, d.functions.filter (·.name = name)⟩

theorem mapM_function_eq (d : Descriptor) :
    (d.namesOf .function none).mapM d.function = .ok d.overloadSets := by
  rw [Except.mapM_eq_ok_iff, overloadSets, List.forall₂_map_right_iff, List.forall₂_same]
  intro name hname
  exact function_eq_ok_iff.2 ⟨hname, rfl⟩

/-- The overload sets hold the functions, each as often as it is declared. -/
theorem overloadSets_perm (d : Descriptor) :
    (d.overloadSets.flatMap (·.candidates)).Perm d.functions := by
  rw [overloadSets, List.flatMap_map]
  apply flatMap_filter_perm Function.name (d.nodup_namesOf _ _)
  intro f hf
  exact mem_namesOf_function.2 ⟨f, hf, rfl, rfl⟩

theorem existsUnique_overloadSet {d : Descriptor} {f : Function} (hf : f ∈ d.functions) :
    ∃! o, o ∈ d.overloadSets ∧ f ∈ o.candidates := by
  have hname : f.name ∈ d.namesOf .function none := mem_namesOf_function.2 ⟨f, hf, rfl, rfl⟩
  refine ⟨⟨f.name, d.functions.filter (·.name = f.name)⟩, ⟨List.mem_map.2 ⟨_, hname, rfl⟩, ?_⟩, ?_⟩
  · simpa using hf
  · rintro o ⟨ho, hmem⟩
    obtain ⟨name, -, rfl⟩ := List.mem_map.1 ho
    obtain rfl : f.name = name := of_decide_eq_true (List.mem_filter.1 hmem).2
    rfl

/-! ### Main statement -/

/-- The overload sets are the functions grouped by their names, in the order of their first
declarations, and a restriction to mutabilities lists the names that have a function of one. -/
theorem function_partition (d : Descriptor) :
    ((d.namesOf .function none).Nodup ∧
      (d.namesOf .function none).Pairwise fun n m =>
        d.functions.findIdx (·.name = n) < d.functions.findIdx (·.name = m)) ∧
    (∀ name, (∃ o, d.function name = .ok o) ↔ name ∈ d.namesOf .function none) ∧
    (∀ name o, d.function name = .ok o →
      o.name = name ∧ o.candidates = d.functions.filter (·.name = name)) ∧
    (∃ sets, (d.namesOf .function none).mapM d.function = .ok sets ∧
      (∀ f ∈ d.functions, ∃! o, o ∈ sets ∧ f ∈ o.candidates) ∧
      (sets.flatMap (·.candidates)).Perm d.functions ∧
      (sets.map (·.candidates.length)).sum = d.functions.length) ∧
    (∀ ms, (d.namesOf .function (some ms)).Nodup ∧
      (∀ name, name ∈ d.namesOf .function (some ms) ↔
        ∃ o, d.function name = .ok o ∧ ∃ f ∈ o.candidates, f.mutability ∈ ms) ∧
      (d.namesOf .function (some ms)).Pairwise fun n m =>
        d.functions.findIdx (fun f => f.name = n ∧ f.mutability ∈ ms) <
          d.functions.findIdx (fun f => f.name = m ∧ f.mutability ∈ ms)) ∧
    ∀ kind, kind ≠ .function → ∀ ms, d.namesOf kind (some ms) = d.namesOf kind none := by
  refine ⟨⟨d.nodup_namesOf _ _, ?_⟩, ?_, ?_, ⟨d.overloadSets, d.mapM_function_eq,
    fun f hf => existsUnique_overloadSet hf, d.overloadSets_perm, ?_⟩, ?_,
    fun kind hkind ms => d.namesOf_eq_of_ne hkind ms⟩
  · simpa [admits] using d.pairwise_namesOf_function none
  · intro name
    constructor
    · rintro ⟨o, ho⟩
      exact (function_eq_ok_iff.1 ho).1
    · intro hname
      exact ⟨_, function_eq_ok_iff.2 ⟨hname, rfl⟩⟩
  · intro name o ho
    obtain ⟨-, rfl⟩ := function_eq_ok_iff.1 ho
    exact ⟨rfl, rfl⟩
  · rw [← d.overloadSets_perm.length_eq, List.length_flatMap]
  · intro ms
    refine ⟨d.nodup_namesOf _ _, ?_, ?_⟩
    · intro name
      rw [mem_namesOf_function]
      constructor
      · rintro ⟨f, hf, rfl, hadmits⟩
        exact ⟨_, function_of_mem hf, f, by simpa using hf, by simpa [admits] using hadmits⟩
      · rintro ⟨o, ho, f, hf, hms⟩
        obtain ⟨-, rfl⟩ := function_eq_ok_iff.1 ho
        obtain ⟨hf, hname⟩ := List.mem_filter.1 hf
        exact ⟨f, hf, of_decide_eq_true hname, by simpa [admits] using hms⟩
    · simpa [admits] using d.pairwise_namesOf_function (some ms)

/-- Functions of two names whose declarations alternate. The name whose first function is not
admitted is listed at the place of its second. -/
theorem function_partition_of_alternating :
    let f : Function := ⟨"f", [], [], .payable⟩
    let g : Function := ⟨"g", [], [], .view⟩
    let f' : Function := ⟨"f", [.plain "bool" ""], [], .pure⟩
    let d : Descriptor := ⟨[.function f, .event ⟨"f", [], false⟩, .function g, .function f']⟩
    (d.namesOf .function none = ["f", "g"] ∧
      d.namesOf .function (some [.pure, .view]) = ["g", "f"]) ∧
    (∃ o, d.function "f" = .ok o ∧ o.name = "f" ∧ o.candidates = [f, f']) ∧
    (∃ sets, (d.namesOf .function none).mapM d.function = .ok sets ∧
      (∃! o, o ∈ sets ∧ f' ∈ o.candidates) ∧ (sets.map (·.candidates.length)).sum = 3) ∧
    (∃ o, d.function "f" = .ok o ∧ ∃ k ∈ o.candidates, k.mutability ∈ [.pure, .view]) ∧
    d.namesOf .event (some [.pure]) = d.namesOf .event none := by
  intro f g f' d
  have hnames : d.namesOf .function none = ["f", "g"] := by decide
  have hadmitted : d.namesOf .function (some [.pure, .view]) = ["g", "f"] := by decide
  obtain ⟨-, hok, hcandidates, ⟨sets, hsets, hunique, -, hsum⟩, hlisted, hother⟩ :=
    function_partition d
  obtain ⟨o, ho⟩ := (hok "f").2 (by rw [hnames]; decide)
  have hf' : f' ∈ d.functions := by decide
  exact ⟨⟨hnames, hadmitted⟩, ⟨o, ho, hcandidates "f" o ho⟩, ⟨sets, hsets, hunique f' hf', hsum⟩,
    ((hlisted [.pure, .view]).2.1 "f").1 (by rw [hadmitted]; decide), hother .event nofun [.pure]⟩

end Descriptor

end ContractAbi
