import Mathlib.Data.List.Sort
import ContractAbi.Proofs.Text.Utf8
import ContractAbi.Proofs.FileTree

/-!
# The search for interface files

The search below a directory finds every file with the name of an interface file, once, and nothing
else. It lists them in the order that compares paths name by name, and names byte by byte, so
`a/x.abi` stands before `a-b.abi`. That determines the list: the order in which directories have
their entries has no part in it. Main statement: `FileTree.interfaceFiles_complete`.
-/

namespace ContractAbi

/-! ### Names of interface files -/

namespace Path

/-- Whether a name ends in `.json` or `.abi`, behind at least one character. -/
def IsInterfaceName (name : String) : Prop :=
  ∃ stem, stem ≠ "" ∧ (name = stem ++ ".json" ∨ name = stem ++ ".abi")

theorem extension?_eq_some_iff {name extension : String} :
    extension? name = some extension ↔
      ∃ stem, stem ≠ "" ∧ name = stem ++ "." ++ extension ∧ '.' ∉ extension.toList := by
  unfold extension?
  constructor
  · intro h
    -- the last point is the first one of the name read backwards
    cases hcut : Text.cutChars '.' name.toList.reverse with
    | none =>
      rw [hcut] at h
      cases h
    | some parts =>
      obtain ⟨behind, before⟩ := parts
      rw [hcut] at h
      cases before with
      | nil => cases h
      | cons c cs =>
        obtain rfl := Option.some.inj h
        obtain ⟨e, hpoint⟩ := Text.cutChars_eq_some_iff.1 hcut
        refine ⟨String.ofList (c :: cs).reverse, by simp, ?_, by simpa using hpoint⟩
        rw [← String.toList_inj, ← List.reverse_inj, e]
        simp
  · rintro ⟨stem, hne, rfl, hpoint⟩
    obtain ⟨c, cs, hstem⟩ := List.exists_cons_of_ne_nil
      (List.reverse_ne_nil_iff.2 (String.toList_eq_nil_iff.not.2 hne))
    have hcut : Text.cutChars '.' (stem ++ "." ++ extension).toList.reverse =
        some (extension.toList.reverse, c :: cs) := by
      apply Text.cutChars_eq_some_iff.2
      rw [← hstem]
      exact ⟨by simp, by simpa using hpoint⟩
    rw [hcut]
    simp

/-- A name is a path of its own. -/
theorem fileName?_eq_some {name : String} (h : FileTree.IsName name) :
    fileName? name = some name := by
  obtain ⟨⟨hempty, hhere, habove⟩, hslash⟩ := h
  have hsep : name ≠ "/" := by
    rintro rfl
    exact hslash (by decide)
  have hnames : names name = [name] := by
    rw [names, Text.split_eq_splitOn (d := '/') (by decide) hsep, List.splitOn_eq_singleton hslash]
    simp [hempty, hhere]
  rw [fileName?, hnames]
  simp [habove]

theorem hasExtension_iff {name extension : String} (h : FileTree.IsName name)
    (hpoint : '.' ∉ extension.toList) :
    hasExtension extension name = true ↔ ∃ stem, stem ≠ "" ∧ name = stem ++ ("." ++ extension) := by
  unfold hasExtension
  rw [fileName?_eq_some h, Option.bind_some, decide_eq_true_iff, extension?_eq_some_iff]
  simp only [hpoint, not_false_iff, and_true, String.append_assoc]

theorem isInterface_iff {name : String} (h : FileTree.IsName name) :
    isInterface name = true ↔ IsInterfaceName name := by
  unfold isInterface
  rw [Bool.or_eq_true, hasExtension_iff h (by decide), hasExtension_iff h (by decide), ← exists_or]
  simp only [← and_or_left]
  rfl

/-! ### The order of paths -/

/-- Whether one path stands before another: the paths are compared name by name, and names byte by
byte. -/
def Precedes (a b : String) : Prop :=
  (names a).map Text.bytes < (names b).map Text.bytes

instance : Std.Irrefl Precedes where
  irrefl _ := List.lt_irrefl _

instance : Std.Asymm Precedes where
  asymm _ _ := List.lt_asymm

/-- Names that a path goes on with stand at its end. -/
theorem names_join (start : String) : ∃ before : List String, ∀ inner : List String,
    (∀ name ∈ inner, FileTree.IsName name) → inner ≠ [] →
      names (join start inner) = before ++ inner := by
  obtain ⟨before, -, hjoin⟩ := FileTree.splitOn_join start
  refine ⟨(before.map String.ofList).filter fun name => name ≠ "" ∧ name ≠ ".", ?_⟩
  intro inner hinner hne
  have hsplit := hjoin inner (fun name hname => (hinner name hname).2) hne
  -- the path is no mere slash, as a name follows
  have hsep : join start inner ≠ "/" := by
    intro e
    obtain ⟨name, hname⟩ := List.exists_mem_of_ne_nil inner hne
    have hpiece : name.toList ∈ "/".toList.splitOn '/' := by
      rw [← e, hsplit]
      exact List.mem_append_right _ (List.mem_map_of_mem hname)
    have hempty : name.toList = [] := by
      simpa [List.splitOn_cons_eq_if_modifyHead] using hpiece
    exact (hinner name hname).1.1 (String.toList_eq_nil_iff.1 hempty)
  have hkeep : inner.filter (fun name => name ≠ "" ∧ name ≠ ".") = inner := by
    apply List.filter_eq_self.2
    intro name hname
    obtain ⟨⟨hempty, hhere, -⟩, -⟩ := hinner name hname
    exact decide_eq_true ⟨hempty, hhere⟩
  rw [names, Text.split_eq_splitOn (d := '/') (by decide) hsep, hsplit, List.map_append,
    List.filter_append, List.map_map]
  simpa [Function.comp_def] using hkeep

theorem precedes_join {start : String} {inner others : List String}
    (hinner : ∀ name ∈ inner, FileTree.IsName name)
    (hothers : ∀ name ∈ others, FileTree.IsName name) (hne : inner ≠ []) (h : inner < others) :
    Precedes (join start inner) (join start others) := by
  have hne' : others ≠ [] := by
    rintro rfl
    exact List.not_lt_nil _ h
  obtain ⟨before, hjoin⟩ := names_join start
  unfold Precedes
  rw [hjoin inner hinner hne, hjoin others hothers hne', List.map_append, List.map_append]
  apply List.append_left_lt
  exact List.map_lt (fun _ _ => Text.bytes_lt_bytes) h

end Path

namespace FileTree

/-! ### The files of a tree -/

theorem mem_childFiles {children : List (String × FileTree)} {name : String} {child : FileTree}
    {names : List String} {contents : ByteArray} (hmem : (name, child) ∈ children)
    (h : (names, contents) ∈ child.files) : (name :: names, contents) ∈ childFiles children := by
  induction children with
  | nil => cases hmem
  | cons first rest ih =>
    obtain ⟨other, tree⟩ := first
    unfold childFiles
    rcases List.mem_cons.1 hmem with e | hmem
    · obtain ⟨rfl, rfl⟩ := Prod.mk.inj e
      exact List.mem_append_left _ (List.mem_map_of_mem h)
    · exact List.mem_append_right _ (ih hmem)

theorem mem_files_iff {tree : FileTree} {names : List String} {contents : ByteArray} :
    (names, contents) ∈ tree.files ↔ Holds tree names contents := by
  constructor
  · exact holds_of_mem_files
  · intro h
    induction h with
    | here => exact List.mem_singleton_self _
    | inside hmem _ ih => exact mem_childFiles hmem ih

mutual

/-- No two files of a tree have the same names. -/
theorem nodup_files : ∀ {tree : FileTree}, tree.Proper → (tree.files.map Prod.fst).Nodup
  | file _, _ => List.nodup_singleton _
  | directory _, h => nodup_childFiles h.1 h.2
termination_by structural tree => tree

theorem nodup_childFiles : ∀ {children : List (String × FileTree)},
    (children.map Prod.fst).Nodup → ProperChildren children →
    ((childFiles children).map Prod.fst).Nodup
  | [], _, _ => List.nodup_nil
  | (name, child) :: rest, hnodup, hproper => by
    obtain ⟨hname, hrest⟩ := List.nodup_cons.1 hnodup
    unfold childFiles
    rw [List.map_append, List.nodup_append]
    refine ⟨?_, nodup_childFiles hrest hproper.2, ?_⟩
    · show ((child.files.map fun file => (name :: file.1, file.2)).map Prod.fst).Nodup
      rw [List.map_map]
      show (child.files.map (List.cons name ∘ Prod.fst)).Nodup
      rw [← List.map_map]
      exact (nodup_files hproper.1.2).map List.cons_injective
    · -- files of different entries differ in the first name
      rintro names hnames _ hothers rfl
      obtain ⟨_, hfile, rfl⟩ := List.mem_map.1 hnames
      obtain ⟨⟨own, contents⟩, -, rfl⟩ := List.mem_map.1 hfile
      obtain ⟨⟨_, contents'⟩, hother, rfl⟩ := List.mem_map.1 hothers
      obtain ⟨other, tree, _, e, hmem, -⟩ := exists_of_mem_childFiles hother
      obtain ⟨rfl, -⟩ := List.cons.inj e
      exact hname (List.mem_map.2 ⟨_, hmem, rfl⟩)
termination_by structural children => children

end

/-! ### The order of entries -/

/-- Whether two trees differ at most in the order in which directories have their entries. -/
inductive Reorders : FileTree → FileTree → Prop
  | same (tree) : Reorders tree tree
  | entries {children others} : children.Perm others →
      Reorders (directory children) (directory others)
  | inside {before behind name child other} : Reorders child other →
      Reorders (directory (before ++ (name, child) :: behind))
        (directory (before ++ (name, other) :: behind))
  | trans {tree other another} : Reorders tree other → Reorders other another →
      Reorders tree another

theorem Reorders.symm {tree other : FileTree} (h : Reorders tree other) : Reorders other tree := by
  induction h with
  | same tree => exact .same tree
  | entries hperm => exact .entries hperm.symm
  | inside _ ih => exact .inside ih
  | trans _ _ ih ih' => exact .trans ih' ih

theorem properChildren_iff {children : List (String × FileTree)} :
    ProperChildren children ↔ ∀ entry ∈ children, IsName entry.1 ∧ entry.2.Proper := by
  constructor
  · intro h entry hmem
    exact h.of_mem hmem
  · intro h
    induction children with
    | nil => trivial
    | cons first rest ih =>
      rw [List.forall_mem_cons] at h
      exact ⟨h.1, ih h.2⟩

theorem Reorders.proper {tree other : FileTree} (h : Reorders tree other) (hproper : tree.Proper) :
    other.Proper := by
  induction h with
  | same => exact hproper
  | entries hperm =>
    refine ⟨(hperm.map Prod.fst).nodup_iff.1 hproper.1, properChildren_iff.2 ?_⟩
    intro entry hmem
    exact properChildren_iff.1 hproper.2 entry (hperm.mem_iff.2 hmem)
  | @inside before behind name child other _ ih =>
    have hentries := properChildren_iff.1 hproper.2
    have hchild := hentries (name, child) (List.mem_append_right _ List.mem_cons_self)
    refine ⟨by simpa using hproper.1, properChildren_iff.2 ?_⟩
    intro entry hmem
    rcases List.mem_append.1 hmem with hmem | hmem
    · exact hentries entry (List.mem_append_left _ hmem)
    · rcases List.mem_cons.1 hmem with rfl | hmem
      · exact ⟨hchild.1, ih hchild.2⟩
      · exact hentries entry (List.mem_append_right _ (List.mem_cons_of_mem _ hmem))
  | trans _ _ ih ih' => exact ih' (ih hproper)

theorem Reorders.holds {tree other : FileTree} {names : List String} {contents : ByteArray}
    (h : Reorders tree other) (hholds : Holds tree names contents) :
    Holds other names contents := by
  induction h generalizing names with
  | same => exact hholds
  | entries hperm =>
    cases hholds with
    | inside hmem hchild => exact .inside (hperm.mem_iff.1 hmem) hchild
  | inside _ ih =>
    cases hholds with
    | inside hmem hchild =>
      rcases List.mem_append.1 hmem with hmem | hmem
      · exact .inside (List.mem_append_left _ hmem) hchild
      · rcases List.mem_cons.1 hmem with e | hmem
        · obtain ⟨rfl, rfl⟩ := Prod.mk.inj e
          exact .inside (List.mem_append_right _ List.mem_cons_self) (ih hchild)
        · exact .inside (List.mem_append_right _ (List.mem_cons_of_mem _ hmem)) hchild
  | trans _ _ ih ih' => exact ih' (ih hholds)

theorem Reorders.holds_iff {tree other : FileTree} {names : List String} {contents : ByteArray}
    (h : Reorders tree other) : Holds tree names contents ↔ Holds other names contents :=
  ⟨h.holds, h.symm.holds⟩

/-! ### What the search finds -/

/-- The interface files among some entries, in the order of their names. -/
def foundFiles (children : List (String × FileTree)) : List (List String × ByteArray) :=
  ((childFiles children).filter fun file => file.1.getLast?.any Path.isInterface).mergeSort
    fun a b => !decide (b.1 < a.1)

theorem interfaceFiles_directory (path : String) (children : List (String × FileTree)) :
    (directory children).interfaceFiles path =
      (foundFiles children).map fun file => (Path.join path file.1, file.2) :=
  rfl

section Search

variable {children : List (String × FileTree)} {names : List String} {contents : ByteArray}

theorem mem_foundFiles_iff :
    (names, contents) ∈ foundFiles children ↔
      Holds (directory children) names contents ∧ names.getLast?.any Path.isInterface = true := by
  unfold foundFiles
  rw [List.mem_mergeSort, List.mem_filter]
  show (names, contents) ∈ (directory children).files ∧ _ ↔ _
  rw [mem_files_iff]

theorem ne_nil_of_mem_foundFiles (h : (names, contents) ∈ foundFiles children) : names ≠ [] := by
  rintro rfl
  cases (mem_foundFiles_iff.1 h).1

theorem isName_of_mem_foundFiles (hproper : (directory children).Proper)
    (h : (names, contents) ∈ foundFiles children) : ∀ name ∈ names, IsName name :=
  (mem_foundFiles_iff.1 h).1.isName hproper

/-- Sorting puts no file behind one with greater names. -/
theorem sorted_foundFiles (children : List (String × FileTree)) :
    (foundFiles children).Pairwise fun a b => ¬b.1 < a.1 := by
  have hsorted : (foundFiles children).Pairwise fun a b => !decide (b.1 < a.1) := by
    apply List.pairwise_mergeSort
    · intro a b c hab hbc
      rw [Bool.not_eq_true', decide_eq_false_iff_not] at hab hbc ⊢
      exact List.le_trans hab hbc
    · intro a b
      rw [Bool.or_eq_true, Bool.not_eq_true', Bool.not_eq_true', decide_eq_false_iff_not,
        decide_eq_false_iff_not]
      exact List.le_total a.1 b.1
  apply hsorted.imp
  intro a b hab
  rwa [Bool.not_eq_true', decide_eq_false_iff_not] at hab

theorem nodup_foundFiles (h : (directory children).Proper) :
    ((foundFiles children).map Prod.fst).Nodup := by
  unfold foundFiles
  rw [((List.mergeSort_perm _ _).map _).nodup_iff]
  exact (nodup_childFiles h.1 h.2).sublist (List.filter_sublist.map _)

theorem pairwise_foundFiles (h : (directory children).Proper) :
    (foundFiles children).Pairwise fun a b => a.1 < b.1 := by
  have hne := List.pairwise_map.1 (nodup_foundFiles h)
  apply ((sorted_foundFiles children).and hne).imp
  intro a b ⟨hle, hne⟩
  exact (List.le_iff_lt_or_eq.1 hle).resolve_right hne

theorem mem_interfaceFiles_iff (h : (directory children).Proper) {path inner : String} :
    (inner, contents) ∈ (directory children).interfaceFiles path ↔
      ∃ names name, Holds (directory children) (names ++ [name]) contents ∧
        Path.IsInterfaceName name ∧ inner = Path.join path (names ++ [name]) := by
  rw [interfaceFiles_directory, List.mem_map]
  constructor
  · rintro ⟨⟨names, contents⟩, hmem, e⟩
    obtain ⟨rfl, rfl⟩ := Prod.mk.inj e
    obtain ⟨hholds, hlast⟩ := mem_foundFiles_iff.1 hmem
    obtain ⟨name, hname, hinterface⟩ := (Option.any_eq_true _ _).1 hlast
    obtain ⟨names, rfl⟩ := List.getLast?_eq_some_iff.1 hname
    have hproper : IsName name := hholds.isName h name (by simp)
    exact ⟨names, name, hholds, (Path.isInterface_iff hproper).1 hinterface, rfl⟩
  · rintro ⟨names, name, hholds, hinterface, rfl⟩
    have hproper : IsName name := hholds.isName h name (by simp)
    refine ⟨(names ++ [name], contents), mem_foundFiles_iff.2 ⟨hholds, ?_⟩, rfl⟩
    simpa using (Path.isInterface_iff hproper).2 hinterface

theorem pairwise_interfaceFiles (h : (directory children).Proper) (path : String) :
    (((directory children).interfaceFiles path).map Prod.fst).Pairwise Path.Precedes := by
  rw [interfaceFiles_directory, List.map_map, List.pairwise_map]
  apply (pairwise_foundFiles h).imp_of_mem
  intro a b ha hb hlt
  apply Path.precedes_join (isName_of_mem_foundFiles h ha) (isName_of_mem_foundFiles h hb) _ hlt
  exact ne_nil_of_mem_foundFiles ha

end Search

/-- The order of the entries has no part in what is found, as a list in a strict order is known from
its members. -/
theorem interfaceFiles_eq_of_reorders {children others : List (String × FileTree)}
    (h : (directory children).Proper) (hother : Reorders (directory children) (directory others))
    (path : String) :
    (directory others).interfaceFiles path = (directory children).interfaceFiles path := by
  have hproper : (directory others).Proper := hother.proper h
  have hsorted := List.pairwise_map.1 (pairwise_interfaceFiles h path)
  have hsorted' := List.pairwise_map.1 (pairwise_interfaceFiles hproper path)
  have : Std.Irrefl fun a b : String × ByteArray => Path.Precedes a.1 b.1 :=
    ⟨fun a => Std.Irrefl.irrefl a.1⟩
  have : Std.Antisymm fun a b : String × ByteArray => Path.Precedes a.1 b.1 :=
    ⟨fun a b hab hba => absurd hba (Std.Asymm.asymm a.1 b.1 hab)⟩
  apply hsorted'.eq_of_mem_iff hsorted
  rintro ⟨inner, contents⟩
  rw [mem_interfaceFiles_iff h, mem_interfaceFiles_iff hproper]
  simp only [hother.holds_iff]

/-! ### Main statement -/

/-- The search below a directory finds exactly the files with the name of an interface file, each
once, in the order of their paths and whatever the order of the entries. -/
theorem interfaceFiles_complete {children : List (String × FileTree)}
    (h : (directory children).Proper) (path : String) :
    let found := (directory children).interfaceFiles path
    (∀ inner contents, (inner, contents) ∈ found ↔
      ∃ names name, Holds (directory children) (names ++ [name]) contents ∧
        Path.IsInterfaceName name ∧ inner = Path.join path (names ++ [name])) ∧
    (found.map Prod.fst).Nodup ∧
    (found.map Prod.fst).Pairwise Path.Precedes ∧
    ∀ others, Reorders (directory children) (directory others) →
      (directory others).interfaceFiles path = found := by
  intro found
  have hsorted : (found.map Prod.fst).Pairwise Path.Precedes := pairwise_interfaceFiles h path
  refine ⟨?_, ?_, hsorted, ?_⟩
  · intro inner contents
    exact mem_interfaceFiles_iff h
  · exact hsorted.nodup
  · intro others hother
    exact interfaceFiles_eq_of_reorders h hother path

/-- A directory whose files come in another order than the texts of their paths, with a file that
has no more than an extension for its name and a directory named like an interface file. -/
theorem interfaceFiles_complete_of_mixed :
    let empty : FileTree := file ByteArray.empty
    let below := [("x.tar.json", empty)]
    let children := [("a-b.abi", empty), ("a", directory below), (".json", empty),
      ("b.json", directory [("README", empty)])]
    (directory children).Proper ∧
      ("abis/a/x.tar.json", ByteArray.empty) ∈ (directory children).interfaceFiles "abis" ∧
      (((directory children).interfaceFiles "abis").map Prod.fst).Nodup ∧
      (((directory children).interfaceFiles "abis").map Prod.fst).Pairwise Path.Precedes ∧
      ((directory children.reverse).interfaceFiles "abis").map Prod.fst =
        ["abis/a/x.tar.json", "abis/a-b.abi"] := by
  intro empty below children
  have hproper : (directory children).Proper := by
    have hnames : ∀ name ∈ ["a-b.abi", "a", "x.tar.json", ".json", "b.json", "README"],
        IsName name := by decide
    simp only [List.forall_mem_cons] at hnames
    obtain ⟨hab, ha, hx, hjson, hb, hreadme, -⟩ := hnames
    have hbelow : (directory below).Proper := ⟨by decide, ⟨hx, trivial⟩, trivial⟩
    have hother : (directory [("README", empty)]).Proper := ⟨by decide, ⟨hreadme, trivial⟩, trivial⟩
    exact ⟨by decide, ⟨hab, trivial⟩, ⟨ha, hbelow⟩, ⟨hjson, trivial⟩, ⟨hb, hother⟩, trivial⟩
  obtain ⟨hmem, hnodup, hsorted, hreorder⟩ := interfaceFiles_complete hproper "abis"
  refine ⟨hproper, (hmem _ _).2 ⟨["a"], "x.tar.json", ?_, ?_, by decide⟩, hnodup, hsorted, ?_⟩
  · have hx : Holds (directory below) ["x.tar.json"] ByteArray.empty :=
      .inside (List.mem_singleton_self _) .here
    exact .inside (List.mem_cons_of_mem _ List.mem_cons_self) hx
  · exact ⟨"x.tar", by decide, .inl (by decide)⟩
  · rw [hreorder _ (.entries (List.reverse_perm children).symm)]
    have hfound : ((childFiles children).filter fun file => file.1.getLast?.any Path.isInterface) =
        [(["a-b.abi"], ByteArray.empty), (["a", "x.tar.json"], ByteArray.empty)] := by
      decide +kernel
    have hfirst : ["a", "x.tar.json"] < ["a-b.abi"] := by decide
    have hsort : foundFiles children =
        [(["a", "x.tar.json"], ByteArray.empty), (["a-b.abi"], ByteArray.empty)] := by
      rw [foundFiles, hfound]
      simp [List.mergeSort, List.MergeSort.Internal.splitInTwo, hfirst]
    rw [interfaceFiles_directory, hsort]
    decide +kernel

end FileTree

end ContractAbi
