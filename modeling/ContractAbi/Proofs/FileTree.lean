import ContractAbi.FileTree
import ContractAbi.Proofs.Text.Basic

/-!
# Paths of files

The search for interface files gives each file the path of the directory, continued by the names on
the way to the file. In a tree whose names are proper that path leads to the file. Main statement:
`FileTree.at?_of_mem_interfaceFiles`.
-/

namespace ContractAbi

namespace FileTree

/-! ### Trees with proper names -/

/-- Whether an entry of a directory may have the name: it is one step on a path, and down. -/
def IsName (name : String) : Prop :=
  (name ≠ "" ∧ name ≠ "." ∧ name ≠ "..") ∧ '/' ∉ name.toList

instance (name : String) : Decidable (IsName name) :=
  inferInstanceAs (Decidable (_ ∧ _))

mutual

/-- Whether the entries of all directories have proper names, different ones in each. -/
def Proper : FileTree → Prop
  | file _ => True
  | directory children => (children.map Prod.fst).Nodup ∧ ProperChildren children

/-- Whether entries have proper names and are proper themselves. -/
def ProperChildren : List (String × FileTree) → Prop
  | [] => True
  | (name, child) :: rest => (IsName name ∧ child.Proper) ∧ ProperChildren rest

end

theorem ProperChildren.of_mem {children : List (String × FileTree)} (h : ProperChildren children)
    {name : String} {child : FileTree} (hmem : (name, child) ∈ children) :
    IsName name ∧ child.Proper := by
  induction children with
  | nil => cases hmem
  | cons first rest ih =>
    rcases List.mem_cons.1 hmem with rfl | hmem
    · exact h.1
    · exact ih h.2 hmem

theorem lookup_of_mem {children : List (String × FileTree)} (h : (children.map Prod.fst).Nodup)
    {name : String} {child : FileTree} (hmem : (name, child) ∈ children) :
    children.lookup name = some child := by
  obtain ⟨before, behind, rfl⟩ := List.append_of_mem hmem
  refine List.lookup_eq_some_iff.2 ⟨before, behind, rfl, ?_⟩
  intro other hother
  rw [List.map_append, List.nodup_append] at h
  have hne : other.1 ≠ name := h.2.2 _ (List.mem_map_of_mem hother) _ List.mem_cons_self
  simpa using hne.symm

/-! ### The files of a tree -/

/-- Whether a tree holds a file under some names, one below the other. -/
inductive Holds : FileTree → List String → ByteArray → Prop
  | here {contents} : Holds (file contents) [] contents
  | inside {children name child names contents} : (name, child) ∈ children →
      Holds child names contents → Holds (directory children) (name :: names) contents

mutual

theorem holds_of_mem_files : ∀ {tree : FileTree} {names : List String} {contents : ByteArray},
    (names, contents) ∈ tree.files → Holds tree names contents
  | file _, _, _, h => by
    obtain ⟨rfl, rfl⟩ := Prod.mk.inj (List.mem_singleton.1 h)
    exact .here
  | directory children, _, _, h => by
    obtain ⟨name, child, rest, rfl, hmem, hholds⟩ := exists_of_mem_childFiles h
    exact .inside hmem hholds
termination_by structural tree => tree

theorem exists_of_mem_childFiles : ∀ {children : List (String × FileTree)} {names : List String}
    {contents : ByteArray}, (names, contents) ∈ childFiles children →
    ∃ name child rest, names = name :: rest ∧ (name, child) ∈ children ∧ Holds child rest contents
  | [], _, _, h => by cases h
  | (name, child) :: others, _, _, h => by
    rcases List.mem_append.1 h with h | h
    · obtain ⟨⟨rest, contents⟩, hmem, e⟩ := List.mem_map.1 h
      obtain ⟨rfl, rfl⟩ := Prod.mk.inj e
      exact ⟨name, child, rest, rfl, List.mem_cons_self, holds_of_mem_files hmem⟩
    · obtain ⟨name, child, rest, rfl, hmem, hholds⟩ := exists_of_mem_childFiles h
      exact ⟨name, child, rest, rfl, List.mem_cons_of_mem _ hmem, hholds⟩
termination_by structural children => children

end

theorem Holds.isName {tree : FileTree} {names : List String} {contents : ByteArray}
    (h : Holds tree names contents) (hproper : tree.Proper) : ∀ name ∈ names, IsName name := by
  induction h with
  | here => exact List.forall_mem_nil _
  | inside hmem _ ih =>
    obtain ⟨hname, hchild⟩ := hproper.2.of_mem hmem
    rw [List.forall_mem_cons]
    exact ⟨hname, ih hchild⟩

/-! ### Following a path -/

/-- Where some names lead from `here`, which lies in the directories `above`, with the directories
that the place lies in. -/
def walk (above : List FileTree) (here : FileTree) :
    List String → Option (List FileTree × FileTree)
  | [] => some (above, here)
  | name :: rest =>
    match here with
    | file _ => none
    | directory children =>
      if name = "" ∨ name = "." then walk above here rest
      else if name = ".." then
        match above with
        | [] => none
        | parent :: above => walk above parent rest
      else
        match children.lookup name with
        | none => none
        | some child => walk (here :: above) child rest

theorem follow_cons (above : List FileTree) (children : List (String × FileTree)) (name : String)
    (rest : List String) :
    follow above (directory children) (name :: rest) =
      if name = "" ∨ name = "." then follow above (directory children) rest
      else if name = ".." then
        match above with
        | [] => none
        | parent :: above => follow above parent rest
      else
        match children.lookup name with
        | none => none
        | some child => follow (directory children :: above) child rest :=
  rfl

/-- A path is followed name by name. -/
theorem follow_append (above : List FileTree) (here : FileTree) (names others : List String) :
    follow above here (names ++ others) =
      (walk above here names).bind fun place => follow place.1 place.2 others := by
  induction names generalizing above here with
  | nil => rfl
  | cons name names ih =>
    cases here with
    | file contents => rfl
    | directory children =>
      rw [List.cons_append, follow_cons]
      unfold walk
      dsimp only
      split
      · exact ih above _
      split
      · cases above with
        | nil => rfl
        | cons parent above => exact ih above parent
      · cases children.lookup name with
        | none => rfl
        | some child => exact ih _ child

/-- The names of a file lead to it, from wherever its tree lies. -/
theorem Holds.follow_eq {tree : FileTree} {names : List String} {contents : ByteArray}
    (h : Holds tree names contents) (hproper : tree.Proper) (above : List FileTree) :
    follow above tree names = some (file contents) := by
  induction h generalizing above with
  | here => rfl
  | inside hmem _ ih =>
    obtain ⟨⟨⟨hempty, hhere, habove⟩, -⟩, hchild⟩ := hproper.2.of_mem hmem
    rw [follow_cons, if_neg (not_or.2 ⟨hempty, hhere⟩), if_neg habove, lookup_of_mem hproper.1 hmem]
    exact ih hchild _

/-- What lies at the end of a path through proper trees is proper. -/
theorem proper_of_follow {above : List FileTree} {here found : FileTree} {names : List String}
    (habove : ∀ tree ∈ above, tree.Proper) (hhere : here.Proper)
    (h : follow above here names = some found) : found.Proper := by
  induction names generalizing above here with
  | nil =>
    obtain rfl := Option.some.inj h
    exact hhere
  | cons name names ih =>
    cases here with
    | file contents => cases h
    | directory children =>
      rw [follow_cons] at h
      split at h
      · exact ih habove hhere h
      split at h
      · cases above with
        | nil => cases h
        | cons parent above =>
          rw [List.forall_mem_cons] at habove
          exact ih habove.2 habove.1 h
      · cases hchild : children.lookup name with
        | none =>
          rw [hchild] at h
          cases h
        | some child =>
          rw [hchild] at h
          obtain ⟨before, behind, rfl, -⟩ := List.lookup_eq_some_iff.1 hchild
          have hproper := (hhere.2.of_mem (List.mem_append_right _ List.mem_cons_self)).2
          exact ih (List.forall_mem_cons.2 ⟨hhere, habove⟩) hproper h

/-- A slash at the end asks for a directory, which is then found. -/
theorem eq_of_follow_empty {above : List FileTree} {here : FileTree}
    {children : List (String × FileTree)} (h : follow above here [""] = some (directory children)) :
    here = directory children := by
  cases here with
  | file contents => cases h
  | directory others => exact Option.some.inj h

/-! ### Paths that go on -/

theorem split_eq {path : String} (h : path.toList.head? ≠ some '/') :
    Text.split path "/" = (path.toList.splitOn '/').map String.ofList := by
  apply Text.split_eq_splitOn (by decide)
  rintro rfl
  exact h (by decide)

theorem splitOn_intercalate_names {names : List String} (h : ∀ name ∈ names, '/' ∉ name.toList)
    (hne : names ≠ []) :
    ("/".intercalate names).toList.splitOn '/' = names.map String.toList := by
  have hparts : ∀ part ∈ names.map String.toList, '/' ∉ part := by
    simpa using h
  rw [String.toList_intercalate]
  exact List.splitOn_intercalate _ hparts (by simpa using hne)

theorem head?_join {start : String} (hempty : start ≠ "") (names : List String) :
    (Path.join start names).toList.head? = start.toList.head? := by
  obtain ⟨c, cs, hstart⟩ := List.exists_cons_of_ne_nil (String.toList_eq_nil_iff.not.2 hempty)
  rw [Path.join, String.append_assoc, String.toList_append, hstart]
  rfl

/-- The names that a path goes on with are found behind those at its start. Those may end in the
empty one that a slash at the end leaves. -/
theorem splitOn_join (start : String) : ∃ before : List (List Char),
    (start.toList.splitOn '/' = before ∨ start.toList.splitOn '/' = before ++ [[]]) ∧
    ∀ names : List String, (∀ name ∈ names, '/' ∉ name.toList) → names ≠ [] →
      (Path.join start names).toList.splitOn '/' = before ++ names.map String.toList := by
  by_cases hlast : start.toList.getLast? = some '/'
  · obtain ⟨first, hfirst⟩ := List.getLast?_eq_some_iff.1 hlast
    refine ⟨first.splitOn '/', .inr ?_, ?_⟩
    · rw [hfirst, List.splitOn_append_cons_self, List.splitOn_nil]
    · intro names hnames hne
      rw [Path.join, if_pos hlast, String.append_empty, String.toList_append, hfirst,
        List.append_assoc, List.singleton_append, List.splitOn_append_cons_self,
        splitOn_intercalate_names hnames hne]
  · refine ⟨start.toList.splitOn '/', .inl rfl, ?_⟩
    intro names hnames hne
    rw [Path.join, if_neg hlast, String.toList_append, String.toList_append, List.append_assoc]
    show List.splitOn '/' (start.toList ++ '/' :: ("/".intercalate names).toList) = _
    rw [List.splitOn_append_cons_self, splitOn_intercalate_names hnames hne]

theorem split_join {start : String} {names : List String} (hstart : start.toList.head? ≠ some '/')
    (hempty : start ≠ "") (hnames : ∀ name ∈ names, '/' ∉ name.toList) (hne : names ≠ []) :
    ∃ before, Text.split (Path.join start names) "/" = before ++ names ∧
      (Text.split start "/" = before ∨ Text.split start "/" = before ++ [""]) := by
  obtain ⟨before, hbegin, hjoin⟩ := splitOn_join start
  rw [split_eq (head?_join hempty names ▸ hstart), split_eq hstart, hjoin names hnames hne,
    List.map_append]
  refine ⟨before.map String.ofList, ?_, ?_⟩
  · simp [Function.comp_def]
  · rcases hbegin with e | e
    · exact .inl (congrArg _ e)
    · right
      rw [e, List.map_append]
      rfl

/-- Below a directory that a path leads to, the names of a file go on to the file. -/
theorem at?_join {tree : FileTree} {path : String} {children : List (String × FileTree)}
    {names : List String} {contents : ByteArray} (hproper : tree.Proper)
    (hpath : tree.at? path = some (directory children))
    (hholds : Holds (directory children) names contents) :
    tree.at? (Path.join path names) = some (file contents) := by
  rw [at?] at hpath
  split at hpath
  · cases hpath
  next hbegin =>
  rw [not_or] at hbegin
  obtain ⟨hempty, hslash⟩ := hbegin
  have hdirectory : (directory children).Proper :=
    proper_of_follow (List.forall_mem_nil _) hproper hpath
  have hnames : ∀ name ∈ names, '/' ∉ name.toList := fun name hname =>
    (hholds.isName hdirectory name hname).2
  have hne : names ≠ [] := by
    cases hholds
    exact List.cons_ne_nil _ _
  obtain ⟨before, hjoin, hstart⟩ := split_join hslash hempty hnames hne
  have hwalk : ∃ above, walk [] tree before = some (above, directory children) := by
    rcases hstart with hstart | hstart
    · rw [hstart, ← List.append_nil before, follow_append, Option.bind_eq_some_iff] at hpath
      obtain ⟨⟨above, here⟩, hwalk, hhere⟩ := hpath
      obtain rfl := Option.some.inj hhere
      exact ⟨above, hwalk⟩
    · rw [hstart, follow_append, Option.bind_eq_some_iff] at hpath
      obtain ⟨⟨above, here⟩, hwalk, hhere⟩ := hpath
      obtain rfl := eq_of_follow_empty hhere
      exact ⟨above, hwalk⟩
  obtain ⟨above, hwalk⟩ := hwalk
  have hbegin : ¬(Path.join path names = "" ∨ (Path.join path names).toList.head? = some '/') := by
    rw [head?_join hempty, not_or]
    refine ⟨?_, hslash⟩
    intro e
    rw [Path.join, String.append_assoc] at e
    exact hempty (String.append_eq_empty_iff.1 e).1
  rw [at?, if_neg hbegin, hjoin, follow_append, hwalk]
  exact hholds.follow_eq hdirectory above

/-! ### Main statement -/

/-- The path of an interface file that is found below a path leads to the file. -/
theorem at?_of_mem_interfaceFiles {tree found : FileTree} {path inner : String}
    {contents : ByteArray} (hproper : tree.Proper) (hpath : tree.at? path = some found)
    (h : (inner, contents) ∈ found.interfaceFiles path) :
    tree.at? inner = some (file contents) := by
  cases found with
  | file own =>
    rw [interfaceFiles] at h
    split at h
    · obtain ⟨rfl, rfl⟩ := Prod.mk.inj (List.mem_singleton.1 h)
      exact hpath
    · cases h
  | directory children =>
    obtain ⟨⟨names, contents⟩, hmem, e⟩ := List.mem_map.1 h
    obtain ⟨rfl, rfl⟩ := Prod.mk.inj e
    have hfile : (names, contents) ∈ (directory children).files :=
      (List.mem_filter.1 (List.mem_mergeSort.1 hmem)).1
    exact at?_join hproper hpath (holds_of_mem_files hfile)

end FileTree

end ContractAbi
