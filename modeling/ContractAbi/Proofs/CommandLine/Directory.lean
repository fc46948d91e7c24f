import Mathlib.Algebra.GroupWithZero.Nat
import ContractAbi.CommandLine.Run
import ContractAbi.Proofs.FileTree

/-!
# Running on a directory

A run on a directory shows on the standard output, and of declarations that were refused, what the
runs on each of its interface files alone show, one after the other. What fails in one of them ends
that one only, and is counted in the summary. Main statement: `outcome_directory`.
-/

namespace ContractAbi.CommandLine

/-! ### What is shown where -/

/-- The line that an output adds to the standard output. -/
def Output.stdout? : Output → Option String
  | .out line => some line
  | .err _ | .log _ => none

/-- The line on a refused declaration that an output adds to the standard error output. These lines
begin with a cross. -/
def Output.rejection? : Output → Option String
  | .err line => if line.toList.head? = some '✘' then some line else none
  | .out _ | .log _ => none

/-- The lines on the standard output. -/
def Outcome.stdout (o : Outcome) : List String :=
  o.outputs.filterMap Output.stdout?

/-- The lines on refused declarations. -/
def Outcome.rejections (o : Outcome) : List String :=
  o.outputs.filterMap Output.rejection?

/-- The lines of a summary with these counts. -/
def countLines (entries files rejected failed : Nat) : List String :=
  ["", "Summary",
    "   " ++ Decimal.text entries ++ " entries across " ++ Decimal.text files ++ " files"] ++
  (if 0 < rejected then ["   " ++ Decimal.text rejected ++ " declarations rejected"] else []) ++
  (if 0 < failed then ["   " ++ Decimal.text failed ++ " files failed"] else [])

/-- Whether a view of outputs sees neither the journal nor the report on a failure. -/
structure IsView (view : Output → Option String) : Prop where
  log : ∀ line, view (.log line) = none
  report : ∀ e : CommandError, view (.err e.report) = none

theorem isView_stdout? : IsView Output.stdout? :=
  ⟨fun _ => rfl, fun _ => rfl⟩

/-- The report on a failure begins otherwise than the line on a refused declaration. -/
theorem head?_report (e : CommandError) : e.report.toList.head? = some 'E' := by
  have hstart : ∀ rest : String, ("Error: " ++ rest).toList.head? = some 'E' := by
    intro rest
    rw [String.toList_append]
    rfl
  unfold CommandError.report
  split
  · decide
  · exact hstart _
  · rw [String.append_assoc, String.append_assoc]
    exact hstart _
  · rw [String.append_assoc, String.append_assoc]
    exact hstart _

theorem isView_rejection? : IsView Output.rejection? := by
  refine ⟨fun _ => rfl, fun e => ?_⟩
  show (if e.report.toList.head? = some '✘' then _ else none) = none
  rw [head?_report, if_neg (by decide)]

theorem filterMap_stdout?_out (lines : List String) :
    (lines.map Output.out).filterMap Output.stdout? = lines := by
  rw [List.filterMap_map]
  exact List.filterMap_some

theorem filterMap_rejection?_out (lines : List String) :
    (lines.map Output.out).filterMap Output.rejection? = [] := by
  rw [List.filterMap_eq_nil_iff]
  intro output houtput
  obtain ⟨line, -, rfl⟩ := List.mem_map.1 houtput
  rfl

/-! ### Runs seen through a view -/

namespace IsView

variable {view : Output → Option String} (h : IsView view)

include h

/-- Lines of the journal that are left out are not seen anyway. -/
theorem filterMap_filter_isShown (verbose : Bool) (outputs : List Output) :
    (outputs.filter (isShown verbose)).filterMap view = outputs.filterMap view := by
  rw [List.filterMap_filter]
  congr 1
  funext output
  split
  · rfl
  · next hhidden =>
    cases output with
    | log line => exact (h.log line).symm
    | out line => exact absurd rfl hhidden
    | err line => exact absurd rfl hhidden

/-- What is seen of a whole run is seen of what it shows before it ends. -/
theorem filterMap_outcome (o : Options) (at? : String → Option FileTree) :
    (outcome (.run o) at?).outputs.filterMap view =
      (run o (at? o.input)).outputs.filterMap view := by
  unfold outcome
  dsimp only
  split
  · exact h.filterMap_filter_isShown o.verbose _
  · next e _ =>
    rw [List.filterMap_append, h.filterMap_filter_isShown, List.filterMap_cons, h.report]
    exact List.append_nil _

/-- In a run on a directory a failure is told in the journal only. -/
theorem filterMap_outputs (r : FileRun) :
    r.outputs.filterMap view = r.trace.outputs.filterMap view := by
  rw [FileRun.outputs, List.filterMap_append]
  cases r.trace.failure with
  | none => exact List.append_nil _
  | some e =>
    rw [List.filterMap_cons, h.log]
    exact List.append_nil _

/-- A run on a directory shows what its files show, and the summary. -/
theorem filterMap_runDirectory (o : Options) (files : List (String × ByteArray)) :
    (runDirectory o files).outputs.filterMap view =
      (files.flatMap fun file => (runFile o file.1 file.2).outputs.filterMap view) ++
        ((if o.json then []
          else summaryLines (files.map fun file => .ofFile o file.1 file.2)).map
            Output.out).filterMap view := by
  have hnothing : (if files.isEmpty then
      [Output.log ⟨.warn, "No ABI files found in " ++ o.input⟩] else []).filterMap view = [] := by
    split
    · rw [List.filterMap_cons, h.log]
      rfl
    · rfl
  have hfile : ∀ file : String × ByteArray,
      (FileRun.ofFile o file.1 file.2).outputs.filterMap view =
        (runFile o file.1 file.2).outputs.filterMap view := fun _ => h.filterMap_outputs _
  unfold runDirectory
  dsimp only
  rw [List.filterMap_append, List.filterMap_append, hnothing, List.nil_append,
    List.filterMap_flatMap, List.flatMap_map]
  simp only [hfile]

end IsView

/-! ### Counting -/

/-- What came of loading the file at a path. -/
def load? (o : Options) (at? : String → Option FileTree) (path : String) : Option AbiFile :=
  (AbiFile.load o.mode path (at? path)).result.toOption

theorem foldl_add_eq_sum {α : Type} (count : α → Nat) (as : List α) (n : Nat) :
    as.foldl (fun total a => total + count a) n = n + (as.map count).sum := by
  induction as generalizing n with
  | nil => rfl
  | cons a as ih =>
    rw [List.foldl_cons, ih, List.map_cons, List.sum_cons, Nat.add_assoc]

theorem summaryLines_eq (runs : List FileRun) :
    summaryLines runs =
      countLines (runs.map FileRun.entryCount).sum runs.length
        (runs.map FileRun.rejectedCount).sum (runs.countP FileRun.failed) := by
  unfold summaryLines
  dsimp only
  rw [foldl_add_eq_sum, foldl_add_eq_sum, Nat.zero_add, Nat.zero_add]
  rfl

/-- A sum over what there is, with nothing for what is missing. -/
theorem sum_map_filterMap {α β : Type} (find : α → Option β) (count : β → Nat) (as : List α) :
    ((as.filterMap find).map count).sum = (as.map fun a => (find a).elim 0 count).sum := by
  induction as with
  | nil => rfl
  | cons a as ih =>
    rw [List.filterMap_cons, List.map_cons, List.sum_cons, ← ih]
    cases find a with
    | none => exact (Nat.zero_add _).symm
    | some b => rfl

/-! ### Runs on one file -/

section File

variable {o : Options} {at? : String → Option FileTree} {path : String} {contents : ByteArray}

/-- What is shown of a file does not depend on where the options look for their input. -/
theorem runFile_input (o : Options) (input path : String) (contents : ByteArray) :
    runFile { o with input } path contents = runFile o path contents :=
  rfl

theorem run_of_file (h : at? path = some (.file contents)) :
    run { o with input := path } (at? path) = runFile o path contents := by
  rw [h]
  exact runFile_input o path path contents

theorem code_eq_one_iff_of_file (h : at? path = some (.file contents)) :
    (outcome (.run { o with input := path }) at?).code = 1 ↔
      (FileRun.ofFile o path contents).failed = true := by
  unfold outcome
  dsimp only
  rw [run_of_file h]
  show _ ↔ (runFile o path contents).failure.isSome = true
  split
  · next hnone => simp [hnone]
  · next e hsome => simp [hsome]

theorem entryCount_of_file (h : at? path = some (.file contents)) :
    (FileRun.ofFile o path contents).entryCount =
      (load? o at? path).elim 0 (·.descriptor.entries.length) := by
  rw [load?, h, FileRun.entryCount, FileRun.ofFile]
  dsimp only
  cases (AbiFile.load o.mode path (some (.file contents))).result <;> rfl

theorem rejectedCount_of_file (h : at? path = some (.file contents)) :
    (FileRun.ofFile o path contents).rejectedCount =
      (load? o at? path).elim 0 (·.rejected.length) := by
  rw [load?, h, FileRun.rejectedCount, FileRun.ofFile]
  dsimp only
  cases (AbiFile.load o.mode path (some (.file contents))).result <;> rfl

end File

/-! ### Runs on a directory -/

section Directory

variable {o : Options} {at? : String → Option FileTree} {children : List (String × FileTree)}
  {files : List (String × ByteArray)}

/-- Through a view, a run on a directory is the runs on its files alone and the summary. -/
theorem IsView.filterMap_outcome_directory {view : Output → Option String} (h : IsView view)
    (hinput : at? o.input = some (.directory children))
    (hfiles : (FileTree.directory children).interfaceFiles o.input = files)
    (hat : ∀ file ∈ files, at? file.1 = some (.file file.2)) :
    (outcome (.run o) at?).outputs.filterMap view =
      (files.flatMap fun file =>
        (outcome (.run { o with input := file.1 }) at?).outputs.filterMap view) ++
      ((if o.json then []
        else summaryLines (files.map fun file => .ofFile o file.1 file.2)).map
          Output.out).filterMap view := by
  have halone : ∀ file ∈ files,
      (runFile o file.1 file.2).outputs.filterMap view =
        (outcome (.run { o with input := file.1 }) at?).outputs.filterMap view := by
    intro file hfile
    rw [h.filterMap_outcome, run_of_file (hat file hfile)]
  rw [h.filterMap_outcome, hinput]
  show (runDirectory o _).outputs.filterMap view = _
  rw [hfiles, h.filterMap_runDirectory, List.flatMap_def, List.map_congr_left halone,
    ← List.flatMap_def]

/-- The summary counts what came of loading the files and which runs on them alone fail. -/
theorem summaryLines_of_files (hat : ∀ file ∈ files, at? file.1 = some (.file file.2)) :
    summaryLines (files.map fun file => .ofFile o file.1 file.2) =
      countLines
        (((files.map Prod.fst).filterMap (load? o at?)).map (·.descriptor.entries.length)).sum
        files.length
        (((files.map Prod.fst).filterMap (load? o at?)).map (·.rejected.length)).sum
        ((files.map Prod.fst).countP fun path =>
          (outcome (.run { o with input := path }) at?).code = 1) := by
  have hentries : (files.map fun file => FileRun.ofFile o file.1 file.2).map FileRun.entryCount =
      (files.map Prod.fst).map fun path =>
        (load? o at? path).elim 0 (·.descriptor.entries.length) := by
    rw [List.map_map, List.map_map]
    exact List.map_congr_left fun file hfile => entryCount_of_file (hat file hfile)
  have hrejected : (files.map fun file => FileRun.ofFile o file.1 file.2).map
      FileRun.rejectedCount =
      (files.map Prod.fst).map fun path => (load? o at? path).elim 0 (·.rejected.length) := by
    rw [List.map_map, List.map_map]
    exact List.map_congr_left fun file hfile => rejectedCount_of_file (hat file hfile)
  have hfailed : (files.map fun file => FileRun.ofFile o file.1 file.2).countP FileRun.failed =
      (files.map Prod.fst).countP fun path =>
        (outcome (.run { o with input := path }) at?).code = 1 := by
    rw [List.countP_map, List.countP_map]
    apply List.countP_congr
    intro file hfile
    rw [Function.comp_apply, Function.comp_apply, decide_eq_true_iff]
    exact (code_eq_one_iff_of_file (hat file hfile)).symm
  rw [summaryLines_eq, sum_map_filterMap, sum_map_filterMap, hentries, hrejected, hfailed,
    List.length_map]

end Directory

/-! ### Main statement -/

/-- A run on a directory against the runs on each of its interface files alone: its standard output
is theirs and a summary, which counts what was loaded and what failed, and so are its lines on
refused declarations. It does not fail. -/
theorem outcome_directory {tree : FileTree} {o : Options} {children : List (String × FileTree)}
    (hproper : tree.Proper) (hinput : tree.at? o.input = some (.directory children)) :
    let paths := ((FileTree.directory children).interfaceFiles o.input).map Prod.fst
    let alone := fun path => outcome (.run { o with input := path }) tree.at?
    let whole := outcome (.run o) tree.at?
    let loaded := paths.filterMap (load? o tree.at?)
    whole.stdout = paths.flatMap (fun path => (alone path).stdout) ++
        (if o.json then []
          else countLines (loaded.map (·.descriptor.entries.length)).sum paths.length
            (loaded.map (·.rejected.length)).sum
            (paths.countP fun path => (alone path).code = 1)) ∧
      whole.rejections = paths.flatMap (fun path => (alone path).rejections) ∧
      whole.code = 0 := by
  intro paths alone whole loaded
  have hat : ∀ file ∈ (FileTree.directory children).interfaceFiles o.input,
      tree.at? file.1 = some (.file file.2) := by
    rintro ⟨path, contents⟩ hfile
    exact FileTree.at?_of_mem_interfaceFiles hproper hinput hfile
  refine ⟨?_, ?_, ?_⟩
  · show (outcome (.run o) tree.at?).outputs.filterMap Output.stdout? = _
    rw [isView_stdout?.filterMap_outcome_directory hinput rfl hat, filterMap_stdout?_out,
      List.flatMap_map, summaryLines_of_files hat, List.length_map]
    rfl
  · show (outcome (.run o) tree.at?).outputs.filterMap Output.rejection? = _
    rw [isView_rejection?.filterMap_outcome_directory hinput rfl hat, filterMap_rejection?_out,
      List.append_nil, List.flatMap_map]
    rfl
  · show (outcome (.run o) tree.at?).code = 0
    unfold outcome
    dsimp only
    rw [hinput]
    rfl

/-- A directory with a file that has a declaration that is refused, and below it one that is no
JSON. -/
theorem outcome_directory_of_files :
    let below : FileTree := .directory [("b.json", .file "[".toUTF8)]
    let children := [("sub", below), ("a.abi", .file "function f()\nfunction g(".toUTF8),
      ("notes.txt", .file "".toUTF8)]
    let tree : FileTree := .directory [("abis", .directory children)]
    let o : Options := ⟨"abis", .all, none, false, .strict, false⟩
    let alone := fun path => outcome (.run { o with input := path }) tree.at?
    let whole := outcome (.run o) tree.at?
    let loaded := ["abis/a.abi", "abis/sub/b.json"].filterMap (load? o tree.at?)
    (tree.Proper ∧ tree.at? o.input = some (.directory children)) ∧
      ((FileTree.directory children).interfaceFiles o.input).map Prod.fst =
        ["abis/a.abi", "abis/sub/b.json"] ∧
      whole.stdout = (alone "abis/a.abi").stdout ++ (alone "abis/sub/b.json").stdout ++
        countLines (loaded.map (·.descriptor.entries.length)).sum 2
          (loaded.map (·.rejected.length)).sum
          (["abis/a.abi", "abis/sub/b.json"].countP fun path => (alone path).code = 1) ∧
      whole.rejections = (alone "abis/a.abi").rejections ++ (alone "abis/sub/b.json").rejections ∧
      whole.code = 0 := by
  intro below children tree o alone whole loaded
  have hproper : tree.Proper := by
    have hnames : ∀ name ∈ ["abis", "sub", "a.abi", "notes.txt", "b.json"],
        FileTree.IsName name := by decide
    simp only [List.forall_mem_cons] at hnames
    obtain ⟨habis, hsub, ha, hnotes, hb, -⟩ := hnames
    have hbelow : below.Proper := ⟨by decide, ⟨hb, trivial⟩, trivial⟩
    exact ⟨by decide, ⟨habis, by decide, ⟨hsub, hbelow⟩, ⟨ha, trivial⟩, ⟨hnotes, trivial⟩, trivial⟩,
      trivial⟩
  have hinput : tree.at? o.input = some (.directory children) := by
    dsimp only [tree, o]
    with_unfolding_all rfl
  have hpaths : ((FileTree.directory children).interfaceFiles o.input).map Prod.fst =
      ["abis/a.abi", "abis/sub/b.json"] := by
    have hfound : (FileTree.childFiles children).filter (fun found =>
        found.1.getLast?.any Path.isInterface) = [(["sub", "b.json"], "[".toUTF8),
          (["a.abi"], "function f()\nfunction g(".toUTF8)] := by
      with_unfolding_all rfl
    have horder : ["a.abi"] < ["sub", "b.json"] := by decide
    have hjoin : Path.join o.input ["a.abi"] = "abis/a.abi" ∧
        Path.join o.input ["sub", "b.json"] = "abis/sub/b.json" := by decide
    rw [FileTree.interfaceFiles, hfound]
    simpa [List.mergeSort, List.MergeSort.Internal.splitInTwo, horder] using hjoin
  obtain ⟨hstdout, hrejections, hcode⟩ := outcome_directory hproper hinput
  rw [hpaths] at hstdout hrejections
  exact ⟨⟨hproper, hinput⟩, hpaths, by simpa using hstdout, by simpa using hrejections, hcode⟩

end ContractAbi.CommandLine
