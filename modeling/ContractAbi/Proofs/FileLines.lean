import ContractAbi.Proofs.FileForms

/-!
# The lines of a file of declarations

Each line of a file that declares something ends up in one place: among the entries, or among the
rejections with the number that it has in the file. The lines around it, which are blank or
comments, count for its number only. So the rejections are those of the batch of the declaring
lines, whose positions in the batch are replaced by the numbers of these lines in the file. Main
statement: `AbiFile.accounts_of_lines`.
-/

namespace ContractAbi

/-- Whether a line declares nothing: without the blanks around it, it is empty or begins with two
slashes. -/
def Source.IsIdle (line : String) : Prop :=
  Text.trimBlanks line = "" ∨ ∃ rest, Text.trimBlanks line = "//" ++ rest

namespace Report

open Entry (ofDeclaration)

/-- Whether entries and rejections account for lines that are numbered from `first` on: a line that
declares something is one entry or one rejection, in the order of the lines, and any other line is
neither. -/
inductive Accounts (mode : Mode) : (first : Nat) → List String → List Entry → List Rejection → Prop
  | nil {n} : Accounts mode n [] [] []
  | idle {n line lines es rs} : Source.IsIdle line → Accounts mode (n + 1) lines es rs →
      Accounts mode n (line :: lines) es rs
  | entry {n line lines e es rs} : ¬Source.IsIdle line →
      ofDeclaration mode (Text.trimBlanks line) = .ok e → Accounts mode (n + 1) lines es rs →
      Accounts mode n (line :: lines) (e :: es) rs
  | rejection {n line lines error es rs} : ¬Source.IsIdle line →
      ofDeclaration mode (Text.trimBlanks line) = .error error →
      Accounts mode (n + 1) lines es rs →
      Accounts mode n (line :: lines) es (⟨n, Text.trimBlanks line, error⟩ :: rs)

/-- Put the numbers from a list in the places of positions in it. This fails if there is a position
behind the end of the list. -/
def renumber (numbers : List Nat) (rs : List Rejection) : Option (List Rejection) :=
  rs.mapM fun r => numbers[r.position]?.map fun n => { r with position := n }

variable {mode : Mode}

/-! ### Places of rejections -/

/-- A rejection stands at the number of its line. -/
theorem Accounts.exists_of_mem {n : Nat} {lines : List String} {es : List Entry}
    {rs : List Rejection} (h : Accounts mode n lines es rs) {r : Rejection} (hr : r ∈ rs) :
    ∃ i line, lines[i]? = some line ∧ r.position = n + i ∧ r.source = Text.trimBlanks line := by
  induction h with
  | nil => cases hr
  | idle _ _ ih =>
    obtain ⟨i, line, hline, hposition, hsource⟩ := ih hr
    exact ⟨i + 1, line, hline, by omega, hsource⟩
  | entry _ _ _ ih =>
    obtain ⟨i, line, hline, hposition, hsource⟩ := ih hr
    exact ⟨i + 1, line, hline, by omega, hsource⟩
  | rejection _ _ _ ih =>
    rcases List.mem_cons.1 hr with rfl | hr
    · exact ⟨0, _, rfl, rfl, rfl⟩
    · obtain ⟨i, line, hline, hposition, hsource⟩ := ih hr
      exact ⟨i + 1, line, hline, by omega, hsource⟩

/-- Rejections stand in the order of their lines, and no two at the same line. -/
theorem Accounts.pairwise_position {n : Nat} {lines : List String} {es : List Entry}
    {rs : List Rejection} (h : Accounts mode n lines es rs) :
    rs.Pairwise fun r later => r.position < later.position := by
  induction h with
  | nil => exact .nil
  | idle _ _ ih => exact ih
  | entry _ _ _ ih => exact ih
  | rejection _ _ hlater ih =>
    refine List.pairwise_cons.2 ⟨fun r hr => ?_, ih⟩
    obtain ⟨i, _, _, hposition, _⟩ := hlater.exists_of_mem hr
    dsimp only
    omega

/-! ### The lines of a text -/

theorem declares_place_iff {line : String} {i : Nat} :
    Source.declares (Source.place (line, i)) = true ↔ ¬Source.IsIdle line := by
  have hcomment : (Text.after? "//" (Text.trimBlanks line)).isNone = true ↔
      ¬∃ rest, Text.trimBlanks line = "//" ++ rest := by
    simp only [← Text.after?_eq_some_iff, Option.isNone_iff_eq_none,
      Option.eq_none_iff_forall_ne_some, not_exists, ne_eq]
  rw [Source.declares, Source.place, Bool.and_eq_true, hcomment, Source.IsIdle, not_or,
    decide_eq_true_eq]

/-- A declaration that is read is one more entry. -/
theorem ofPlaced_cons_of_ok {p : Nat × String} {e : Entry}
    (h : ofDeclaration mode p.2 = .ok e) (placed : List (Nat × String)) :
    (ofPlaced mode (p :: placed)).descriptor.entries =
        e :: (ofPlaced mode placed).descriptor.entries ∧
      (ofPlaced mode (p :: placed)).rejected = (ofPlaced mode placed).rejected := by
  have houtcome : (ofPlaced mode (p :: placed)).outcomes =
      ⟨p.1, p.2, .ok e⟩ :: (ofPlaced mode placed).outcomes := by
    rw [← h]
    rfl
  rw [descriptor, rejected, houtcome]
  exact ⟨rfl, rfl⟩

/-- A declaration that is refused is one more rejection. -/
theorem ofPlaced_cons_of_error {p : Nat × String} {error : AbiError}
    (h : ofDeclaration mode p.2 = .error error) (placed : List (Nat × String)) :
    (ofPlaced mode (p :: placed)).descriptor.entries = (ofPlaced mode placed).descriptor.entries ∧
      (ofPlaced mode (p :: placed)).rejected =
        ⟨p.1, p.2, error⟩ :: (ofPlaced mode placed).rejected := by
  have houtcome : (ofPlaced mode (p :: placed)).outcomes =
      ⟨p.1, p.2, .error error⟩ :: (ofPlaced mode placed).outcomes := by
    rw [← h]
    rfl
  rw [descriptor, rejected, houtcome]
  exact ⟨rfl, rfl⟩

/-- The batch of the declaring lines accounts for all lines. -/
theorem accounts_ofPlaced (n : Nat) (lines : List String) :
    let placed := ((lines.zipIdx n).map Source.place).filter Source.declares
    Accounts mode (n + 1) lines (ofPlaced mode placed).descriptor.entries
      (ofPlaced mode placed).rejected := by
  intro placed
  subst placed
  induction lines generalizing n with
  | nil => exact .nil
  | cons line lines ih =>
    rw [List.zipIdx_cons, List.map_cons]
    by_cases hidle : Source.IsIdle line
    · rw [List.filter_cons_of_neg fun h => declares_place_iff.1 h hidle]
      exact .idle hidle (ih (n + 1))
    · rw [List.filter_cons_of_pos (declares_place_iff.2 hidle)]
      cases hread : ofDeclaration mode (Text.trimBlanks line) with
      | ok e =>
        obtain ⟨hentries, hrejected⟩ := @ofPlaced_cons_of_ok mode (Source.place (line, n)) e hread
          (((lines.zipIdx (n + 1)).map Source.place).filter Source.declares)
        rw [hentries, hrejected]
        exact .entry hidle hread (ih (n + 1))
      | error error =>
        obtain ⟨hentries, hrejected⟩ := @ofPlaced_cons_of_error mode (Source.place (line, n)) error
          hread (((lines.zipIdx (n + 1)).map Source.place).filter Source.declares)
        rw [hentries, hrejected]
        exact .rejection hidle hread (ih (n + 1))

/-- The positions in the batch that counts from zero all have a number, and with these its
rejections are those of the placed declarations. -/
theorem renumber_ofDeclarations (placed : List (Nat × String)) :
    renumber (placed.map Prod.fst) (ofDeclarations mode (placed.map Prod.snd)).rejected =
      some (ofPlaced mode placed).rejected := by
  have hsame := @forall₂_rejected mode [] placed
  rw [List.nil_append] at hsame
  show renumber _ (ofPlaced mode (((placed.map Prod.snd).zipIdx 0).map Prod.swap)).rejected = _
  revert hsame
  generalize (ofPlaced mode placed).rejected = rs
  generalize (ofPlaced mode (((placed.map Prod.snd).zipIdx 0).map Prod.swap)).rejected = rs'
  intro hsame
  induction hsame with
  | nil => rfl
  | @cons r r' rs rs' hr _ ih =>
    obtain ⟨hsource, herror, hposition⟩ := hr
    have hnumber : (placed.map Prod.fst)[r'.position]? = some r.position := by
      rw [List.getElem?_map, hposition]
      rfl
    rw [renumber] at ih ⊢
    rw [List.mapM_cons, hnumber, ih, ← hsource, ← herror]
    rfl

end Report

/-! ### Lines and line feeds -/

theorem Text.intercalate_lines (s : String) : "\n".intercalate (lines s) = s := by
  have hfeed : "\n".toList = ['\n'] := by decide
  rw [← String.toList_inj, String.toList_intercalate, hfeed, lines, pieces_eq_splitOn,
    List.map_map]
  simp [Function.comp_def, List.intercalate_splitOn]

theorem Text.not_mem_of_mem_lines {s line : String} (h : line ∈ lines s) :
    '\n' ∉ line.toList := by
  rw [lines, pieces_eq_splitOn, List.mem_map] at h
  obtain ⟨piece, hpiece, rfl⟩ := h
  rw [String.toList_ofList]
  exact (mem_splitOn hpiece).1

/-! ### Main statement -/

/-- A file of lines is loaded whatever its lines are, and its entries and rejections account for
them, which are numbered from one. Its rejections are in the order of the lines, and they are those
of the batch of the declarations in it, renumbered by their lines. -/
theorem AbiFile.accounts_of_lines {path text : String} {contents : ByteArray}
    (hextension : Path.hasExtension "json" path = false)
    (htext : String.fromUTF8? contents = some text) (mode : Mode) :
    ("\n".intercalate (Text.lines text) = text ∧ ∀ line ∈ Text.lines text, '\n' ∉ line.toList) ∧
    ∃ f, (load mode path (some (.file contents))).result = .ok f ∧
      Report.Accounts mode 1 (Text.lines text) f.descriptor.entries f.rejected ∧
      (f.rejected.Pairwise fun r later => r.position < later.position) ∧
      ∃ placed, Source.ofLines text = .lines placed ∧
        let batch := Report.ofDeclarations mode (placed.map Prod.snd)
        batch.descriptor = f.descriptor ∧
          Report.renumber (placed.map Prod.fst) batch.rejected = some f.rejected := by
  refine ⟨⟨Text.intercalate_lines text, fun _ => Text.not_mem_of_mem_lines⟩, ?_⟩
  have haccounts := @Report.accounts_ofPlaced mode 0 (Text.lines text)
  refine ⟨⟨path, _, _⟩, ?_, haccounts, haccounts.pairwise_position, _, Source.ofLines_eq text, ?_,
    Report.renumber_ofDeclarations _⟩
  · rw [load_of_text htext, Source.ofFile, hextension, if_neg Bool.false_ne_true,
      Source.ofLines_eq]
    rfl
  · exact congrArg Descriptor.mk (Report.entries_ofDeclarations.trans Report.entries_ofPlaced.symm)

/-- The declaration in the fourth line is refused: the second of the batch, below a comment and an
empty line. -/
theorem AbiFile.accounts_of_lines_of_comment :
    let text := "// interface\r\n\r\n\tf() view \r\ng(\r\n"
    let f : Entry := .function ⟨"f", [], [], .view⟩
    let g : Rejection := ⟨4, "g(", .unrecognizedDeclaration "g("⟩
    (Path.hasExtension "json" "f.abi" = false ∧ String.fromUTF8? text.toUTF8 = some text) ∧
    ∃ file, (load .strict "f.abi" (some (.file text.toUTF8))).result = .ok file ∧
      Report.Accounts .strict 1 (Text.lines text) [f] [g] ∧
      file.descriptor.entries = [f] ∧ file.rejected = [g] := by
  intro text f g
  have hextension : Path.hasExtension "json" "f.abi" = false := by with_unfolding_all rfl
  have hdecode : String.fromUTF8? text.toUTF8 = some text := by
    rw [String.fromUTF8?, String.toUTF8_eq_toByteArray, dif_pos text.isValidUTF8]
    rfl
  have hsource : Source.ofLines text = .lines [(3, "f() view"), (4, "g(")] := by
    dsimp only [text]
    with_unfolding_all rfl
  have hread : (Report.ofDeclarations .strict ["f() view", "g("]).descriptor.entries =
      [.function ⟨"f", [], [], .view⟩] := by with_unfolding_all rfl
  have hrefused : (Report.ofDeclarations .strict ["f() view", "g("]).rejected =
      [⟨1, "g(", .unrecognizedDeclaration "g("⟩] := by with_unfolding_all rfl
  obtain ⟨-, file, hload, haccounts, -, placed, hplaced, hdescriptor, hrejected⟩ :=
    accounts_of_lines hextension hdecode .strict
  obtain rfl := Source.lines.inj (hplaced.symm.trans hsource)
  have hentries : file.descriptor.entries = [f] := by
    rw [← hdescriptor]
    exact hread
  have hrenumbered : some file.rejected = some [g] :=
    hrejected.symm.trans (congrArg (Report.renumber [3, 4]) hrefused)
  have hrejections : file.rejected = [g] := Option.some.inj hrenumbered
  rw [hentries, hrejections] at haccounts
  exact ⟨⟨hextension, hdecode⟩, file, hload, haccounts, hentries, hrejections⟩

end ContractAbi
