import ContractAbi.AbiFile
import ContractAbi.Proofs.Declaration.Modes

/-!
# The forms of a file of declarations

A list of declarations may stand in a file one a line, among blank lines and comments, or as an
array of strings in JSON, which may be the interface in the output of a compiler. All three are
loaded as the same interface with the same rejections, which are placed by line in the first form
and by position in the others. Main statement: `AbiFile.forms_agree`.
-/

namespace ContractAbi

/-! ### Lines -/

/-- Whether a text may be what a line declares: one line that is not blank, has no blanks around it
and is no comment. -/
structure Text.IsLine (s : String) : Prop where
  ne_empty : s ≠ ""
  noBreak : '\n' ∉ s.toList
  first : ∀ c ∈ s.toList.head?, isBlank c = false
  last : ∀ c ∈ s.toList.getLast?, isBlank c = false
  noComment : ∀ rest, s ≠ "//" ++ rest

/-- Whether a text may stand around what a line declares. -/
def Text.IsMargin (cs : List Char) : Prop :=
  ∀ c ∈ cs, isBlank c = true ∧ c ≠ '\n'

instance (cs : List Char) : Decidable (Text.IsMargin cs) :=
  List.decidableBAll (fun c => Text.isBlank c = true ∧ c ≠ '\n') cs

/-- Whether lines that are numbered from `first` on hold declarations, each placed by the number of
its line. -/
inductive Source.LaidOut : (first : Nat) → List (List Char) → List (Nat × String) → Prop
  | nil {n} : LaidOut n [] []
  | blank {n line lines placed} : Text.IsMargin line → LaidOut (n + 1) lines placed →
      LaidOut n (line :: lines) placed
  | comment {n margin text lines placed} : Text.IsMargin margin → '\n' ∉ text →
      LaidOut (n + 1) lines placed → LaidOut n ((margin ++ '/' :: '/' :: text) :: lines) placed
  | declaration {n before behind declaration lines placed} : Text.IsMargin before →
      Text.IsMargin behind → LaidOut (n + 1) lines placed →
      LaidOut n ((before ++ declaration.toList ++ behind) :: lines) ((n, declaration) :: placed)

namespace Text

theorem IsMargin.not_mem_break {cs : List Char} (h : IsMargin cs) : '\n' ∉ cs :=
  fun hc => (h _ hc).2 rfl

theorem trimBlanks_of_isMargin {cs : List Char} (h : IsMargin cs) :
    trimBlanks (String.ofList cs) = "" := by
  have hnil : stripChars isBlank cs = [] := stripChars_eq_nil_iff.2 fun c hc => (h c hc).1
  rw [trimBlanks, strip, String.toList_ofList, hnil]

/-- A comment begins with its slashes once the blanks before them are gone. -/
theorem exists_trimBlanks_comment {margin : List Char} (h : IsMargin margin) (text : List Char) :
    ∃ rest, trimBlanks (String.ofList (margin ++ '/' :: '/' :: text)) = "//" ++ rest := by
  have hstrip : stripChars isBlank (margin ++ '/' :: '/' :: text ++ []) =
      stripChars isBlank ('/' :: '/' :: text) :=
    stripChars_append_append (fun c hc => (h c hc).1) (List.forall_mem_nil _)
  rw [List.append_nil] at hstrip
  have hslash : ∀ c ∈ some '/', ¬isBlank c := by
    rintro c ⟨⟩
    decide
  obtain ⟨rest, hrest⟩ := @exists_stripChars_append isBlank ['/', '/'] text (by decide) hslash
    hslash
  refine ⟨String.ofList rest, ?_⟩
  rw [trimBlanks, strip, String.toList_ofList, hstrip]
  show String.ofList (stripChars isBlank (['/', '/'] ++ text)) = _
  rw [hrest, String.ofList_append]

theorem IsLine.trimBlanks_eq {s : String} (h : IsLine s) {before behind : List Char}
    (hbefore : IsMargin before) (hbehind : IsMargin behind) :
    trimBlanks (String.ofList (before ++ s.toList ++ behind)) = s := by
  rw [trimBlanks, strip, String.toList_ofList, stripChars_append_append
    (fun c hc => (hbefore c hc).1) (fun c hc => (hbehind c hc).1), stripChars_eq_self,
    String.ofList_toList]
  · intro c hc
    rw [h.first c hc]
    exact Bool.false_ne_true
  · intro c hc
    rw [h.last c hc]
    exact Bool.false_ne_true

end Text

namespace Source

variable {first : Nat} {lines : List (List Char)} {placed : List (Nat × String)}

theorem LaidOut.not_mem_break (h : LaidOut first lines placed)
    (hplaced : ∀ declaration ∈ placed.map Prod.snd, Text.IsLine declaration) :
    ∀ line ∈ lines, '\n' ∉ line := by
  induction h with
  | nil => simp
  | blank hline _ ih =>
    rw [List.forall_mem_cons]
    exact ⟨hline.not_mem_break, ih hplaced⟩
  | comment hmargin htext _ ih =>
    rw [List.forall_mem_cons]
    refine ⟨?_, ih hplaced⟩
    simpa using ⟨hmargin.not_mem_break, htext⟩
  | declaration hbefore hbehind _ ih =>
    rw [List.map_cons, List.forall_mem_cons] at hplaced
    rw [List.forall_mem_cons]
    refine ⟨?_, ih hplaced.2⟩
    simpa using ⟨hbefore.not_mem_break, hplaced.1.noBreak, hbehind.not_mem_break⟩

/-- A line with its number, as far as it declares something. -/
def place (numbered : String × Nat) : Nat × String :=
  (numbered.2 + 1, Text.trimBlanks numbered.1)

/-- Whether a line declares something. -/
def declares (placed : Nat × String) : Bool :=
  placed.2 ≠ "" && (Text.after? "//" placed.2).isNone

theorem ofLines_eq (text : String) :
    ofLines text = .lines (((Text.lines text).zipIdx.map place).filter declares) :=
  rfl

theorem declares_empty (n : Nat) : declares (n, "") = false := by
  simp [declares]

theorem declares_comment (n : Nat) (rest : String) : declares (n, "//" ++ rest) = false := by
  have hcomment : Text.after? "//" ("//" ++ rest) = some rest := Text.after?_eq_some_iff.2 rfl
  simp [declares, hcomment]

theorem declares_of_isLine (n : Nat) {s : String} (h : Text.IsLine s) : declares (n, s) = true := by
  have hnone : Text.after? "//" s = none := by
    rw [Option.eq_none_iff_forall_ne_some]
    intro rest hrest
    exact h.noComment rest (Text.after?_eq_some_iff.1 hrest)
  simp [declares, h.ne_empty, hnone]

/-- The lines that declare something are those with a declaration. -/
theorem LaidOut.filter_declares {n : Nat} (h : LaidOut first lines placed) (hfirst : first = n + 1)
    (hplaced : ∀ declaration ∈ placed.map Prod.snd, Text.IsLine declaration) :
    (((lines.map String.ofList).zipIdx n).map place).filter declares = placed := by
  induction h generalizing n with
  | nil => rfl
  | blank hline _ ih =>
    rw [List.map_cons, List.zipIdx_cons, List.map_cons, place, Text.trimBlanks_of_isMargin hline,
      List.filter_cons_of_neg (ne_true_of_eq_false (declares_empty _))]
    exact ih (by rw [hfirst]) hplaced
  | @comment _ margin text _ _ hmargin _ _ ih =>
    obtain ⟨rest, hrest⟩ := Text.exists_trimBlanks_comment hmargin text
    rw [List.map_cons, List.zipIdx_cons, List.map_cons, place, hrest,
      List.filter_cons_of_neg (ne_true_of_eq_false (declares_comment _ rest))]
    exact ih (by rw [hfirst]) hplaced
  | declaration hbefore hbehind _ ih =>
    rw [List.map_cons, List.forall_mem_cons] at hplaced
    rw [List.map_cons, List.zipIdx_cons, List.map_cons, place,
      hplaced.1.trimBlanks_eq hbefore hbehind,
      List.filter_cons_of_pos (declares_of_isLine _ hplaced.1), ih (by rw [hfirst]) hplaced.2,
      hfirst]

theorem lines_intercalate (hlines : ∀ line ∈ lines, '\n' ∉ line) (hne : lines ≠ []) :
    Text.lines (String.ofList (List.intercalate ['\n'] lines)) = lines.map String.ofList := by
  rw [Text.lines, String.toList_ofList, Text.pieces_eq_splitOn,
    List.splitOn_intercalate _ hlines hne]

/-- The lines of a text declare what is laid out in them. -/
theorem ofLines_intercalate (h : LaidOut 1 lines placed)
    (hplaced : ∀ declaration ∈ placed.map Prod.snd, Text.IsLine declaration) :
    ofLines (String.ofList (List.intercalate ['\n'] lines)) = .lines placed := by
  by_cases hne : lines = []
  · -- the text without lines is the one with an empty line
    subst hne
    cases h
    have hempty : LaidOut 1 [[]] [] := .blank (List.forall_mem_nil _) .nil
    show ofLines (String.ofList (List.intercalate ['\n'] [[]])) = _
    rw [ofLines_eq, lines_intercalate (by simp) (by simp), hempty.filter_declares rfl hplaced]
  · rw [ofLines_eq, lines_intercalate (h.not_mem_break hplaced) hne, h.filter_declares rfl hplaced]

end Source

/-! ### Rejections -/

namespace Report

open Entry (ofDeclaration)

variable {mode : Mode}

/-- Where declarations are placed has no bearing on which of them are refused. In the batch that
counts from zero a rejection is placed by the position of its declaration in the list. -/
theorem forall₂_rejected (before placed : List (Nat × String)) :
    List.Forall₂ (fun r r' => r.source = r'.source ∧ r.error = r'.error ∧
        (before ++ placed)[r'.position]? = some (r.position, r.source))
      (ofPlaced mode placed).rejected
      (ofPlaced mode (((placed.map Prod.snd).zipIdx before.length).map Prod.swap)).rejected := by
  induction placed generalizing before with
  | nil => exact .nil
  | cons first placed ih =>
    obtain ⟨line, source⟩ := first
    have ih := ih (before ++ [(line, source)])
    rw [List.append_assoc, List.singleton_append, List.length_append, List.length_singleton] at ih
    simp only [rejected, ofPlaced] at ih ⊢
    rw [List.map_cons, List.map_cons, List.filterMap_cons, List.zipIdx_cons, List.map_cons,
      List.map_cons, List.filterMap_cons]
    dsimp only [Prod.swap]
    cases ofDeclaration mode source with
    | ok e => exact ih
    | error e => exact .cons ⟨rfl, rfl, by simp⟩ ih

end Report

/-! ### Loading a file -/

/-- Whether a file is JSON and holds a value. -/
structure IsJsonFile (path : String) (contents : ByteArray) (value : Json) : Prop where
  extension : Path.hasExtension "json" path = true
  text : ∃ text, String.fromUTF8? contents = some text ∧ Json.parse? text = some value

/-- Whether a file is no JSON and consists of lines. -/
structure IsLinesFile (path : String) (contents : ByteArray) (lines : List (List Char)) : Prop where
  extension : Path.hasExtension "json" path = false
  text : String.fromUTF8? contents = some (String.ofList (List.intercalate ['\n'] lines))

namespace AbiFile

variable {mode : Mode} {path : String} {contents : ByteArray}

theorem load_of_text {text : String} (h : String.fromUTF8? contents = some text) :
    load mode path (some (.file contents)) =
      match Source.ofFile path text with
      | .error e => ⟨[], .error e⟩
      | .ok source => ofSource mode path source := by
  cases hsource : Source.ofFile path text with
  | error e => simp only [load, readText, h, hsource]
  | ok source => simp only [load, readText, h, hsource]

/-- A file of lines is loaded as the batch of declarations with their line numbers. -/
theorem load_lines {lines : List (List Char)} {placed : List (Nat × String)}
    (hfile : IsLinesFile path contents lines) (h : Source.LaidOut 1 lines placed)
    (hplaced : ∀ declaration ∈ placed.map Prod.snd, Text.IsLine declaration) :
    (load mode path (some (.file contents))).result =
      .ok ⟨path, (Report.ofPlaced mode placed).descriptor,
        (Report.ofPlaced mode placed).rejected⟩ := by
  rw [load_of_text hfile.text, Source.ofFile, hfile.extension, if_neg Bool.false_ne_true,
    Source.ofLines_intercalate h hplaced]
  rfl

theorem ofJson_strings {value : Json} {declarations : List String}
    (hvalue : Source.unwrap value = some (.array (declarations.map .string))) :
    Source.ofJson value =
      if declarations = [] then .ok (.entries (.array []))
      else .ok (.declarations declarations) := by
  have hall : (declarations.map Json.string).all Json.isString = true := by
    simp [Json.isString]
  have htexts : (declarations.map Json.string).filterMap Json.string? = declarations := by
    simp [List.filterMap_map, Function.comp_def, Json.string?]
  rw [Source.ofJson, hvalue]
  dsimp only
  rw [hall, htexts]
  cases declarations <;> rfl

/-- A JSON file with an array of strings is loaded as the batch of declarations. -/
theorem load_json {value : Json} {declarations : List String}
    (hfile : IsJsonFile path contents value)
    (hvalue : Source.unwrap value = some (.array (declarations.map .string))) :
    (load mode path (some (.file contents))).result =
      .ok ⟨path, (Report.ofDeclarations mode declarations).descriptor,
        (Report.ofDeclarations mode declarations).rejected⟩ := by
  obtain ⟨text, htext, hparse⟩ := hfile.text
  rw [load_of_text htext, Source.ofFile, hfile.extension, if_pos rfl, hparse]
  dsimp only
  rw [ofJson_strings hvalue]
  by_cases hnil : declarations = []
  · -- an array without items is read as an interface without entries
    subst hnil
    rfl
  · rw [if_neg hnil]
    rfl

/-! ### Main statement -/

/-- A list of declarations is loaded alike from a file with a declaration a line, from an array in
a JSON file, and from the array under `abi` in an object. The rejections of the first are placed by
line where those of the others have the position of the declaration. -/
theorem forms_agree {declarations : List String} {lines : List (List Char)}
    {placed : List (Nat × String)} {members : Json.Members}
    {linesPath arrayPath objectPath : String} {linesFile arrayFile objectFile : ByteArray}
    (hdeclarations : ∀ declaration ∈ declarations, Text.IsLine declaration)
    (hlines : IsLinesFile linesPath linesFile lines) (hlaid : Source.LaidOut 1 lines placed)
    (hplaced : placed.map Prod.snd = declarations)
    (harray : IsJsonFile arrayPath arrayFile (.array (declarations.map .string)))
    (hobject : IsJsonFile objectPath objectFile (.object members))
    (habi : Json.Members.get? members "abi" = some (.array (declarations.map .string)))
    (mode : Mode) :
    ∃ a b c : AbiFile,
      (load mode linesPath (some (.file linesFile))).result = .ok a ∧
      (load mode arrayPath (some (.file arrayFile))).result = .ok b ∧
      (load mode objectPath (some (.file objectFile))).result = .ok c ∧
      a.descriptor = b.descriptor ∧ b.descriptor = c.descriptor ∧ b.rejected = c.rejected ∧
      List.Forall₂ (fun r r' => r.source = r'.source ∧ r.error = r'.error ∧
        placed[r'.position]? = some (r.position, r.source)) a.rejected b.rejected := by
  subst hplaced
  refine ⟨_, _, _, load_lines hlines hlaid hdeclarations, load_json harray rfl,
    load_json hobject habi, ?_, rfl, rfl, ?_⟩
  · have hentries := (@Report.entries_ofPlaced mode placed).trans
      Report.entries_ofDeclarations.symm
    exact congrArg Descriptor.mk hentries
  · exact Report.forall₂_rejected [] placed

/-- A declaration that is read and one that is refused, below a comment and an empty line. -/
theorem forms_agree_of_comment :
    let declarations := ["function f(uint a) view", "function g("]
    let lines := ['/' :: '/' :: " interface".toList, [],
      ['\t'] ++ "function f(uint a) view".toList ++ [' '], [] ++ "function g(".toList ++ [], []]
    let placed := [(3, "function f(uint a) view"), (4, "function g(")]
    let text := "// interface\n\n\tfunction f(uint a) view \nfunction g(\n"
    let array := "[\"function f(uint a) view\", \"function g(\"]"
    let object := "\x7b\"abi\": [\"function f(uint a) view\", \"function g(\"]\x7d"
    let members : Json.Members := [("abi", .array (declarations.map .string))]
    ((∀ declaration ∈ declarations, Text.IsLine declaration) ∧
      IsLinesFile "f.abi" text.toUTF8 lines ∧ Source.LaidOut 1 lines placed ∧
      placed.map Prod.snd = declarations ∧
      IsJsonFile "f.json" array.toUTF8 (.array (declarations.map .string)) ∧
      IsJsonFile "out/f.json" object.toUTF8 (.object members) ∧
      Json.Members.get? members "abi" = some (.array (declarations.map .string))) ∧
    ∃ a b c : AbiFile,
      (load .strict "f.abi" (some (.file text.toUTF8))).result = .ok a ∧
      (load .strict "f.json" (some (.file array.toUTF8))).result = .ok b ∧
      (load .strict "out/f.json" (some (.file object.toUTF8))).result = .ok c ∧
      a.descriptor = b.descriptor ∧ b.descriptor = c.descriptor ∧ b.rejected = c.rejected ∧
      List.Forall₂ (fun r r' => r.source = r'.source ∧ r.error = r'.error ∧
        placed[r'.position]? = some (r.position, r.source)) a.rejected b.rejected := by
  intro declarations lines placed text array object members
  have hdecode : ∀ s : String, String.fromUTF8? s.toUTF8 = some s := by
    intro s
    rw [String.fromUTF8?, String.toUTF8_eq_toByteArray, dif_pos s.isValidUTF8]
    rfl
  have hdeclarations : ∀ declaration ∈ declarations, Text.IsLine declaration := by
    have hcomment : ∀ s : String, Text.after? "//" s = none → ∀ rest, s ≠ "//" ++ rest := by
      intro s hs rest e
      rw [Text.after?_eq_some_iff.2 e] at hs
      cases hs
    have hends : ∀ o : Option Char, o.all (fun c => !Text.isBlank c) = true →
        ∀ c ∈ o, Text.isBlank c = false := by
      rintro o ho c rfl
      simpa using ho
    rw [List.forall_mem_cons, List.forall_mem_singleton]
    exact ⟨⟨by decide, by decide, hends _ (by decide), hends _ (by decide), hcomment _ (by decide)⟩,
      ⟨by decide, by decide, hends _ (by decide), hends _ (by decide), hcomment _ (by decide)⟩⟩
  have hlines : IsLinesFile "f.abi" text.toUTF8 lines :=
    ⟨by with_unfolding_all rfl, (hdecode text).trans (congrArg some (by decide +kernel))⟩
  have hlaid : Source.LaidOut 1 lines placed := by
    have hempty : Text.IsMargin [] := List.forall_mem_nil _
    exact .comment hempty (by decide) (.blank hempty (.declaration (by decide) (by decide)
      (.declaration hempty hempty (.blank hempty .nil))))
  have harray : IsJsonFile "f.json" array.toUTF8 (.array (declarations.map .string)) := by
    refine ⟨by with_unfolding_all rfl, array, hdecode array, ?_⟩
    dsimp only [array, declarations]
    with_unfolding_all rfl
  have hobject : IsJsonFile "out/f.json" object.toUTF8 (.object members) := by
    refine ⟨by with_unfolding_all rfl, object, hdecode object, ?_⟩
    dsimp only [object, members, declarations]
    with_unfolding_all rfl
  exact ⟨⟨hdeclarations, hlines, hlaid, rfl, harray, hobject, rfl⟩,
    forms_agree hdeclarations hlines hlaid rfl harray hobject rfl .strict⟩

end AbiFile

end ContractAbi
