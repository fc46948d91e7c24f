import ContractAbi.Proofs.Shape.Canonical
import ContractAbi.Proofs.Shape.Grammar
import ContractAbi.Proofs.Text.Spacing

/-!
# Spellings of a type

A type can be written in more than one way: an integer of the full width has a short name besides,
and spaces may stand around the members of a tuple and before the array suffixes. The relation
`Shape.Spells` tells how a shape may be written, and the reader of written types takes every
spelling of a shape to its canonical type. Main statement: `Shape.canonicalChars_of_spells`.
-/

namespace ContractAbi

/-! ### Reading a written type -/

/-- A type in parentheses is read member by member. -/
theorem canonicalChars_group {type inner list rest : List Char}
    (htype : Text.trimmed type = '(' :: inner)
    (hinner : Text.closeChars 0 inner = some (list, rest)) :
    canonicalChars type =
      '(' :: List.intercalate [','] ((Text.topLevel list).map canonicalChars) ++
        ')' :: Text.trimmed rest := by
  rw [canonicalChars]
  split
  · next other h =>
    obtain rfl : inner = other := by simpa [htype] using h
    split
    · next l r hclose =>
      obtain ⟨rfl, rfl⟩ := Prod.mk.inj (Option.some.inj (hinner.symm.trans hclose))
      rw [List.attach_map_val]
    · next hclose => cases hinner.symm.trans hclose
  · next hplain => exact absurd htype (hplain inner)

theorem canonicalChars_plain {type : List Char} (h : ∀ inner, Text.trimmed type ≠ '(' :: inner) :
    canonicalChars type = canonicalPlainChars (Text.trimmed type) := by
  rw [canonicalChars]
  split
  · next inner hinner => exact absurd hinner (h inner)
  · rfl

/-! ### Array suffixes -/

namespace Suffix

theorem not_mem_chars {c : Char} (hdigit : c.isDigit = false) (hbracket : isBracket c = false)
    (xs : List Suffix) : c ∉ chars xs := by
  intro hc
  rcases mem_chars hc with h | h
  · rw [hdigit] at h
    cases h
  · rw [hbracket] at h
    cases h

theorem head_chars (xs : List Suffix) : ∀ c ∈ (chars xs).head?, c = '[' := by
  cases xs <;> simp [chars]

theorem mark_not_mem_chars (xs : List Suffix) :
    ∀ c ∈ chars xs, c ≠ '(' ∧ c ≠ ')' ∧ c ≠ ',' := by
  intro c hc
  refine ⟨?_, ?_, ?_⟩ <;>
  · rintro rfl
    exact not_mem_chars (by decide) (by decide) xs hc

theorem isMember_chars (xs : List Suffix) : Text.IsMember (chars xs) :=
  Text.isMember_of_forall (mark_not_mem_chars xs)

/-- Around a root and its suffixes all gaps are dropped but the one between them. -/
theorem exists_trimmed_root {root : List Char} (xs : List Suffix) (before gap behind : Nat)
    (hfirst : ∀ c ∈ root.head?, c ≠ ' ') (hlast : ∀ c ∈ root.getLast?, c ≠ ' ')
    (hne : root ≠ []) :
    ∃ left, Text.trimmed (Text.spaces before ++ (root ++ Text.spaces gap ++ chars xs) ++
      Text.spaces behind) = root ++ Text.spaces left ++ chars xs := by
  cases xs with
  | nil =>
    -- without suffixes the gap is at the end
    refine ⟨0, ?_⟩
    show Text.trimmed (Text.spaces before ++ (root ++ Text.spaces gap ++ []) ++
      Text.spaces behind) = root ++ [] ++ []
    rw [List.append_nil, List.append_nil, List.append_nil, ← List.append_assoc, List.append_assoc,
      ← Text.spaces_add]
    exact Text.trimmed_spaces_append before (gap + behind) hfirst hlast
  | cons x xs =>
    refine ⟨gap, Text.trimmed_spaces_append before behind ?_ ?_⟩
    · rw [List.append_assoc, List.head?_append_of_ne_nil _ hne]
      exact hfirst
    · intro c hc
      have hchars : chars (x :: xs) ≠ [] := by simp [chars]
      rw [List.getLast?_append_of_ne_nil _ hchars] at hc
      rintro rfl
      exact not_mem_chars (by decide) (by decide) _ (List.mem_of_getLast? hc)

end Suffix

/-! ### Spellings -/

theorem Elementary.ne_nil_of_names {name : String} {kind : Elementary} (h : Names name kind) :
    name.toList ≠ [] := by
  intro e
  obtain rfl : name = "" := by simpa using e
  cases ofName_eq_ok_iff_names.2 h

theorem Elementary.isAlphanum_of_names {name : String} {kind : Elementary} (h : Names name kind) :
    ∀ c ∈ name.toList, c.isAlphanum = true :=
  isAlphanum_of_ofName (ofName_eq_ok_iff_names.2 h)

/-- No bracket, parenthesis, comma or space is in the name of an elementary type. -/
theorem Elementary.not_mem_of_names {name : String} {kind : Elementary} (h : Names name kind)
    {c : Char} (hc : c.isAlphanum = false) : c ∉ name.toList := by
  intro hmem
  rw [isAlphanum_of_names h c hmem] at hc
  cases hc

namespace Shape

mutual

/-- Whether a text spells a shape: a root and behind it the suffixes of all arrays, the innermost
first. -/
inductive Spells : Shape → List Char → Prop
  | elementary {kind name} (xs : List Suffix) (gap : Nat) : Elementary.Names name kind →
      Spells ((elementary kind).wrapAll xs) (name.toList ++ Text.spaces gap ++ Suffix.chars xs)
  | empty (xs : List Suffix) (inside gap : Nat) :
      Spells ((struct []).wrapAll xs)
        ('(' :: (Text.spaces inside ++ [')']) ++ Text.spaces gap ++ Suffix.chars xs)
  | tuple {fields pieces} (xs : List Suffix) (gap : Nat) : SpellsMembers fields pieces →
      Spells ((struct fields).wrapAll xs)
        ('(' :: (List.intercalate [','] pieces ++ [')']) ++ Text.spaces gap ++ Suffix.chars xs)

/-- Whether the texts between the commas of a tuple spell its fields. -/
inductive SpellsMembers : Fields → List (List Char) → Prop
  | nil : SpellsMembers [] []
  | cons {name s text fields pieces} (before behind : Nat) : Spells s text →
      SpellsMembers fields pieces →
      SpellsMembers ((name, s) :: fields)
        ((Text.spaces before ++ text ++ Text.spaces behind) :: pieces)

end

/-- A text in parentheses with suffixes behind it is a member of a list. -/
theorem isMember_group {list : List Char} (h : Text.Balanced list) (xs : List Suffix) (gap : Nat) :
    Text.IsMember ('(' :: (list ++ [')']) ++ Text.spaces gap ++ Suffix.chars xs) :=
  ((Text.IsMember.group h .nil).append (Text.isMember_spaces gap)).append (Suffix.isMember_chars xs)

mutual

theorem Spells.isMember : ∀ {s : Shape} {text : List Char}, Spells s text → Text.IsMember text
  | _, _, .elementary xs gap hname => by
    have hroot := Text.isMember_of_isAlphanum (Elementary.isAlphanum_of_names hname)
    exact (hroot.append (Text.isMember_spaces gap)).append (Suffix.isMember_chars xs)
  | _, _, .empty xs inside gap => isMember_group (Text.isMember_spaces inside).balanced xs gap
  | _, _, .tuple xs gap hmembers =>
    isMember_group (Text.balanced_intercalate fun x hx => (hmembers.isMember x hx).balanced) xs gap

theorem SpellsMembers.isMember : ∀ {fields : Fields} {pieces : List (List Char)},
    SpellsMembers fields pieces → ∀ x ∈ pieces, Text.IsMember x
  | _, _, .nil => by simp
  | _, _, .cons before behind htext hrest => by
    rw [List.forall_mem_cons]
    have hspaced := (Text.isMember_spaces before).append htext.isMember
    exact ⟨hspaced.append (Text.isMember_spaces behind), hrest.isMember⟩

end

theorem Spells.exists_mem {s : Shape} {text : List Char} (h : Spells s text) :
    ∃ c ∈ text, c ≠ ' ' := by
  cases h with
  | elementary xs gap hname =>
    obtain ⟨c, hc⟩ := List.exists_mem_of_ne_nil _ (Elementary.ne_nil_of_names hname)
    refine ⟨c, by simp [hc], ?_⟩
    rintro rfl
    exact Elementary.not_mem_of_names hname (by decide) hc
  | empty | tuple => exact ⟨'(', by simp, by decide⟩

theorem SpellsMembers.trimmed_ne_nil {fields : Fields} {pieces : List (List Char)}
    (h : SpellsMembers fields pieces) : ∀ x ∈ pieces, Text.trimmed x ≠ [] := by
  induction pieces generalizing fields with
  | nil => simp
  | cons piece pieces ih =>
    cases h with
    | cons before behind htext hrest =>
      obtain ⟨c, hc, hspace⟩ := htext.exists_mem
      rw [List.forall_mem_cons]
      exact ⟨Text.trimmed_ne_nil (by simp [hc]) hspace, ih hrest⟩

/-- The texts between the commas are found again. -/
theorem SpellsMembers.topLevel {fields : Fields} {pieces : List (List Char)}
    (h : SpellsMembers fields pieces) :
    Text.topLevel (List.intercalate [','] pieces) = pieces :=
  Text.topLevel_intercalate fun x hx => ⟨h.isMember x hx, h.trimmed_ne_nil x hx⟩

/-! ### Reading a spelling -/

/-- A type in parentheses is read member by member, whatever gaps and suffixes there are. -/
theorem canonicalChars_of_group {list : List Char} (hlist : Text.Balanced list)
    (xs : List Suffix) (before gap behind : Nat) :
    ContractAbi.canonicalChars (Text.spaces before ++
      ('(' :: (list ++ [')']) ++ Text.spaces gap ++ Suffix.chars xs) ++ Text.spaces behind) =
      '(' :: List.intercalate [','] ((Text.topLevel list).map ContractAbi.canonicalChars) ++
        ')' :: Suffix.chars xs := by
  have hlast : ∀ c ∈ ('(' :: (list ++ [')'])).getLast?, c ≠ ' ' := by
    intro c hc
    rw [← List.cons_append, List.getLast?_concat] at hc
    obtain rfl := Option.some.inj hc
    decide
  obtain ⟨left, htrim⟩ := Suffix.exists_trimmed_root xs before gap behind (by simp) hlast (by simp)
  have hinner : Text.closeChars 0 (list ++ ')' :: (Text.spaces left ++ Suffix.chars xs)) =
      some (list, Text.spaces left ++ Suffix.chars xs) :=
    Text.closeChars_group hlist _
  have hrest : Text.trimmed (Text.spaces left ++ Suffix.chars xs) = Suffix.chars xs := by
    have hspace : ∀ c ∈ Suffix.chars xs, c ≠ ' ' := by
      rintro c hc rfl
      exact Suffix.not_mem_chars (by decide) (by decide) xs hc
    have h := Text.trimmed_spaces_append left 0 (fun c hc => hspace c (List.mem_of_mem_head? hc))
      (fun c hc => hspace c (List.mem_of_getLast? hc))
    rwa [Text.spaces, Text.spaces, List.replicate_zero, List.append_nil] at h
  rw [canonicalChars_group (htrim.trans (by simp)) hinner, hrest]

/-- The name of an elementary type is put in its canonical form. -/
theorem canonicalChars_of_names {name : String} {kind : Elementary}
    (h : Elementary.Names name kind) (xs : List Suffix) (before gap behind : Nat) :
    ContractAbi.canonicalChars (Text.spaces before ++
      (name.toList ++ Text.spaces gap ++ Suffix.chars xs) ++ Text.spaces behind) =
      kind.display.toList ++ Suffix.chars xs := by
  have hnot : ∀ {c : Char}, c.isAlphanum = false → c ∉ name.toList := Elementary.not_mem_of_names h
  have hfirst : ∀ c ∈ name.toList.head?, c ≠ ' ' := by
    rintro c hc rfl
    exact hnot (by decide) (List.mem_of_mem_head? hc)
  have hlast : ∀ c ∈ name.toList.getLast?, c ≠ ' ' := by
    rintro c hc rfl
    exact hnot (by decide) (List.mem_of_getLast? hc)
  obtain ⟨left, htrim⟩ := Suffix.exists_trimmed_root xs before gap behind hfirst hlast
    (Elementary.ne_nil_of_names h)
  have hplain : ∀ inner, name.toList ++ Text.spaces left ++ Suffix.chars xs ≠ '(' :: inner := by
    intro inner hinner
    obtain ⟨c, cs, hcs⟩ := List.exists_cons_of_ne_nil (Elementary.ne_nil_of_names h)
    rw [hcs, List.cons_append, List.cons_append, List.cons.injEq] at hinner
    obtain ⟨rfl, -⟩ := hinner
    exact hnot (by decide) (hcs ▸ List.mem_cons_self)
  have hbracket : '[' ∉ name.toList ++ Text.spaces left := by
    rw [List.mem_append, not_or]
    exact ⟨hnot (by decide), Text.not_mem_spaces (by decide)⟩
  rw [canonicalChars_plain (by rwa [htrim]), htrim, canonicalPlainChars,
    splitRoot_append hbracket (Suffix.head_chars xs)]
  have hroot : Text.trimmed (name.toList ++ Text.spaces left) = name.toList :=
    Text.trimmed_spaces_append 0 left hfirst hlast
  dsimp only
  rw [hroot, String.ofList_toList, canonicalRoot_of_ofName (Elementary.ofName_eq_ok_iff_names.2 h)]

mutual

/-- The canonical form of a spelling is the canonical type. -/
theorem canonicalChars_of_spells : ∀ {s : Shape} {text : List Char}, Spells s text →
    ∀ before behind : Nat,
    ContractAbi.canonicalChars (Text.spaces before ++ text ++ Text.spaces behind) =
      s.canonicalChars
  | _, _, .elementary xs gap hname, before, behind => by
    rw [canonicalChars_of_names hname, canonicalChars_wrapAll, canonicalChars]
  | _, _, .empty xs inside gap, before, behind => by
    have hnone : Text.topLevel (Text.spaces inside) = [] := if_pos (Text.trimmed_spaces inside)
    rw [canonicalChars_of_group (Text.isMember_spaces inside).balanced, hnone,
      canonicalChars_wrapAll, canonicalChars]
    rfl
  | _, _, .tuple xs gap hmembers, before, behind => by
    have hlist := Text.balanced_intercalate fun x hx => (hmembers.isMember x hx).balanced
    rw [canonicalChars_of_group hlist, hmembers.topLevel,
      map_canonicalChars_of_spellsMembers hmembers, canonicalChars_wrapAll, canonicalChars]
    simp

theorem map_canonicalChars_of_spellsMembers : ∀ {fields : Fields} {pieces : List (List Char)},
    SpellsMembers fields pieces → pieces.map ContractAbi.canonicalChars = canonicalFields fields
  | _, _, .nil => rfl
  | _, _, .cons before behind htext hrest => by
    rw [List.map_cons, canonicalChars_of_spells htext before behind,
      map_canonicalChars_of_spellsMembers hrest, canonicalFields]

end

/-! ### The canonical type -/

mutual

/-- The canonical type spells its shape, also with gaps beside the marks in it. -/
theorem spells_of_spaced : ∀ {s : Shape} (xs : List Suffix) {text : List Char}, s.WellFormed →
    Text.Spaced (s.canonicalChars ++ Suffix.chars xs) text → Spells (s.wrapAll xs) text
  | elementary kind, xs, text, hs, h => by
    have hspells := Spells.elementary xs 0 (Elementary.names_display hs)
    rw [Text.spaces, List.replicate_zero, List.append_nil] at hspells
    rw [h.eq_of_forall]
    · exact hspells
    · rw [List.forall_mem_append]
      exact ⟨fun c hc => Text.not_mark_of_isAlphanum (Elementary.isAlphanum_of_mem_display hc),
        Suffix.mark_not_mem_chars xs⟩
  | fixedArray element n, xs, text, hs, h => by
    rw [canonicalChars, List.append_assoc] at h
    exact spells_of_spaced (s := element) (.fixed n :: xs) hs.1 h
  | dynamicArray element, xs, text, hs, h => by
    rw [canonicalChars, List.append_assoc] at h
    exact spells_of_spaced (s := element) (.dynamic :: xs) hs h
  | struct fields, xs, text, hs, h => by
    have htext : canonicalChars (.struct fields) ++ Suffix.chars xs =
        '(' :: (List.intercalate [','] (canonicalFields fields) ++ ')' :: Suffix.chars xs) := by
      simp [canonicalChars]
    rw [htext] at h
    obtain ⟨m, n, inner, rest, hinner, hrest, rfl⟩ := h.of_group
    obtain rfl := hrest.eq_of_forall (Suffix.mark_not_mem_chars xs)
    by_cases hnil : fields = []
    · subst hnil
      cases hinner
      have hspells := Spells.empty xs (m + n) 0
      simpa [Text.spaces_add, Text.spaces] using hspells
    · obtain ⟨pieces, hpieces, e⟩ := spellsMembers_of_spaced m n hnil hs.2 hinner
      have hspells := Spells.tuple xs 0 hpieces
      rw [e]
      simpa [Text.spaces] using hspells
termination_by structural s => s

/-- A list of canonical types with gaps beside the marks is a list of members with gaps around
them. -/
theorem spellsMembers_of_spaced : ∀ {fields : Fields} {text : List Char} (before behind : Nat),
    fields ≠ [] → WellFormedFields fields →
    Text.Spaced (List.intercalate [','] (canonicalFields fields)) text →
    ∃ pieces, SpellsMembers fields pieces ∧
      Text.spaces before ++ text ++ Text.spaces behind = List.intercalate [','] pieces
  | [], _, _, _, hne, _, _ => absurd rfl hne
  | (name, s) :: rest, text, before, behind, _, hwf, h => by
    by_cases hnil : rest = []
    · subst hnil
      have hs := spells_of_spaced (s := s) [] hwf.1
        (by simpa [canonicalFields, Suffix.chars] using h)
      exact ⟨_, .cons before behind hs .nil, by simp⟩
    · have hlist : List.intercalate [','] (canonicalFields ((name, s) :: rest)) =
          s.canonicalChars ++ ',' :: List.intercalate [','] (canonicalFields rest) := by
        obtain ⟨f, fs, rfl⟩ := List.exists_cons_of_ne_nil hnil
        simp [canonicalFields, List.intercalate_cons_cons]
      rw [hlist] at h
      -- the gap before the comma belongs to the first member, the one behind it to the next
      obtain ⟨u, v, hu, hv, rfl⟩ := h.of_append
      obtain ⟨m, n, w, hw, rfl⟩ := hv.of_comma
      have hs := spells_of_spaced (s := s) [] hwf.1 (by simpa [Suffix.chars] using hu)
      obtain ⟨pieces, hpieces, e⟩ := spellsMembers_of_spaced n behind hnil hwf.2 hw
      refine ⟨_, .cons before m hs hpieces, ?_⟩
      have hcons : pieces ≠ [] := by
        rintro rfl
        cases hpieces
        exact hnil rfl
      obtain ⟨piece, others, rfl⟩ := List.exists_cons_of_ne_nil hcons
      rw [List.intercalate_cons_cons, ← e]
      simp
termination_by structural fields => fields

end

theorem spells_canonicalChars {s : Shape} (h : s.WellFormed) : Spells s s.canonicalChars := by
  apply spells_of_spaced [] h
  rw [Suffix.chars, List.flatMap_nil, List.append_nil]
  exact .refl _

theorem canonicalChars_canonicalChars {s : Shape} (h : s.WellFormed) :
    ContractAbi.canonicalChars s.canonicalChars = s.canonicalChars := by
  have hs := canonicalChars_of_spells (spells_canonicalChars h) 0 0
  rwa [Text.spaces, List.replicate_zero, List.nil_append, List.append_nil] at hs

mutual

theorem space_not_mem_canonicalChars : ∀ s : Shape, ' ' ∉ s.canonicalChars
  | elementary _ => Elementary.not_mem_display (by decide)
  | fixedArray element n => by
    have hsize : ' ' ∉ (Suffix.fixed n).size := Suffix.not_mem_size (by decide) _
    simpa [canonicalChars] using ⟨space_not_mem_canonicalChars element, hsize⟩
  | dynamicArray element => by
    simpa [canonicalChars, Suffix.size] using space_not_mem_canonicalChars element
  | struct fields => by
    have hlist : ' ' ∉ List.intercalate [','] (canonicalFields fields) :=
      Text.not_mem_intercalate (by decide) (space_not_mem_canonicalFields fields)
    simpa [canonicalChars] using hlist
termination_by structural s => s

theorem space_not_mem_canonicalFields : ∀ fields : Fields,
    ∀ x ∈ canonicalFields fields, ' ' ∉ x
  | [] => by simp [canonicalFields]
  | (_, s) :: rest => by
    rw [canonicalFields, List.forall_mem_cons]
    exact ⟨space_not_mem_canonicalChars s, space_not_mem_canonicalFields rest⟩
termination_by structural fields => fields

end

theorem trimmed_canonicalChars_ne_nil (s : Shape) : Text.trimmed s.canonicalChars ≠ [] := by
  rw [Text.trimmed_of_not_mem s.space_not_mem_canonicalChars]
  exact s.canonicalChars_ne_nil

end Shape

end ContractAbi
