import ContractAbi.Proofs.Shape.CanonicalText

/-!
# Written types of parameters

There are two ways to a canonical type, one from a parameter and its components and one from a text
in which they are written out. `Parameter.WrittenAs` tells which texts write the type of a
parameter, without reference to shapes or to how a text is read: a tuple is the list of its
components in parentheses, an integer of the full width has either of its names, and spaces stand
around components and before suffixes. On all these texts the two ways agree. Main statement:

    p.shape = .ok s → p.WrittenAs t.toList → canonicalText t = p.canonicalType
-/

namespace ContractAbi

namespace Suffix

/-- A base without brackets and the text behind it are those that are split off. -/
theorem eq_of_split_written {type base root : String} {xs ys : List Suffix}
    (hsplit : split type = .ok (root, ys)) (htype : type = written base xs)
    (hbase : IsBase base) : root = base ∧ chars ys = chars xs := by
  have hbracket : '[' ∉ base.toList := by
    intro hmem
    cases hbase _ hmem
  have hroot := splitRoot_of_split hsplit
  rw [htype, toList_written, splitRoot_append hbracket (head_chars xs)] at hroot
  obtain ⟨hroot, hchars⟩ := Prod.mk.inj hroot
  exact ⟨(String.toList_inj.1 hroot).symm, hchars.symm⟩

end Suffix

namespace Parameter

/-- Whether a text writes the type of a parameter, with gaps around the whole of it. The gaps just
inside the parentheses of a tuple are those of its first and its last component; a tuple without
components has one there of its own. -/
inductive WrittenAs : Parameter → List Char → Prop
  | elementary {p base name kind xs} (before gap behind : Nat) :
      p.type = Suffix.written base xs → Elementary.Names base kind → Elementary.Names name kind →
      WrittenAs p (Text.spaces before ++ (name.toList ++ Text.spaces gap ++ Suffix.chars xs) ++
        Text.spaces behind)
  | empty {p xs} (before inside gap behind : Nat) :
      p.type = Suffix.written "tuple" xs → p.components = some [] →
      WrittenAs p (Text.spaces before ++
        ('(' :: (Text.spaces inside ++ [')']) ++ Text.spaces gap ++ Suffix.chars xs) ++
        Text.spaces behind)
  | tuple {p xs ps pieces} (before gap behind : Nat) :
      p.type = Suffix.written "tuple" xs → p.components = some ps →
      List.Forall₂ WrittenAs ps pieces →
      WrittenAs p (Text.spaces before ++
        ('(' :: (List.intercalate [','] pieces ++ [')']) ++ Text.spaces gap ++ Suffix.chars xs) ++
        Text.spaces behind)

mutual

/-- A text that writes the type of a parameter spells its shape, with gaps around it. -/
theorem WrittenAs.exists_spells : ∀ {p : Parameter} {s : Shape} {text : List Char},
    p.WrittenAs text → p.shape = .ok s → ∃ before spelling behind,
      Shape.Spells s spelling ∧ text = Text.spaces before ++ spelling ++ Text.spaces behind
  | ⟨type, _, _, _, components⟩, s, text, h, hshape => by
    obtain ⟨root, ys, hsplit, hroot⟩ := shape_eq_ok_iff.1 hshape
    cases h with
    | @elementary _ base name kind xs before gap behind htype hbase hname =>
      obtain ⟨rfl, hchars⟩ :=
        Suffix.eq_of_split_written hsplit htype (Elementary.isBase_of_names hbase)
      rcases hroot with ⟨rfl, -⟩ | ⟨-, other, hother, rfl⟩
      · exact absurd hbase Elementary.not_names_tuple
      obtain rfl : kind = other :=
        Except.ok.inj ((Elementary.ofName_eq_ok_iff_names.2 hbase).symm.trans hother)
      rw [← hchars]
      exact ⟨before, _, behind, .elementary ys gap hname, rfl⟩
    | @empty _ xs before inside gap behind htype hnil =>
      obtain ⟨rfl, hchars⟩ := Suffix.eq_of_split_written hsplit htype Suffix.isBase_tuple
      rcases hroot with ⟨-, ps, fields, hps, hfields, rfl⟩ | ⟨hne, -⟩
      · obtain rfl : ps = [] := Option.some.inj (hps.symm.trans hnil)
        obtain rfl := Except.pure_eq_ok_iff.1 hfields
        rw [← hchars]
        exact ⟨before, _, behind, .empty ys inside gap, rfl⟩
      · exact absurd rfl hne
    | @tuple _ xs ps pieces before gap behind htype hps hpieces =>
      obtain ⟨rfl, hchars⟩ := Suffix.eq_of_split_written hsplit htype Suffix.isBase_tuple
      cases components with
      | none => cases hps
      | some qs =>
        obtain rfl := Option.some.inj hps
        rcases hroot with ⟨-, rs, fields, hrs, hfields, rfl⟩ | ⟨hne, -⟩
        · obtain rfl := Option.some.inj hrs
          rw [← hchars]
          exact ⟨before, _, behind, .tuple ys gap (spellsMembers_of_writtenAs hpieces hfields), rfl⟩
        · exact absurd rfl hne
termination_by structural p => p

theorem spellsMembers_of_writtenAs : ∀ {ps : List Parameter} {pieces : List (List Char)}
    {owner : String} {position : Nat} {taken : List String} {fields : Fields},
    List.Forall₂ WrittenAs ps pieces → fieldsFrom owner position taken ps = .ok fields →
      Shape.SpellsMembers fields pieces
  | [], _, _, _, _, _, h, hfields => by
    obtain rfl := Except.pure_eq_ok_iff.1 hfields
    cases h
    exact .nil
  | p :: ps, _, _, _, _, _, h, hfields => by
    obtain ⟨-, s, rest, hs, hrest, rfl⟩ := fieldsFrom_cons_eq_ok_iff.1 hfields
    cases h with
    | cons hpiece hpieces =>
      obtain ⟨before, spelling, behind, hspells, rfl⟩ := WrittenAs.exists_spells hpiece hs
      exact .cons before behind hspells (spellsMembers_of_writtenAs hpieces hrest)
termination_by structural ps => ps

end

/-! ### Main statement -/

/-- The canonical form of a text that writes the type of a parameter is the canonical type of the
parameter. -/
theorem canonicalText_of_writtenAs {p : Parameter} {s : Shape} {t : String}
    (hshape : p.shape = .ok s) (ht : p.WrittenAs t.toList) :
    canonicalText t = p.canonicalType := by
  obtain ⟨before, spelling, behind, hspells, htext⟩ := ht.exists_spells hshape
  rw [← String.toList_inj, canonicalText, String.toList_ofList, htext,
    Shape.canonicalChars_of_spells hspells, canonicalType_of_shape hshape]

/-- An array of tuples, with both names of an integer, an array of an empty tuple, and gaps. -/
theorem canonicalText_of_writtenAs_of_nested :
    let whole : Parameter := .plain "uint" "a"
    let signed : Parameter := .plain "int256[3]" "b"
    let unit : Parameter := ⟨"tuple[]", "c", false, none, some []⟩
    let pair : Parameter := ⟨"tuple", "d", false, none, some [signed, unit]⟩
    let p : Parameter := ⟨"tuple[2][]", "e", false, none, some [whole, pair]⟩
    let t := " ( uint256,(int [3] , (  ) [])) [2][]"
    p.shape = .ok (.dynamicArray (.fixedArray (.struct [("a", .elementary (.integer false 256)),
      ("d", .struct [("b", .fixedArray (.elementary (.integer true 256)) 3),
        ("c", .dynamicArray (.struct []))])]) 2)) ∧
    p.WrittenAs t.toList ∧ canonicalText t = p.canonicalType ∧
      p.canonicalType = "(uint256,(int256[3],()[]))[2][]" := by
  intro whole signed unit pair p t
  have hshape : p.shape = .ok (.dynamicArray (.fixedArray
      (.struct [("a", .elementary (.integer false 256)),
        ("d", .struct [("b", .fixedArray (.elementary (.integer true 256)) 3),
          ("c", .dynamicArray (.struct []))])]) 2)) := by with_unfolding_all rfl
  have hunsigned : Elementary.Names "uint256" (.integer false 256) :=
    Elementary.ofName_eq_ok_iff_names.1 (rfl)
  have hsigned : Elementary.Names "int256" (.integer true 256) :=
    Elementary.ofName_eq_ok_iff_names.1 (rfl)
  have hwhole : whole.type = Suffix.written "uint" [] := rfl
  have hthree : signed.type = Suffix.written "int256" [.fixed 3] := by with_unfolding_all rfl
  have hunit : unit.type = Suffix.written "tuple" [.dynamic] := rfl
  have htuple : pair.type = Suffix.written "tuple" [] := rfl
  have htwo : p.type = Suffix.written "tuple" [.fixed 2, .dynamic] := by with_unfolding_all rfl
  have hpair := WrittenAs.tuple 0 0 0 htuple rfl
    (.cons (.elementary 0 1 1 hthree hsigned .int) (.cons (.empty 1 2 1 0 hunit rfl) .nil))
  have hp := WrittenAs.tuple 1 1 0 htwo rfl
    (.cons (.elementary 1 0 0 hwhole .uint hunsigned) (.cons hpair .nil))
  have ht : p.WrittenAs t.toList := by
    convert hp using 1
    dsimp only [t]
    with_unfolding_all rfl
  refine ⟨hshape, ht, canonicalText_of_writtenAs hshape ht, ?_⟩
  rfl

end Parameter

end ContractAbi
