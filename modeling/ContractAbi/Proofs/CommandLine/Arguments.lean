import ContractAbi.CommandLine.Run
import ContractAbi.Proofs.Declaration.Reparse
import ContractAbi.Proofs.Shape.WellFormed

/-!
# Binding the arguments that selected a function

Arguments select the function whose inputs have shapes that they bind to. When they are bound to it
for display, the shape of the whole function is asked for, that of its outputs included. So binding
them after the selection fails exactly if an output has no shape, and otherwise shows a line for
each argument. Main statement: `failure_bindArguments_iff`.
-/

namespace ContractAbi

/-- Whether arguments bind to shapes one by one, with these values. -/
inductive BindEach : List Shape → List Json → List Value → Prop
  | nil : BindEach [] [] []
  | cons {shape arg v shapes args vs} : Shape.bind shape arg = .ok v → BindEach shapes args vs →
      BindEach (shape :: shapes) (arg :: args) (v :: vs)

theorem BindEach.length_eq {shapes : List Shape} {args : List Json} {vs : List Value}
    (h : BindEach shapes args vs) : shapes.length = args.length := by
  induction h with
  | nil => rfl
  | cons _ _ ih => exact congrArg Nat.succ ih

/-! ### Selecting by arguments -/

namespace Overloads

theorem accepts_iff {shapes : List Shape} {args : List Json} :
    accepts shapes args = true ↔ ∃ vs, BindEach shapes args vs := by
  induction shapes generalizing args with
  | nil =>
    cases args with
    | nil => exact iff_of_true rfl ⟨[], .nil⟩
    | cons arg args => exact iff_of_false Bool.false_ne_true nofun
  | cons shape shapes ih =>
    cases args with
    | nil => exact iff_of_false Bool.false_ne_true nofun
    | cons arg args =>
      rw [accepts, Bool.and_eq_true, ih]
      constructor
      · rintro ⟨hfirst, vs, hvs⟩
        cases hbind : shape.bind arg with
        | ok v => exact ⟨v :: vs, .cons hbind hvs⟩
        | error e =>
          rw [hbind] at hfirst
          cases hfirst
      · rintro ⟨_, _ | ⟨hbind, hvs⟩⟩
        refine ⟨?_, _, hvs⟩
        rw [hbind]
        rfl

theorem takes_iff {args : List Json} {f : Function} :
    takes args f = true ↔
      ∃ shapes vs, Parameter.shapes f.inputs = .ok shapes ∧ BindEach shapes args vs := by
  rw [takes]
  cases Parameter.shapes f.inputs with
  | ok shapes =>
    show accepts shapes args = true ↔ _
    rw [accepts_iff]
    constructor
    · rintro ⟨vs, hvs⟩
      exact ⟨shapes, vs, rfl, hvs⟩
    · rintro ⟨_, vs, ⟨⟩, hvs⟩
      exact ⟨vs, hvs⟩
  | error e =>
    refine iff_of_false Bool.false_ne_true ?_
    rintro ⟨_, _, ⟨⟩, -⟩

theorem mem_of_unique {o : Overloads} {fs : List Function} {f : Function}
    (h : o.unique fs = .ok f) : f ∈ fs := by
  match fs with
  | [] => cases h
  | [g] =>
    obtain rfl := Except.pure_eq_ok_iff.1 h
    exact List.mem_singleton_self g
  | _ :: _ :: _ => cases h

/-- What arguments select takes them. -/
theorem takes_of_matchingArgs {o : Overloads} {args : List Json} {f : Function}
    (h : o.matchingArgs args = .ok f) : takes args f = true :=
  (List.mem_filter.1 (mem_of_unique h)).2

end Overloads

/-! ### Binding for display -/

namespace CommandLine

namespace Trace

theorem print_andThen_print (xs ys : List String) :
    (print xs).andThen (print ys) = print (xs ++ ys) := by
  show Trace.mk (xs.map .out ++ ys.map .out) none = ⟨(xs ++ ys).map .out, none⟩
  rw [List.map_append]

/-- After lines that were shown, what fails is what comes next. -/
theorem failure_print_andThen (xs : List String) (next : Trace) :
    ((print xs).andThen next).failure = next.failure :=
  rfl

end Trace

/-- The line on a parameter and the value that is bound to it. -/
def boundLine (p : Parameter) (v : Value) : String :=
  "   ✔ " ++ p.display ++ " = " ++ v.toJson.compact

/-- Arguments that bind are shown one by one. -/
theorem bindEach_eq_print {signature : String} {ps : List Parameter} {shapes : List Shape}
    {args : List Json} {vs : List Value} (h : BindEach shapes args vs)
    (hlength : shapes.length = ps.length) :
    bindEach signature ps shapes args = .print (List.zipWith boundLine ps vs) := by
  induction h generalizing ps with
  | nil =>
    obtain rfl := List.length_eq_zero_iff.1 hlength.symm
    rfl
  | cons hbind _ ih =>
    cases ps with
    | nil => cases hlength
    | cons p ps =>
      rw [bindEach, hbind]
      dsimp only
      rw [ih (Nat.succ.inj hlength), Trace.print_andThen_print]
      rfl

/-- The outputs of a function decide what becomes of arguments that bind to its inputs. -/
theorem bindArguments_eq {f : Function} {text : String} {args : List Json} {shapes : List Shape}
    {vs : List Value} (hargs : readArgs text = .ok args)
    (hinputs : Parameter.shapes f.inputs = .ok shapes) (h : BindEach shapes args vs) :
    bindArguments f text =
      match Parameter.shapes f.outputs with
      | .ok _ => .print (List.zipWith boundLine f.inputs vs)
      | .error e => .fail (.abi e) := by
  rw [bindArguments, hargs, Function.shape, hinputs]
  cases Parameter.shapes f.outputs with
  | error e => rfl
  | ok outputs =>
    show (if shapes.length ≠ args.length then _ else bindEach f.signature f.inputs shapes args) = _
    rw [if_neg (not_not_intro h.length_eq),
      bindEach_eq_print h (Parameter.length_of_shapes hinputs)]

/-- With a name and arguments, a selection goes by the arguments. -/
theorem selectFunction_eq_ok {o : Options} {d : Descriptor} {name text : String}
    {args : List Json} {f : Function} (hname : o.selection = .entry name)
    (htext : o.args = some text) (hargs : readArgs text = .ok args)
    (hselect : d.function name >>= (·.matchingArgs args) = .ok f) :
    selectFunction o d = .ok f := by
  obtain ⟨overloads, hfunction, hmatch⟩ := Except.bind_eq_ok_iff.1 hselect
  rw [selectFunction, hname]
  dsimp only
  rw [hfunction, htext]
  show (readArgs text >>= fun args => (overloads.matchingArgs args).mapError CommandError.abi) =
    .ok f
  rw [hargs, Except.ok_bind, hmatch]
  rfl

/-! ### Main statement -/

/-- Arguments that selected a function bind to it for display exactly if its outputs have shapes. -/
theorem failure_bindArguments_iff {d : Descriptor} {name text : String} {args : List Json}
    {f : Function} (hargs : readArgs text = .ok args)
    (hselect : d.function name >>= (·.matchingArgs args) = .ok f) :
    ((bindArguments f text).failure = none ↔ ∃ ss, Parameter.shapes f.outputs = .ok ss) ∧
    (∃ shapes vs, Parameter.shapes f.inputs = .ok shapes ∧ BindEach shapes args vs ∧
      bindArguments f text =
        match Parameter.shapes f.outputs with
        | .ok _ => .print (List.zipWith boundLine f.inputs vs)
        | .error e => .fail (.abi e)) ∧
    ∀ o : Options, o.selection = .entry name → o.args = some text →
      (showFunction o d).failure = (bindArguments f text).failure := by
  obtain ⟨overloads, -, hmatch⟩ := Except.bind_eq_ok_iff.1 hselect
  obtain ⟨shapes, vs, hinputs, hvs⟩ :=
    Overloads.takes_iff.1 (Overloads.takes_of_matchingArgs hmatch)
  have hbind := bindArguments_eq hargs hinputs hvs
  refine ⟨?_, ⟨shapes, vs, hinputs, hvs, hbind⟩, ?_⟩
  · rw [hbind]
    cases Parameter.shapes f.outputs with
    | ok ss => exact iff_of_true rfl ⟨ss, rfl⟩
    | error e => exact iff_of_false nofun nofun
  · intro o hname htext
    rw [showFunction, selectFunction_eq_ok hname htext hargs hselect, htext]
    exact Trace.failure_print_andThen _ _

/-- A number selects the function that takes one, whose output has a shape, among two. -/
theorem failure_bindArguments_iff_of_number :
    let f : Function := ⟨"f", [.plain "uint256" "a"], [.plain "bool" ""], .view⟩
    let g : Function := ⟨"f", [.plain "foo" "a"], [], .view⟩
    let d : Descriptor := ⟨[.function g, .function f]⟩
    let o : Options := ⟨"abi.json", .entry "f", some "[1]", false, .strict, false⟩
    (readArgs "[1]" = .ok [.number (.integer 1)] ∧
      d.function "f" >>= (·.matchingArgs [.number (.integer 1)]) = .ok f) ∧
    (bindArguments f "[1]").failure = none ∧
    (∃ shapes vs, Parameter.shapes f.inputs = .ok shapes ∧
      BindEach shapes [.number (.integer 1)] vs ∧
      bindArguments f "[1]" =
        match Parameter.shapes f.outputs with
        | .ok _ => .print (List.zipWith boundLine f.inputs vs)
        | .error e => .fail (.abi e)) ∧
    (showFunction o d).failure = (bindArguments f "[1]").failure := by
  intro f g d o
  have hargs : readArgs "[1]" = .ok [.number (.integer 1)] := by with_unfolding_all rfl
  have hselect : d.function "f" >>= (·.matchingArgs [.number (.integer 1)]) = .ok f := by
    with_unfolding_all rfl
  have houtputs : Parameter.shapes f.outputs = .ok [.elementary .bool] := by with_unfolding_all rfl
  obtain ⟨hiff, hbound, hshow⟩ := failure_bindArguments_iff hargs hselect
  exact ⟨⟨hargs, hselect⟩, hiff.2 ⟨_, houtputs⟩, hbound, hshow o rfl rfl⟩

/-- A function whose output has no shape is selected by arguments that then fail to be shown. -/
theorem failure_bindArguments_ne_none :
    let f : Function := ⟨"f", [.plain "uint256" "a"], [.plain "foo" "b"], .nonpayable⟩
    let d : Descriptor := ⟨[.function f]⟩
    let o : Options := ⟨"abi.txt", .entry "f", some "[1]", false, .strict, false⟩
    Entry.ofDeclaration .strict "function f(uint256 a) returns (foo b)" = .ok (.function f) ∧
    readArgs "[1]" = .ok [.number (.integer 1)] ∧
    d.function "f" >>= (·.matchingArgs [.number (.integer 1)]) = .ok f ∧
    (bindArguments f "[1]").failure = some (.abi (.unknownAbiType "foo")) ∧
    (showFunction o d).failure ≠ none := by
  intro f d o
  have hparameter : ∀ type name : String, Text.IsWord type → Text.IsWord name →
      Modifier.ofText? name = none → Parameter.DeclarableList [.plain type name] :=
    fun _ _ htype hname hno => .inr (List.forall_mem_singleton.2 ⟨htype, .inr hname, hno, rfl, rfl⟩)
  have hdisplay : Entry.display (.function f) = "function f(uint256 a) returns (foo b)" := by decide
  have hdeclared : Entry.ofDeclaration .strict "function f(uint256 a) returns (foo b)" =
      .ok (.function f) := by
    rw [← hdisplay]
    apply (Entry.ofDeclaration_display_function (by decide)
      (hparameter _ _ (by decide) (by decide) (by decide))
      (hparameter _ _ (by decide) (by decide) (by decide)) (by decide)).2
    decide
  have hargs : readArgs "[1]" = .ok [.number (.integer 1)] := by with_unfolding_all rfl
  have hselect : d.function "f" >>= (·.matchingArgs [.number (.integer 1)]) = .ok f := by
    with_unfolding_all rfl
  have hbind : (bindArguments f "[1]").failure = some (.abi (.unknownAbiType "foo")) := by
    with_unfolding_all rfl
  have hshow : (showFunction o d).failure = (bindArguments f "[1]").failure := by
    rw [showFunction, selectFunction_eq_ok rfl rfl hargs hselect]
    exact Trace.failure_print_andThen _ _
  refine ⟨hdeclared, hargs, hselect, hbind, ?_⟩
  rw [hshow, hbind]
  exact Option.some_ne_none _

end CommandLine

end ContractAbi
