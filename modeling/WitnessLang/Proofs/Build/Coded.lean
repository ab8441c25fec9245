import WitnessLang.Proofs.Build.Conventions
import WitnessLang.Proofs.Build.Definitions
import WitnessLang.Proofs.Ir.Coded
import WitnessLang.Proofs.Ir.Conversion

set_option autoImplicit false

/-! The code of source texts. The functions that an accepted text is lowered to consist of the code of its
measured functions, what a closure takes along is told apart by tags and by names, and every closure is
converted to a struct and a function. -/
namespace WitnessLang

namespace Ir

section Parts

variable {N : Naming}

mutual

/-- The parts of an expression name definitions and declared variables only. -/
theorem Naming.Covers.inside : (e : Sized.Expr) → N.Covers e → ∀ part ∈ e.parts, N.Covers part
  | .var _ _, covers | .number _ _ _, covers | .bool _ _, covers => by
    rw [Sized.Expr.parts]
    exact List.forall_mem_singleton.mpr covers
  | .callDirect _ _ args _, covers => by
    rw [Sized.Expr.parts, List.forall_mem_cons]
    exact ⟨covers, coversAll_inside args covers.2.2.1⟩
  | .callClosure _ callee args, covers => by
    rw [Sized.Expr.parts, List.forall_mem_cons, List.forall_mem_append]
    exact ⟨covers, Naming.Covers.inside callee covers.2.1, coversAll_inside args covers.2.2⟩
  | .primitive _ _ left right, covers => by
    rw [Sized.Expr.parts, List.forall_mem_cons, List.forall_mem_append]
    exact ⟨covers, Naming.Covers.inside left covers.2.1, Naming.Covers.inside right covers.2.2⟩
  | .block _ lets result, covers => by
    rw [Sized.Expr.parts, List.forall_mem_cons, List.forall_mem_append]
    exact ⟨covers, coversLets_inside lets covers.2.1, Naming.Covers.inside result covers.2.2⟩
  | .pack _ _ fields, covers => by
    rw [Sized.Expr.parts, List.forall_mem_cons]
    exact ⟨covers, coversFields_inside fields covers.2.2⟩
  | .unpack _ value _, covers => by
    rw [Sized.Expr.parts, List.forall_mem_cons]
    exact ⟨covers, Naming.Covers.inside value covers.2⟩
  | .cond _ test yes no, covers => by
    rw [Sized.Expr.parts, List.forall_mem_cons, List.forall_mem_append, List.forall_mem_append]
    exact ⟨covers, Naming.Covers.inside test covers.2.1, Naming.Covers.inside yes covers.2.2.1,
      Naming.Covers.inside no covers.2.2.2⟩
  | .closure _ _ _ _ _ _ body, covers => by
    rw [Sized.Expr.parts, List.forall_mem_cons]
    exact ⟨covers, Naming.Covers.inside body covers.2.2.2.2⟩

theorem coversAll_inside : (es : List Sized.Expr) → N.CoversAll es → ∀ part ∈ Sized.Expr.partsAll es, N.Covers part
  | [], _ => List.forall_mem_nil _
  | e :: rest, covers =>
    List.forall_mem_append.mpr ⟨Naming.Covers.inside e covers.1, coversAll_inside rest covers.2⟩

theorem coversFields_inside : (fs : List Sized.PackField) → N.CoversFields fs →
    ∀ part ∈ Sized.Expr.fieldParts fs, N.Covers part
  | [], _ => List.forall_mem_nil _
  | ⟨_, value⟩ :: rest, covers =>
    List.forall_mem_append.mpr ⟨Naming.Covers.inside value covers.1, coversFields_inside rest covers.2⟩

theorem coversLets_inside : (bs : List Sized.Let) → N.CoversLets bs → ∀ part ∈ Sized.Expr.letParts bs, N.Covers part
  | [], _ => List.forall_mem_nil _
  | ⟨_, value⟩ :: rest, covers =>
    List.forall_mem_append.mpr ⟨Naming.Covers.inside value covers.2.1, coversLets_inside rest covers.2.2⟩

end

/-- What a closure takes along has tags of its own, and so names of its own. -/
theorem Naming.Covers.distinct {e : Sized.Expr} {structs : List Explicit.Struct} (covers : N.Covers e) (apart : N.Apart)
    (encloses : e.Encloses structs) : e.Distinct := by
  cases e with
  | closure shape params generics captures env envShape body =>
    refine ⟨encloses.2, apart.nodup (fun v member => ?_) encloses.2⟩
    exact (covers.2.2.2.1 v (List.mem_append_right _ member)).1
  | _ => trivial

end Parts

end Ir

namespace Sized

/-- The parameters that values are passed to are those in front of the descriptions. -/
theorem Function.Scoped.plain_params {c : Context} {f : Function} {result : Variable} {params generics : List Variable}
    (own : f.Scoped c result params generics) : f.plain.params = variableTags params := by
  rw [Function.plain, own.split.1, List.drop_succ_cons, List.drop_zero, List.map_map]
  rfl

end Sized

namespace Build

variable {o : Options} {name : String} {content : Bytes} {r : Outcome}

/-- What a text is measured to hangs together, and goes with a roster and a naming. -/
theorem measured_sound (proper : IsModule o.unit) (compiled : compileSource o name content = .ok r)
    {typed : Typed.Program} (known : r.trees.typed = some typed) {target : Target} {q : Sized.Program}
    (measured : Sized.measure (Explicit.pass typed) target = .ok q) :
    ∃ c N R, Ir.Naming.Apart N ∧ N.CoversProgram c q ∧ c.structs = (Explicit.pass typed).structs ∧
      Sized.Roster.Apart R ∧ Sized.Program.Kept R c (Explicit.pass typed) q ∧
      ∀ f ∈ q.functions, ∀ part ∈ f.body.parts, part.Distinct := by
  obtain ⟨_, N, -, lowerable⟩ := exists_lowerable proper compiled known
  obtain ⟨depth, within⟩ := Sized.exists_measureWithin measured
  obtain ⟨R, apart, kept⟩ := kept_of_within proper compiled known within
  have covers := lowerable.covers target depth q within
  refine ⟨_, N, R, lowerable.apart, covers, rfl, apart, kept, fun f member part within => ?_⟩
  obtain ⟨_, _, _, -, named⟩ := covers.functions f member
  obtain ⟨_, -, own⟩ := exists_of_forall₂ kept.functions f member
  exact (Ir.Naming.Covers.inside f.body named.body part within).distinct lowerable.apart (own.sound part within).encloses

/-- Every function that a text is lowered from consists of its code, with the result in a variable of that name. -/
theorem functions_coded (proper : IsModule o.unit) (compiled : compileSource o name content = .ok r)
    {typed : Typed.Program} (known : r.trees.typed = some typed) {target : Target} {q : Sized.Program}
    (measured : Sized.measure (Explicit.pass typed) target = .ok q) {m : Ir.Program} (done : Ir.lower q = .ok m) :
    ∃ c N, Ir.Naming.Apart N ∧ N.CoversProgram c q ∧ c.structs = (Explicit.pass typed).structs ∧
      ∀ f ∈ q.functions, ∃ result params generics, f.Scoped c result params generics ∧
        N.CoversFunction result params generics f ∧
        ∃ L ∈ m.functions, Ir.FunctionCodes m.functions f result params generics L := by
  obtain ⟨c, N, -, apart, covers, structs, -, -, distinct⟩ := measured_sound proper compiled known measured
  refine ⟨c, N, apart, covers, structs, fun f member => ?_⟩
  obtain ⟨result, params, generics, own, L, lowered, coded⟩ := Ir.lower_coded covers.scoped distinct done f member
  obtain ⟨result', params', generics', own', named⟩ := covers.functions f member
  obtain ⟨rfl, rfl, rfl⟩ := own.unique own'
  exact ⟨result, params, generics, own, named, L, lowered, coded⟩

/-- What a text was lowered to hangs together with what was measured. -/
theorem fits_of_lowered {R : Sized.Roster} {c : Sized.Context} {e : Explicit.Program} {N : Ir.Naming} {closures : Nat}
    {q : Sized.Program} {p : Ir.Program} (apart : R.Apart) (structs : c.structs = e.structs)
    (kept : Sized.Program.Kept R c e q) (lowered : Ir.Program.Lowered N q closures p) : Ir.Fits R c p where
  apart := apart
  structs := by
    intro s member
    rw [structs] at member
    obtain ⟨d, measured, own⟩ := exists_of_forall₂ kept.structs.flip s member
    obtain ⟨r, made, done⟩ := exists_of_forall₂ lowered.structs.flip d measured
    have names : r.fields.map (·.name) = d.fields.map (·.name) := map_eq_of_forall₂ done.fields fun _ _ same => same.1
    refine ⟨r, made, by rw [done.name, own.name], ?_⟩
    rw [← own.fields, ← List.zip_map', ← List.zip_map', names, done.types]
  flows := fun L member => (lowered.functions L member).flows

/-- Every closure of an accepted text is converted: its environment has a struct, the function that the closure stands
in makes the environment of its own variables, and the function behind the closure takes it apart. -/
theorem closures_converted (proper : IsModule o.unit) (compiled : compileSource o name content = .ok r)
    {q : Sized.Program} (sized : r.trees.sized = some q) {p : Ir.Program} (done : Ir.lower q = .ok p) :
    ∀ f ∈ q.functions, ∃ g ∈ p.functions, g.name = f.name.mangled ∧ Ir.Converted p f.body g := by
  obtain ⟨e, explicit, measured⟩ := (compileSource_follows compiled).sized q sized
  obtain ⟨typed, known, rfl⟩ := (compileSource_follows compiled).explicit e explicit
  obtain ⟨N, closures, -, lowered, -⟩ := named_of_sized proper compiled known sized done
  obtain ⟨R, depth, apart, kept⟩ := kept_of_accepted proper compiled known measured
  obtain ⟨c, N', -, -, -, coded⟩ := functions_coded proper compiled known measured done
  have fits := fits_of_lowered apart rfl kept lowered
  intro f member
  obtain ⟨result, params, generics, own, -, g, inside, codes⟩ := coded f member
  obtain ⟨h, -, keeps⟩ := exists_of_forall₂ kept.functions f member
  have arguments : f.arguments = ⟨result, .out⟩ :: params.map Ir.borrowed ++ generics.map Ir.borrowed := own.arguments
  have listed := keeps.listed
  rw [arguments, List.cons_append, List.forall_mem_cons, List.forall_mem_append, List.forall_mem_map,
    List.forall_mem_map] at listed
  have all := List.forall_mem_append.mpr ⟨listed.2.2, List.forall_mem_cons.mpr ⟨listed.1, listed.2.1⟩⟩
  exact ⟨g, inside, codes.name, codes.converted fits all keeps.sound⟩

/-- A closure inside a closure; both take along a type parameter and a value of its type. -/
def nestedText : Bytes := Bytes.ofString "func f[t](x: t): () -> (F64) -> t = || |z: F64| x"

set_option maxRecDepth 10000 in
def nestedTrees : { t // lowered? 1 Target.wide (sourceOf "a" nestedText) = some t ∧ t.2.2.problems = some [] ∧
    t.2.2.functions.map (·.name) = ["f", "_closure_1", "_closure_0"] ∧
    t.2.2.structs.map (fun d => (d.name, d.fields.map (·.name))) =
      [("_Env0", ["t_1", "x_2"]), ("_Env1", ["t_1", "x_2"])] } :=
  obtained (by
    rw [nestedText, Utf8.ofString_ofList]
    decide +kernel)

/-- Both closures of the text are converted. -/
theorem nestedText_converted : ∃ r q p, compileSource sampleOptions "a" nestedText = .ok r ∧
    r.trees.sized = some q ∧ Ir.lower q = .ok p ∧ p.functions.map (·.name) = ["f", "_closure_1", "_closure_0"] ∧
    p.structs.map (fun d => (d.name, d.fields.map (·.name))) = [("_Env0", ["t_1", "x_2"]), ("_Env1", ["t_1", "x_2"])] ∧
    ∀ f ∈ q.functions, ∃ g ∈ p.functions, g.name = f.name.mangled ∧ Ir.Converted p f.body g := by
  obtain ⟨⟨typed, q, p⟩, done, sound, functions, structs⟩ := nestedTrees
  obtain ⟨sized, lowered⟩ := lowered?_eq_some.mp done
  obtain ⟨r, compiled, -, measured, -⟩ := compileSource_of_lowered (o := sampleOptions) rfl rfl sized lowered sound
  exact ⟨r, q, p, compiled, measured, lowered, functions, structs,
    closures_converted ⟨by decide, by decide⟩ compiled measured lowered⟩

/-- A closure that takes along a parameter, behind three bindings of names that are made up. -/
def exchangedText : Bytes := Bytes.ofString ("struct P { }\n" ++
  "func f(): F64 = {let P{} = P{}; let P{} = P{}; let P{} = P{}; 1}\nfunc g(x: F64): () -> F64 = || x")

set_option maxRecDepth 10000 in
def exchangedTrees : { t // lowered? Tag.syntheticUnit Target.wide (sourceOf "a" exchangedText) = some t ∧
    ∃ f ∈ t.2.1.functions, (Ir.enclosed? f.body).any (fun e => t.2.2.structs.all fun d =>
      d.name != e.1.mangled || d.fields.map (·.name) != e.2.map (·.name.mangled)) = true } :=
  obtained (by
    rw [exchangedText, Utf8.ofString_append, Utf8.ofString_ofList, Utf8.ofString_ofList]
    decide +kernel)

/-- In the module whose tags are used for names that are made up, a closure takes along another variable than its
environment has a field for. -/
theorem exchangedText_unconverted : ∃ r q p, compileSource sharedOptions "a" exchangedText = .ok r ∧
    r.trees.sized = some q ∧ Ir.lower q = .ok p ∧
    ¬ ∀ f ∈ q.functions, ∃ g ∈ p.functions, g.name = f.name.mangled ∧ Ir.Converted p f.body g := by
  obtain ⟨⟨typed, q, p⟩, done, f, member, wrong⟩ := exchangedTrees
  obtain ⟨measured, lowered⟩ := lowered?_eq_some.mp done
  obtain ⟨r, compiled, -, sized⟩ := compileSource_of_sized (o := sharedOptions) rfl rfl measured
  refine ⟨r, q, p, compiled, sized, lowered, fun converted => ?_⟩
  obtain ⟨⟨env, listed⟩, encloses, wrong⟩ := (Option.any_eq_true _ _).mp wrong
  obtain ⟨g, -, -, own⟩ := converted f member
  obtain ⟨d, inside, environment⟩ := own.environment encloses
  have other := List.all_eq_true.mp wrong d inside
  have names := congrArg (List.map Prod.fst) environment.fields
  rw [List.map_map, List.map_map] at names
  rw [environment.name, bne_self_eq_false, Bool.false_or, bne_iff_ne] at other
  exact other names

end Build

end WitnessLang
