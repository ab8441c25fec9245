import WitnessLang.Proofs.Build.Lowered
import WitnessLang.Proofs.Sized.Kept

set_option autoImplicit false

/-! How type arguments are passed. A function takes a description for each of its type parameters behind its
parameters; every call of it passes the descriptions of the types that it was given, and values of the types
that the parameters have with them. Measuring changes none of this. -/
namespace WitnessLang

/-- The descriptions that a program computes: those that calls pass, and those of the fields of structs. -/
def Explicit.Program.descriptions (p : Explicit.Program) : List WitnessExpr :=
  p.functions.flatMap (fun f => f.body.calls.flatMap (·.given)) ++ p.builders.flatMap (·.fields)

namespace Sized

/-- The description that values are copied and destroyed with. -/
def Layout.description? (l : Layout) : Option WitnessExpr :=
  match l.witness with
  | .dynamic value => some value
  | _ => none

def Function.layouts (f : Function) : List Layout :=
  f.arguments.map (·.var.shape.layout) ++ f.body.parts.flatMap fun e => e.ownShapes.map (·.layout)

def Program.layouts (q : Program) : List Layout :=
  q.structs.flatMap (fun d => d.arguments.map (·.shape.layout) ++ d.fields.map (·.shape.layout)) ++
    (q.functions.flatMap (·.layouts) ++ q.instances.map (·.layout))

/-- The descriptions that a program computes: those that calls pass, and those in layouts. -/
def Program.descriptions (q : Program) : List WitnessExpr :=
  q.functions.flatMap (fun f => f.body.calls.flatMap (·.given)) ++ q.layouts.filterMap (·.description?)

/-- The structs of a program with the numbers of their type parameters. -/
def Program.structTable (q : Program) : List (Ident × Nat) := q.structs.map fun d => (d.name, d.arguments.length)

end Sized

/-- Callers and callees agree, where the functions of a program became others. Each takes its result, its
parameters, and a description for each type parameter; each call is one of a function that is found by its
tag, passes one value of the right type for each parameter, and then the description of each type that is
given for a type parameter. Descriptions are built as their constructors ask for. -/
structure Conventional (p : Typed.Program) (structs : List (Ident × Nat)) (functions : List Callable)
    (descriptions : List WitnessExpr) : Prop where
  takes : List.Forall₂ Explicit.Takes p.functions functions
  passes : ∀ g ∈ functions, ∀ k ∈ g.calls, ∃ f, p.functions.find? (fun f => f.name.tag == k.function.tag) = some f ∧
    ∃ k' : Call Ty, k = k'.map Ty.witnessExpr ∧ k'.Instantiates f.signature
  builds : ∀ w ∈ descriptions, w.Built structs

section Programs

variable {p : Typed.Program} {declared environments : List Explicit.Struct}

/-- Every call of a program with explicit type arguments passes descriptions of finished types. -/
theorem exists_call (typed : p.WellTyped) {f : Explicit.Function} (member : f ∈ (Explicit.pass p).functions)
    {k : Call WitnessExpr} (call : k ∈ f.body.calls) :
    ∃ h ∈ p.functions, ∃ k' ∈ h.body.calls, k = k'.map Ty.witnessExpr ∧
      ∀ t ∈ k'.given, t.Formed p.globals.arity (h.generics.map (·.tag)) [] := by
  obtain ⟨h, source, takes⟩ := exists_of_forall₂ (Explicit.pass_calls p) f member
  have calls : f.body.calls = h.body.calls.map (·.map Ty.witnessExpr) := takes.calls
  rw [calls] at call
  obtain ⟨k', known, rfl⟩ := List.mem_map.mp call
  refine ⟨h, source, k', known, rfl, fun t given => (typed.functions h source).formed t ?_⟩
  exact List.mem_cons_of_mem _ (List.mem_append_right _ (h.body.calls_given k' known given))

/-- Making type arguments explicit establishes the convention. -/
theorem pass_conventional (typed : p.WellTyped)
    (inside : (Explicit.pass p).Scoped p.globals.arity declared environments) :
    Conventional p (Explicit.structTable (Explicit.pass p).structs) ((Explicit.pass p).functions.map (·.callable))
      (Explicit.pass p).descriptions := by
  have wide := Sized.extends_of_scoped .wide 0 inside
  refine ⟨List.forall₂_map_right_iff.mpr (Explicit.pass_calls p), List.forall_mem_map.mpr fun f member k call => ?_, ?_⟩
  · obtain ⟨h, source, k', known, same, -⟩ := exists_call typed member call
    obtain ⟨callee, found, admits⟩ := typed.calls source k' known
    exact ⟨callee, same ▸ found, k', same, admits⟩
  rw [Explicit.Program.descriptions, List.forall_mem_append, List.forall_mem_flatMap, List.forall_mem_flatMap]
  constructor
  · simp only [List.forall_mem_flatMap]
    intro f member k call w given
    obtain ⟨h, -, k', -, rfl, formed⟩ := exists_call typed member call
    obtain ⟨t, known, rfl⟩ := List.mem_map.mp given
    exact Sized.built_of_formed ((formed t known).mono wide.more (fun _ same => same) fun _ same => same)
  · rw [inside.builders, List.forall_mem_map]
    intro d member
    exact List.forall_mem_map.mpr fun f field => Sized.built_of_formed (wide.formed d member f field)

/-- Measuring keeps to the convention. -/
theorem measured_conventional {R : Sized.Roster} {target : Target} {depth : Nat} {q : Sized.Program}
    (before : Conventional p (Explicit.structTable (Explicit.pass p).structs)
      ((Explicit.pass p).functions.map (·.callable)) (Explicit.pass p).descriptions)
    (kept : Sized.Program.Kept R ⟨target, (Explicit.pass p).structs, depth⟩ (Explicit.pass p) q) :
    Conventional p q.structTable (q.functions.map (·.callable)) q.descriptions := by
  have functions : q.functions.map (·.callable) = (Explicit.pass p).functions.map (·.callable) :=
    map_eq_of_forall₂ kept.functions fun f f' own => own.callable
  have table : q.structTable = Explicit.structTable (Explicit.pass p).structs :=
    map_eq_of_forall₂ kept.structs fun d d' own => by
      rw [own.name, ← List.length_map (·.typed), own.arguments, List.length_map]
  rw [table, functions]
  refine ⟨before.takes, before.passes, ?_⟩
  rw [Sized.Program.descriptions, List.forall_mem_append]
  constructor
  · intro w given
    refine before.builds w (List.mem_append_left _ ?_)
    simp only [List.mem_flatMap] at given ⊢
    obtain ⟨f, member, k, call, given⟩ := given
    obtain ⟨f', source, own⟩ := exists_of_forall₂ kept.functions f member
    have calls : f.body.calls = f'.body.calls := congrArg Callable.calls own.callable
    exact ⟨f', source, k, calls ▸ call, given⟩
  · have built : ∀ l ∈ q.layouts, l.Built (Explicit.structTable (Explicit.pass p).structs) := by
      rw [Sized.Program.layouts, List.forall_mem_append, List.forall_mem_append, List.forall_mem_flatMap,
        List.forall_mem_flatMap, List.forall_mem_map]
      refine ⟨fun d member => ?_, fun f member => ?_, kept.instances⟩
      · obtain ⟨d', -, own⟩ := exists_of_forall₂ kept.structs d member
        rw [List.forall_mem_append, List.forall_mem_map, List.forall_mem_map]
        exact ⟨own.builtA, own.builtF⟩
      · obtain ⟨f', -, own⟩ := exists_of_forall₂ kept.functions f member
        rw [Sized.Function.layouts, List.forall_mem_append, List.forall_mem_map, List.forall_mem_flatMap]
        refine ⟨fun a argument => (own.listed a argument).describes.layout.built, fun e part => ?_⟩
        exact List.forall_mem_map.mpr fun s known => ((own.sound e part).describes s known).layout.built
    intro w member
    obtain ⟨l, layout, same⟩ := List.mem_filterMap.mp member
    refine built l layout w ?_
    rw [Sized.Layout.description?] at same
    split at same
    · rename_i value kind
      rw [kind, Option.some.inj same]
    · cases same

end Programs

namespace Build

variable {o : Options} {name : String} {content : Bytes} {r : Outcome}

/-- Where all names are known, measuring to some depth changes no definition. -/
theorem kept_of_spells {file : Surface.File} {names : List String} {unit : Nat} {typed : Typed.Program}
    (accepted : Sized.Accepted file names unit typed) {bound made : Ident → Prop}
    (spells : Ir.Spells typed (Ir.spellingOf bound made typed) made) {target : Target} {depth : Nat} {q : Sized.Program}
    (within : Sized.measureWithin depth (Explicit.pass typed) target = .ok q) :
    ∃ R, Sized.Roster.Apart R ∧
      Sized.Program.Kept R ⟨target, (Explicit.pass typed).structs, depth⟩ (Explicit.pass typed) q := by
  obtain ⟨wellTyped, -⟩ := accepted.wellTyped
  obtain ⟨environments, inside⟩ := accepted.explicit
  have apart := Sized.roster_apart inside spells.adopts.apart (Ir.types_apart inside)
  refine ⟨_, apart, Sized.measureWithin_kept inside spells.passed spells.basic apart
    (fun f member k call w given x read => ?_) within⟩
  obtain ⟨h, source, k', calls, rfl, formed⟩ := exists_call wellTyped member call
  obtain ⟨t, inner, rfl⟩ := List.mem_map.mp given
  rw [Ty.names_witnessExpr (formed t inner).closed] at read
  exact ((spells.source.functions h source).body.calls k' calls t inner).mem_parameters read

/-- All names of an accepted text are known, so measuring to some depth changes no definition. -/
theorem kept_of_within (proper : IsModule o.unit) (compiled : compileSource o name content = .ok r)
    {typed : Typed.Program} (known : r.trees.typed = some typed) {target : Target} {depth : Nat} {q : Sized.Program}
    (within : Sized.measureWithin depth (Explicit.pass typed) target = .ok q) :
    ∃ R, Sized.Roster.Apart R ∧
      Sized.Program.Kept R ⟨target, (Explicit.pass typed).structs, depth⟩ (Explicit.pass typed) q := by
  obtain ⟨names, accepted⟩ := (compileSource_follows compiled).accepted proper known
  obtain ⟨bound, made, spells⟩ := Ir.spells_of_accepted accepted (Surface.read_named _)
  exact kept_of_spells accepted spells within

/-- Measuring changes no definition of an accepted text. -/
theorem kept_of_accepted (proper : IsModule o.unit) (compiled : compileSource o name content = .ok r)
    {typed : Typed.Program} (known : r.trees.typed = some typed) {target : Target} {q : Sized.Program}
    (measured : Sized.measure (Explicit.pass typed) target = .ok q) :
    ∃ R depth, Sized.Roster.Apart R ∧
      Sized.Program.Kept R ⟨target, (Explicit.pass typed).structs, depth⟩ (Explicit.pass typed) q := by
  obtain ⟨depth, within⟩ := Sized.exists_measureWithin measured
  obtain ⟨R, apart, kept⟩ := kept_of_within proper compiled known within
  exact ⟨R, depth, apart, kept⟩

/-- Callers and callees of an accepted text agree on how type arguments are passed, in the tree where they are
explicit and in the one that it is measured to. -/
theorem calls_conventional (proper : IsModule o.unit) (compiled : compileSource o name content = .ok r)
    {typed : Typed.Program} (known : r.trees.typed = some typed) :
    Conventional typed (Explicit.structTable (Explicit.pass typed).structs)
      ((Explicit.pass typed).functions.map (·.callable)) (Explicit.pass typed).descriptions ∧
    ∀ target q, Sized.measure (Explicit.pass typed) target = .ok q →
      Conventional typed q.structTable (q.functions.map (·.callable)) q.descriptions := by
  obtain ⟨names, accepted⟩ := (compileSource_follows compiled).accepted proper known
  obtain ⟨environments, inside⟩ := accepted.explicit
  have explicit := pass_conventional accepted.wellTyped.1 inside
  refine ⟨explicit, fun target q measured => ?_⟩
  obtain ⟨R, depth, -, kept⟩ := kept_of_accepted proper compiled known measured
  exact measured_conventional explicit kept

/-- A function with a type parameter, and one that gives a type for it. -/
def callText : Bytes := Bytes.ofString "func f[t](x: t): t = x\nfunc g(y: F64): F64 = f(y)"

def callOptions : Options := { stop := .measure }

set_option maxRecDepth 10000 in
def callTrees : { t // sized? 1 Target.wide (sourceOf "a" callText) = some t ∧
    (Explicit.pass t.1).descriptions.map (·.render) = ["F64()"] } :=
  obtained (by
    rw [callText, Utf8.ofString_ofList]
    decide +kernel)

/-- The call of the text passes the description of numbers, and keeps to the convention. -/
theorem callText_conventional : ∃ r typed, compileSource callOptions "a" callText = .ok r ∧ r.trees.typed = some typed ∧
    (Explicit.pass typed).descriptions.map (·.render) = ["F64()"] ∧
    Conventional typed (Explicit.structTable (Explicit.pass typed).structs)
      ((Explicit.pass typed).functions.map (·.callable)) (Explicit.pass typed).descriptions ∧
    ∀ target q, Sized.measure (Explicit.pass typed) target = .ok q →
      Conventional typed q.structTable (q.functions.map (·.callable)) q.descriptions := by
  obtain ⟨⟨typed, q⟩, done, passed⟩ := callTrees
  obtain ⟨r, compiled, known, -⟩ := compileSource_of_sized (o := callOptions) rfl rfl done
  exact ⟨r, typed, compiled, known, passed, calls_conventional ⟨by decide, by decide⟩ compiled known⟩

/-- A function whose type parameter has the number that the result of another function is given. -/
def sharedText : Bytes :=
  Bytes.ofString "struct P { }\nfunc f[t](p: P): P = {let P{} = p; let P{} = p; p}\nfunc g(): F64 = 2"

/-- The text is that of the module whose tags are used for names that are made up. -/
def sharedOptions : Options := { stop := .measure, unit := Tag.syntheticUnit }

set_option maxRecDepth 10000 in
def sharedTrees : { t // sized? Tag.syntheticUnit Target.wide (sourceOf "a" sharedText) = some t ∧
    ∃ f ∈ t.2.functions, f.arguments.head?.map (·.var.name.mangled) = some "t_3" } :=
  obtained (by
    rw [sharedText, Utf8.ofString_ofList]
    decide +kernel)

/-- In the module whose tags are used for names that are made up, measuring may take the result of one function
for a type parameter of another. -/
theorem sharedText_unconventional : ∃ r typed q, compileSource sharedOptions "a" sharedText = .ok r ∧
    r.trees.typed = some typed ∧ r.trees.sized = some q ∧
    ¬ Conventional typed q.structTable (q.functions.map (·.callable)) q.descriptions := by
  obtain ⟨⟨typed, q⟩, done, g, member, other⟩ := sharedTrees
  obtain ⟨r, compiled, known, sized⟩ := compileSource_of_sized (o := sharedOptions) rfl rfl done
  refine ⟨r, typed, q, compiled, known, sized, fun agree => ?_⟩
  obtain ⟨f, -, -, ⟨result, params, arguments, name, -⟩, -⟩ :=
    exists_of_forall₂ agree.takes g.callable (List.mem_map_of_mem member)
  have first := congrArg (fun as => as.head?.map (·.name.mangled)) arguments
  rw [List.cons_append, List.head?_cons, Option.map_some, name, Sized.Function.callable, List.head?_map,
    Option.map_map] at first
  exact absurd (other.symm.trans first) (by decide)

end Build

end WitnessLang
