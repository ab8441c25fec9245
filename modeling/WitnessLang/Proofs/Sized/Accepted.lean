import Mathlib.Algebra.Ring.Int.Defs
import WitnessLang.Ir.Lower
import WitnessLang.Ir.Validate
import WitnessLang.Proofs.Resolved.Program
import WitnessLang.Proofs.Sized.Program
import WitnessLang.Proofs.Typed.Program

set_option autoImplicit false

/-! From files to measured programs: what the stages up to the measuring one promise together. -/
namespace WitnessLang.Sized

/-- A file is accepted by the stages up to the type checker. -/
structure Accepted (file : Surface.File) (names : List String) (unit : Nat)
    (typed : Typed.Program) : Prop where
  own : unit ≠ Tag.builtinUnit
  foreign : unit ≠ Tag.syntheticUnit
  checked : ∃ p table, Resolved.resolve file (names.foldl SymbolTable.intern .start) unit =
    (.ok p, table) ∧ Typed.check p = .ok typed

section Accepted

variable {file : Surface.File} {names : List String} {unit : Nat} {typed : Typed.Program}

theorem Accepted.wellTyped (accepted : Accepted file names unit typed) :
    typed.WellTyped ∧ typed.unit = unit := by
  obtain ⟨p, table, resolved, checked⟩ := accepted.checked
  obtain ⟨inside, rfl⟩ := Resolved.resolve_scoped accepted.own resolved
  exact Typed.check_sound inside accepted.own checked

theorem Accepted.explicit (accepted : Accepted file names unit typed) :
    ∃ environments, (Explicit.pass typed).Scoped typed.globals.arity
      (typed.structs.map Explicit.structOf) environments := by
  obtain ⟨wellTyped, same⟩ := accepted.wellTyped
  exact Explicit.pass_scoped wellTyped (same ▸ accepted.foreign)

theorem Accepted.measured (accepted : Accepted file names unit typed) {target : Target}
    {q : Program} (done : measure (Explicit.pass typed) target = .ok q) :
    ∃ depth, Program.Measured ⟨target, (Explicit.pass typed).structs, depth⟩ (Explicit.pass typed) q := by
  obtain ⟨environments, inside⟩ := accepted.explicit
  exact measured_of_scoped inside done

end Accepted

/-- The trees of a file that is measured within the usual bound, and lowered. -/
def lowered? (file : Surface.File) (unit : Nat) (target : Target) :
    Option (Typed.Program × Program × Ir.Program) :=
  match Resolved.resolve file .start unit with
  | (.ok p, _) => do
    let typed ← (Typed.check p).toOption
    let q ← (measureWithin usualDepth (Explicit.pass typed) target).toOption
    let r ← (Ir.lower q).toOption
    return (typed, q, r)
  | (.error _, _) => none

theorem lowered?_eq_some {file : Surface.File} {unit : Nat} {target : Target} {typed : Typed.Program}
    {q : Program} {r : Ir.Program} (done : lowered? file unit target = some (typed, q, r))
    (own : unit ≠ Tag.builtinUnit) (foreign : unit ≠ Tag.syntheticUnit) :
    Accepted file [] unit typed ∧ measure (Explicit.pass typed) target = .ok q ∧
      Ir.lower q = .ok r := by
  rw [lowered?] at done
  split at done
  · rename_i p table resolved
    simp only [Option.bind_eq_bind, Option.bind_eq_some_iff, Except.toOption_eq_some] at done
    obtain ⟨typed, checked, q, measured, r, lowered, same⟩ := done
    obtain ⟨rfl, rfl, rfl⟩ : typed = _ ∧ q = _ ∧ r = _ := by simpa using same
    exact ⟨⟨own, foreign, p, table, resolved, checked⟩, measure_eq_of_usual measured (by simp), lowered⟩
  · cases done

/-- What holds of the trees of a file, if a test of them succeeds. -/
theorem exists_lowered {file : Surface.File} {unit : Nat} {target : Target}
    {test : Typed.Program × Program × Ir.Program → Bool}
    (taken : (lowered? file unit target).map test = some true) :
    ∃ typed q r, lowered? file unit target = some (typed, q, r) ∧ test (typed, q, r) = true := by
  obtain ⟨⟨typed, q, r⟩, done, passed⟩ := Option.map_eq_some_iff.mp taken
  exact ⟨typed, q, r, done, passed⟩

mutual

/-- The shapes in an expression: of its parts, and of the variables it binds and takes along. -/
def Expr.shapes (e : Expr) : List Shape :=
  e.shape :: match e with
    | .var _ _ | .number _ _ _ | .bool _ _ => []
    | .callDirect _ _ args _ => shapesAll args
    | .callClosure _ callee args => callee.shapes ++ shapesAll args
    | .primitive _ _ left right => left.shapes ++ right.shapes
    | .block _ lets result => letShapes lets ++ result.shapes
    | .pack _ _ fields => fieldShapes fields
    | .unpack _ value _ => value.shapes
    | .cond _ test yes no => test.shapes ++ (yes.shapes ++ no.shapes)
    | .closure _ params generics captures _ envShape body =>
      envShape :: (params ++ generics ++ captures).map (·.shape) ++ body.shapes

def Expr.shapesAll : List Expr → List Shape
  | [] => []
  | e :: rest => e.shapes ++ shapesAll rest

def Expr.fieldShapes : List PackField → List Shape
  | [] => []
  | ⟨_, value⟩ :: rest => value.shapes ++ fieldShapes rest

def Expr.letShapes : List Let → List Shape
  | [] => []
  | ⟨v, value⟩ :: rest => v.shape :: value.shapes ++ letShapes rest

end

/-- The shapes in a program: of variables, fields, expressions and applied structs. -/
def Program.shapes (p : Program) : List Shape :=
  p.structs.flatMap (fun s => s.arguments.map (·.shape) ++ s.fields.map (·.shape)) ++
    p.functions.flatMap (fun f => f.arguments.map (·.var.shape) ++ f.body.shapes) ++
    p.instances.map fun i => ⟨i.type, i.layout⟩

section Shapes

variable {c : Context} {generics vars : List Tag}

theorem Variable.IsDescription.exact {v : Variable} (kind : v.IsDescription c) :
    v.shape.Exact c := by
  rw [kind]
  refine ⟨_, ⟨1, rfl⟩, ?_, rfl, rfl, by simp⟩
  simp [Target.witnessSize, Int64.ofInt_mul]

theorem Expr.Scoped.shape {e : Expr} (inside : e.Scoped c generics vars) :
    e.shape.Scoped c generics := by
  cases e <;> first | exact inside.1 | exact inside

theorem exact_of_scopedAll {es : List Expr}
    (each : ∀ e ∈ es, ∀ vars, e.Scoped c generics vars → ∀ s ∈ e.shapes, s.Exact c)
    (inside : Expr.ScopedAll c generics vars es) : ∀ s ∈ Expr.shapesAll es, s.Exact c := by
  induction es with
  | nil => simp [Expr.shapesAll]
  | cons e rest ih =>
    rw [List.forall_mem_cons] at each
    exact List.forall_mem_append.mpr ⟨each.1 vars inside.1, ih each.2 inside.2⟩

theorem exact_of_fieldsScoped {fs : List PackField}
    (each : ∀ f ∈ fs, ∀ vars, f.value.Scoped c generics vars → ∀ s ∈ f.value.shapes, s.Exact c)
    (inside : Expr.FieldsScoped c generics vars fs) : ∀ s ∈ Expr.fieldShapes fs, s.Exact c := by
  induction fs with
  | nil => simp [Expr.fieldShapes]
  | cons f rest ih =>
    obtain ⟨name, value⟩ := f
    rw [List.forall_mem_cons] at each
    exact List.forall_mem_append.mpr ⟨each.1 vars inside.1, ih each.2 inside.2⟩

theorem exact_of_letsScoped {bs : List Let}
    (each : ∀ b ∈ bs, ∀ vars, b.value.Scoped c generics vars → ∀ s ∈ b.value.shapes, s.Exact c)
    (inside : Expr.LetsScoped c generics vars bs) : ∀ s ∈ Expr.letShapes bs, s.Exact c := by
  induction bs generalizing vars with
  | nil => simp [Expr.letShapes]
  | cons b rest ih =>
    obtain ⟨v, value⟩ := b
    rw [List.forall_mem_cons] at each
    obtain ⟨own, inner, others⟩ := inside
    exact List.forall_mem_append.mpr
      ⟨List.forall_mem_cons.mpr ⟨own.exact, each.1 vars inner⟩, ih each.2 others⟩

/-- All that is known of the values in an expression tells what they take. -/
theorem Expr.Scoped.exact {e : Expr} (inside : e.Scoped c generics vars) :
    ∀ s ∈ e.shapes, s.Exact c := by
  induction e generalizing generics vars with
  | var | number | bool => exact List.forall_mem_singleton.mpr inside.shape.exact
  | callDirect shape function args witnesses ih =>
    exact List.forall_mem_cons.mpr ⟨inside.1.exact,
      exact_of_scopedAll (fun e member vars => ih e member) inside.2.1⟩
  | callClosure shape callee args ihCallee ih =>
    exact List.forall_mem_cons.mpr ⟨inside.1.exact, List.forall_mem_append.mpr
      ⟨ihCallee inside.2.1, exact_of_scopedAll (fun e member vars => ih e member) inside.2.2⟩⟩
  | primitive shape op left right ihLeft ihRight =>
    exact List.forall_mem_cons.mpr ⟨inside.1.exact, List.forall_mem_append.mpr
      ⟨ihLeft inside.2.1, ihRight inside.2.2⟩⟩
  | block shape lets result ih ihResult =>
    exact List.forall_mem_cons.mpr ⟨inside.1.exact, List.forall_mem_append.mpr
      ⟨exact_of_letsScoped (fun b member vars => ih b member) inside.2.1, ihResult inside.2.2⟩⟩
  | pack shape name fields ih =>
    exact List.forall_mem_cons.mpr ⟨inside.1.exact,
      exact_of_fieldsScoped (fun f member vars => ih f member) inside.2⟩
  | unpack shape value field ih => exact List.forall_mem_cons.mpr ⟨inside.1.exact, ih inside.2⟩
  | cond shape test yes no ihTest ihYes ihNo =>
    exact List.forall_mem_cons.mpr ⟨inside.1.exact, List.forall_mem_append.mpr
      ⟨ihTest inside.2.1, List.forall_mem_append.mpr ⟨ihYes inside.2.2.1, ihNo inside.2.2.2⟩⟩⟩
  | closure shape params own captures env envShape body ih =>
    obtain ⟨mine, environment, descriptions, captured, given, body⟩ := inside
    refine List.forall_mem_cons.mpr ⟨mine.exact, List.forall_mem_cons.mpr ⟨environment.exact, ?_⟩⟩
    refine List.forall_mem_append.mpr ⟨?_, ih body⟩
    simp only [List.map_append, List.forall_mem_append, List.forall_mem_map]
    exact ⟨⟨fun v member => (given v member).exact,
      fun v member => (descriptions v member).2.exact⟩,
      fun v member => (captured v member).2.exact⟩

theorem Program.Scoped.exact {p : Program} (inside : p.Scoped c) : ∀ s ∈ p.shapes, s.Exact c := by
  simp only [Program.shapes, List.forall_mem_append, List.mem_flatMap, forall_exists_index, and_imp]
  refine ⟨⟨fun s d struct member => ?_, fun s f function member => ?_⟩, ?_⟩
  · have scope := inside.structs d struct
    rcases List.mem_append.mp member with argument | field
    · obtain ⟨v, known, rfl⟩ := List.mem_map.mp argument
      exact (scope.arguments v known).exact
    · obtain ⟨f, known, rfl⟩ := List.mem_map.mp field
      exact scope.exact f known
  · obtain ⟨result, params, gs, scope⟩ := inside.functions f function
    rcases List.mem_append.mp member with argument | part
    · rw [scope.arguments] at argument
      simp only [List.map_append, List.map_cons, List.map_map, List.mem_append, List.mem_cons,
        List.mem_map, Function.comp_apply] at argument
      rcases argument with (rfl | ⟨v, known, rfl⟩) | ⟨v, known, rfl⟩
      · exact (scope.values result List.mem_cons_self).exact
      · exact (scope.values v (List.mem_cons_of_mem _ known)).exact
      · exact (scope.descriptions v known).exact
    · exact scope.body.exact s part
  · simpa using inside.instances

end Shapes

/-- A word holds a number that is not negative if and only if that is below `2 ^ 63`. -/
theorem toInt_ofInt_eq_iff {n : Int} (nonneg : 0 ≤ n) :
    (Int64.ofInt n).toInt = n ↔ n < 2 ^ 63 := by
  refine ⟨fun same => ?_, fun small => Int64.toInt_ofInt_of_le (by omega) small⟩
  have bound := (Int64.ofInt n).toInt_lt
  rwa [same] at bound

/-- The sizes of an accepted program are the exact sums modulo `2 ^ 64`, so they are exact if
and only if these are below `2 ^ 63`. -/
theorem size_exact_iff {file : Surface.File} {names : List String} {unit : Nat}
    {typed : Typed.Program} {target : Target} {q : Program}
    (accepted : Accepted file names unit typed) (machine : target = .wide ∨ target = .narrow)
    (measured : measure (Explicit.pass typed) target = .ok q) :
    ∀ s ∈ q.shapes, ∃ x, Takes target (Explicit.pass typed).structs s.type x ∧
      s.layout.size.static = Int64.ofInt x.bytes ∧
      (∀ n, s.layout.witness = .trivial n → n = Int64.ofInt x.bytes) ∧
      (s.layout.size.static.toInt = x.bytes ↔ x.bytes < 2 ^ 63) := by
  obtain ⟨depth, made⟩ := accepted.measured measured
  intro s member
  obtain ⟨x, takes, tells⟩ := made.inside.exact s member
  have pointers : 0 ≤ target.pointerSize.toInt := by rcases machine with rfl | rfl <;> decide
  refine ⟨x, takes, tells.static, fun n plain => (tells.trivial n plain).trans tells.static, ?_⟩
  rw [tells.static]
  exact toInt_ofInt_eq_iff (takes.nonneg pointers)

/-- A file with a struct of `width` fields, and a function that takes the struct applied to
itself `depth` times. -/
def nestedFile (width depth : Nat) : Surface.File :=
  let fields := (List.range width).map fun i => Surface.Field.mk {} ("x" ++ toString i) (.named {} "t")
  let nested := depth.repeat (fun t => Surface.TypeExpr.apply {} "P" [t]) (.named {} "F64")
  ⟨{}, [.struct ⟨{}, "P", {}, [⟨{}, "t"⟩], fields⟩,
    .func ⟨{}, "f", {}, [], [⟨{}, .var {} "x", nested⟩], .named {} "F64", .number {} "1" 0⟩]⟩

theorem nestedFile_exact : ∃ typed q r, lowered? (nestedFile 2 4) 1 .narrow = some (typed, q, r) ∧
    (q.shapes.any fun s => s.layout.size.static == 128) = true ∧
    ∀ s ∈ q.shapes, ∃ x, Takes .narrow (Explicit.pass typed).structs s.type x ∧
      s.layout.size.static = Int64.ofInt x.bytes := by
  obtain ⟨typed, q, r, done, large⟩ := @exists_lowered (nestedFile 2 4) 1 .narrow
    (fun (_, q, _) => q.shapes.any fun s => s.layout.size.static == 128) (by decide +kernel)
  obtain ⟨accepted, measured, -⟩ := lowered?_eq_some done (by decide) (by decide)
  refine ⟨typed, q, r, done, large, fun s member => ?_⟩
  obtain ⟨x, takes, static, -⟩ := size_exact_iff accepted (Or.inr rfl) measured s member
  exact ⟨x, takes, static⟩

/-- Sixteen fields, fifteen levels deep, take `2 ^ 63` bytes, which no word holds: the size comes
out negative, and nobody objects. -/
theorem nestedFile_wraps : ∃ typed q r, lowered? (nestedFile 16 15) 1 .wide = some (typed, q, r) ∧
    r.problems = some [] ∧ ∃ s ∈ q.shapes, ∃ x,
      Takes .wide (Explicit.pass typed).structs s.type x ∧ s.layout.size.static.toInt ≠ x.bytes := by
  obtain ⟨typed, q, r, done, passed⟩ := @exists_lowered (nestedFile 16 15) 1 .wide
    (fun (_, q, r) => r.problems == some [] && q.shapes.any (·.layout.size.static.toInt < 0))
    (by decide +kernel)
  obtain ⟨accepted, measured, -⟩ := lowered?_eq_some done (by decide) (by decide)
  obtain ⟨formed, s, member, below⟩ : r.problems = some [] ∧
      ∃ s ∈ q.shapes, s.layout.size.static.toInt < 0 := by simpa using passed
  obtain ⟨depth, made⟩ := accepted.measured measured
  obtain ⟨x, takes, tells⟩ := made.inside.exact s member
  refine ⟨typed, q, r, done, formed, s, member, x, takes, fun same => ?_⟩
  have nonneg := takes.nonneg (show 0 ≤ Target.wide.pointerSize.toInt by decide)
  omega

end WitnessLang.Sized
