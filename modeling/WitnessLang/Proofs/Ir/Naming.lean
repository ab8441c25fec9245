import WitnessLang.Proofs.Explicit.Spelled
import WitnessLang.Proofs.Ir.Program
import WitnessLang.Proofs.Sized.Accepted
import WitnessLang.Proofs.Sized.Program
import WitnessLang.Proofs.Typed.Names

set_option autoImplicit false

namespace WitnessLang.Ir

open Explicit (WitnessSpelled Passable)
open Sized (Measure Context State)

/-- How the names of a program with explicit type arguments are taken up: types, functions and the
constructors for functions are definitions, and variables are declared; tags tell all of them apart, the
results of functions included. -/
structure Naming.Adopts (N : Naming) (T : Spelling) (results : Ident → Prop) : Prop where
  bound : ∀ i, T.bound i → N.declared i
  type : ∀ i, T.type i → N.defined i.mangled
  function : ∀ i, T.function i → N.defined i.mangled
  callable : ∀ n, N.defined (functionWitness n).mangled
  apart : ∀ i j, T.bound i ∨ results i → T.bound j ∨ results j → i.tag = j.tag → i = j

/-- What has been measured is named as it should be. -/
structure Named (N : Naming) (T : Spelling) (results : Ident → Prop) (s : State) : Prop where
  vars : ∀ e ∈ s.vars, e.2.name.tag = e.1 ∧ (T.bound e.2.name ∨ results e.2.name) ∧ N.Lays e.2.shape
  known : ∀ e ∈ s.known, N.Describes e.2.witness.constructors

theorem Naming.Adopts.describes {N : Naming} {T : Spelling} {results : Ident → Prop} (adopts : N.Adopts T results)
    {w : WitnessExpr} (spelled : WitnessSpelled T w) : N.Describes w.constructors := by
  intro i member
  rcases spelled i member with known | ⟨n, rfl⟩
  · exact adopts.type i known
  · exact adopts.callable n

section Layouts

variable {N : Naming} {T : Spelling} {results : Ident → Prop} {c : Context}

/-- A variable that is looked for is the one of that name. -/
theorem lookup_names (adopts : N.Adopts T results) (name : Ident) : Preserves (Named N T results) c (Sized.lookup name) fun v =>
    (T.bound name ∨ results name → v.name = name) ∧ N.Lays v.shape := by
  refine keeps_get_bind fun s named => ?_
  split
  · rename_i v found
    obtain ⟨tag, known, lays⟩ := named.vars _ (mem_of_lookup found)
    exact keeps_pure ⟨fun own => adopts.apart _ _ known own tag, lays⟩
  · exact preserves_throw

mutual

theorem witness_names (adopts : N.Adopts T results) : (w : WitnessExpr) →
    Preserves (Named N T results) c (Sized.witness w) fun w' => w'.constructors = w.constructors
  | .var name => by
    rw [Sized.witness]
    exact (lookup_names adopts name).bind fun v _ => keeps_pure rfl
  | .build constructor args => by
    rw [Sized.witness]
    refine (witnesses_names adopts args).bind fun args' same => keeps_pure ?_
    rw [WitnessExpr.constructors, WitnessExpr.constructors, same]

theorem witnesses_names (adopts : N.Adopts T results) : (ws : List WitnessExpr) →
    Preserves (Named N T results) c (Sized.witnesses ws) fun ws' =>
      WitnessExpr.constructorsAll ws' = WitnessExpr.constructorsAll ws
  | [] => keeps_pure rfl
  | w :: rest => by
    rw [Sized.witnesses]
    refine (witness_names adopts w).bind fun w' first => (witnesses_names adopts rest).bind fun rest' others => keeps_pure ?_
    rw [WitnessExpr.constructorsAll, WitnessExpr.constructorsAll, first, others]

end

/-- The description of a type of the program is built with definitions. -/
theorem typeWitness_names (adopts : N.Adopts T results) {t : Ty} (spelled : t.Spelled T) :
    Preserves (Named N T results) c (Sized.witness t.witnessExpr) fun w => N.Describes w.constructors :=
  (witness_names adopts _).imp fun _ same => same ▸ adopts.describes spelled.constructors

end Layouts

/-- A way to lay out types, of which all descriptions are built with definitions. -/
def LaysNamed (N : Naming) (T : Spelling) (results : Ident → Prop) (c : Context)
    (self : Ty → Measure Sized.Layout) : Prop :=
  ∀ t, Passable T t → Preserves (Named N T results) c (self t) fun l => N.Describes l.witness.constructors

theorem own_of_found {N : Naming} {T : Spelling} {results : Ident → Prop} (adopts : N.Adopts T results)
    {name : Ident} {v : Sized.Variable} (own : T.bound name)
    (found : (T.bound name ∨ results name → v.name = name) ∧ N.Lays v.shape) :
    N.declared v.name ∧ N.Lays v.shape := by
  rw [found.1 (Or.inl own)]
  exact ⟨adopts.bound name own, found.2⟩

section Types

variable {N : Naming} {T : Spelling} {results : Ident → Prop} {c : Context} {self : Ty → Measure Sized.Layout}

theorem fieldsLayout_names (lays : LaysNamed N T results c self) {ts : List Ty}
    (spelled : ∀ t ∈ ts, Passable T t) :
    Preserves (Named N T results) c (Sized.fieldsLayout self ts) fun _ => True := by
  have go : ∀ size plain, Preserves (Named N T results) c (Sized.fieldsLayout.go self size plain ts)
      fun _ => True := by
    induction ts with
    | nil => exact fun _ _ => keeps_pure trivial
    | cons t rest ih =>
      rw [List.forall_mem_cons] at spelled
      intro size plain
      rw [Sized.fieldsLayout.go]
      exact (lays t spelled.1).bind fun l _ => ih spelled.2 _ _
  exact go _ _

variable (adopts : N.Adopts T results) (structs : ∀ d ∈ c.structs, d.Spelled T)

include adopts structs

theorem structLayout_names (lays : LaysNamed N T results c self) {name : Ident} {args : List Ty}
    (own : (Ty.named name args).Spelled T) :
    Preserves (Named N T results) c (Sized.structLayout self name args) fun l =>
      N.Describes l.witness.constructors := by
  have parts := (Ty.spelled_named.mp own).2
  rw [Sized.structLayout]
  refine keeps_read_bind ?_
  dsimp only
  split
  · rename_i d found
    have declared := structs d (mem_of_findLast? found)
    split
    · exact preserves_throw_bind
    refine (fieldsLayout_names lays (List.forall_mem_map.mpr fun f field => (declared.fields f field).substitute
      fun e member => parts _ (List.of_mem_zip member).2)).bind fun sum _ => ?_
    have listed : ∀ l i, Named N T results l →
        Named N T results { l with instances := l.instances ++ [i] } := fun l i named => ⟨named.vars, named.known⟩
    split
    · refine keeps_pure_bind (keeps_modify_bind (fun s => listed s _) ?_)
      exact keeps_pure (List.forall_mem_nil _)
    · refine Keeps.bind (?_ : Preserves _ c _ fun w : Sized.Witness => N.Describes w.constructors) fun w built =>
        keeps_modify_bind (fun s => listed s _) (keeps_pure built)
      rw [map_eq_pure_bind]
      exact (typeWitness_names adopts own).bind fun w built => keeps_pure built
  · exact preserves_throw

theorem computeLayout_names (lays : LaysNamed N T results c self) :
    LaysNamed N T results c (Sized.computeLayout self) := by
  intro t passable
  cases t with
  | named name args =>
    rw [Sized.computeLayout]
    split
    · exact keeps_pure (List.forall_mem_nil _)
    split
    · exact keeps_read_bind (keeps_pure (List.forall_mem_nil _))
    rename_i other
    refine structLayout_names adopts structs lays (passable.resolve_right fun same => ?_)
    rw [Ty.witness, Ty.named.injEq] at same
    exact other (by rw [same.1])
  | generic name =>
    rw [Sized.computeLayout]
    exact (lookup_names adopts name).bind fun v _ => keeps_pure (List.forall_mem_nil _)
  | func args result =>
    rw [Sized.computeLayout]
    refine (typeWitness_names adopts (passable.resolve_right fun same => by cases same)).bind fun w built => ?_
    exact keeps_read_bind (keeps_pure built)
  | cell cell => exact preserves_throw

theorem layoutStep_names (lays : LaysNamed N T results c self) :
    LaysNamed N T results c (Sized.layoutStep self) := by
  intro t passable
  rw [Sized.layoutStep]
  refine keeps_get_bind fun s named => ?_
  dsimp only
  split
  · exact keeps_pure (named.known _ (mem_of_lookup ‹_›))
  split
  · exact preserves_throw_bind
  refine (Sized.keeps_whileOpen (fun s opened named => ⟨named.vars, named.known⟩)
    (computeLayout_names adopts structs lays t passable)).bind fun l built => ?_
  refine keeps_modify_bind (fun s named => ⟨named.vars, ?_⟩) (keeps_pure built)
  exact List.forall_mem_cons.mpr ⟨built, named.known⟩

theorem layoutWithin_names (n : Nat) : LaysNamed N T results c (Sized.layoutWithin n) := by
  induction n with
  | zero => exact fun t _ => preserves_throw
  | succ n ih => exact layoutStep_names adopts structs ih

theorem shapeOf_names {t : Ty} (passable : Passable T t) :
    Preserves (Named N T results) c (Sized.shapeOf t) N.Lays :=
  Keeps.bind (keeps_read_bind (layoutWithin_names adopts structs _ t passable)) fun _ built =>
    keeps_pure built

theorem define_names {name : Ident} (own : T.bound name ∨ results name) {t : Ty} (passable : Passable T t) :
    Preserves (Named N T results) c (Sized.define name t) fun v => v.name = name ∧ N.Lays v.shape := by
  refine keeps_get_bind fun s named => ?_
  split
  · rename_i v found
    obtain ⟨tag, known, lays⟩ := named.vars _ (mem_of_lookup found)
    exact keeps_pure ⟨adopts.apart _ _ known own tag, lays⟩
  · refine (shapeOf_names adopts structs passable).bind fun shape lays => ?_
    refine keeps_modify_bind (fun s named => ⟨?_, named.known⟩) (keeps_pure ⟨rfl, lays⟩)
    exact List.forall_mem_cons.mpr ⟨⟨rfl, own, lays⟩, named.vars⟩

end Types

section Expressions

variable {N : Naming} {T : Spelling} {results : Ident → Prop} {c : Context}

/-- Where names are taken up, and all structs are made of them. -/
structure Adopted (N : Naming) (T : Spelling) (results : Ident → Prop) (c : Context) : Prop where
  adopts : N.Adopts T results
  structs : ∀ d ∈ c.structs, d.Spelled T
  basic : Ty.float.Spelled T ∧ Ty.bool.Spelled T

theorem Adopted.shape (adopted : Adopted N T results c) {e : Explicit.Expr} (own : e.Spelled T) :
    Preserves (Named N T results) c (Sized.atSpan e.span (Sized.shapeOf e.type)) N.Lays :=
  Sized.atSpan_keeps (shapeOf_names adopted.adopts adopted.structs (Or.inl (own.type adopted.basic))) fun _ _ _ => id

mutual

theorem expr_names (adopted : Adopted N T results c) : (e : Explicit.Expr) → e.Spelled T →
    Preserves (Named N T results) c (Sized.expr e) N.Covers
  | .number span text bits, own => by
    rw [Sized.expr]
    exact (adopted.shape own).bind fun shape lays => keeps_pure lays
  | .bool span value, own => by
    rw [Sized.expr]
    exact (adopted.shape own).bind fun shape lays => keeps_pure lays
  | .var span type name, own => by
    rw [Sized.expr]
    refine (adopted.shape own).bind fun shape lays => ?_
    exact (lookup_names adopted.adopts name).bind fun v _ => keeps_pure lays
  | .callDirect span type function args ws, own => by
    rw [Sized.expr]
    refine (adopted.shape own).bind fun shape lays => ?_
    refine (exprs_names adopted args own.2.2.1).bind fun as all => ?_
    refine (witnesses_names adopted.adopts ws).bind fun ws' same => keeps_pure ?_
    refine ⟨lays, adopted.adopts.function _ own.2.1, all, ?_⟩
    rw [same, WitnessExpr.constructorsAll_eq_flatMap, Naming.Describes, List.forall_mem_flatMap]
    exact fun w member => adopted.adopts.describes (own.2.2.2 w member)
  | .callClosure span type callee args, own => by
    rw [Sized.expr]
    refine (adopted.shape own).bind fun shape lays => ?_
    refine (expr_names adopted callee own.2.1).bind fun f covers => ?_
    exact (exprs_names adopted args own.2.2).bind fun as all => keeps_pure ⟨lays, covers, all⟩
  | .primitive span op left right, own => by
    rw [Sized.expr]
    refine (adopted.shape own).bind fun shape lays => ?_
    refine (expr_names adopted left own.1).bind fun l first => ?_
    exact (expr_names adopted right own.2).bind fun r second => keeps_pure ⟨lays, first, second⟩
  | .block span bs result, own => by
    rw [Sized.expr]
    refine (adopted.shape own).bind fun shape lays => ?_
    refine (lets_names adopted bs own.1).bind fun bs' all => ?_
    exact (expr_names adopted result own.2).bind fun r last => keeps_pure ⟨lays, all, last⟩
  | .pack span name args fields, own => by
    rw [Sized.expr]
    refine (adopted.shape own).bind fun shape lays => ?_
    exact (packFields_names adopted fields own.2.2).bind fun fs all =>
      keeps_pure ⟨lays, adopted.adopts.type _ own.1, all⟩
  | .unpack span type value field, own => by
    rw [Sized.expr]
    refine (adopted.shape own).bind fun shape lays => ?_
    exact (expr_names adopted value own.2).bind fun v covers => keeps_pure ⟨lays, covers⟩
  | .cond span test yes no, own => by
    rw [Sized.expr]
    refine (adopted.shape own).bind fun shape lays => ?_
    refine (expr_names adopted test own.1).bind fun t first => ?_
    refine (expr_names adopted yes own.2.1).bind fun y second => ?_
    exact (expr_names adopted no own.2.2).bind fun n third => keeps_pure ⟨lays, first, second, third⟩
  | .closure span params generics captures env body, own => by
    rw [Sized.expr]
    refine (adopted.shape own).bind fun shape lays => ?_
    obtain ⟨ownP, ownG, ownC, ownE, ownB⟩ := own
    refine (Keeps.mapM _ fun g member => (lookup_names adopted.adopts g).imp fun v found =>
      own_of_found adopted.adopts (ownG g member) found).bind fun gs allG => ?_
    refine (Keeps.mapM _ fun x member => (lookup_names adopted.adopts x.name).imp fun v found =>
      own_of_found adopted.adopts (ownC x member) found).bind fun cs allC => ?_
    refine (Keeps.mapM _ fun p member => (define_names adopted.adopts adopted.structs (Or.inl (ownP p member).1)
      (Or.inl (ownP p member).2)).imp fun v found =>
        own_of_found adopted.adopts (ownP p member).1 ⟨fun _ => found.1, found.2⟩).bind fun ps allP => ?_
    refine keeps_read_bind ?_
    split
    · exact preserves_throw_bind
    refine (shapeOf_names adopted.adopts adopted.structs (Or.inl (Ty.spelled_named.mpr ⟨ownE, ?_⟩))).bind
      fun envShape laysE => ?_
    · exact List.forall_mem_map.mpr fun g member => Ty.spelled_generic.mpr (ownG g member)
    refine (expr_names adopted body ownB).bind fun e covers => keeps_pure ?_
    refine ⟨lays, laysE, adopted.adopts.type _ ownE, ?_, covers⟩
    rw [List.forall_mem_append, List.forall_mem_append]
    exact ⟨allP, allG, allC⟩

theorem exprs_names (adopted : Adopted N T results c) : (es : List Explicit.Expr) →
    Explicit.Expr.SpelledAll T es → Preserves (Named N T results) c (Sized.exprs es) N.CoversAll
  | [], _ => keeps_pure trivial
  | e :: rest, own => by
    rw [Sized.exprs]
    refine (expr_names adopted e own.1).bind fun e' first => ?_
    exact (exprs_names adopted rest own.2).bind fun es others => keeps_pure ⟨first, others⟩

theorem packFields_names (adopted : Adopted N T results c) : (fs : List Explicit.PackField) →
    Explicit.Expr.FieldsSpelled T fs → Preserves (Named N T results) c (Sized.packFields fs) N.CoversFields
  | [], _ => keeps_pure trivial
  | ⟨name, value⟩ :: rest, own => by
    rw [Sized.packFields]
    refine (expr_names adopted value own.1).bind fun e' first => ?_
    exact (packFields_names adopted rest own.2).bind fun es others => keeps_pure ⟨first, others⟩

theorem lets_names (adopted : Adopted N T results c) : (bs : List Explicit.Let) →
    Explicit.Expr.LetsSpelled T bs → Preserves (Named N T results) c (Sized.lets bs) N.CoversLets
  | [], _ => keeps_pure trivial
  | ⟨name, type, value⟩ :: rest, own => by
    rw [Sized.lets]
    refine (expr_names adopted value own.2.1).bind fun e' first => ?_
    refine (Sized.atSpan_keeps (define_names adopted.adopts adopted.structs (Or.inl own.1.1) (Or.inl own.1.2)) fun _ _ _ => id).bind
      fun v found => ?_
    refine (lets_names adopted rest own.2.2).bind fun bs others => keeps_pure ⟨?_, first, others⟩
    exact own_of_found adopted.adopts own.1.1 ⟨fun _ => found.1, found.2⟩

end

end Expressions

section Definitions

variable {N : Naming} {T : Spelling} {results : Ident → Prop} {c : Context}

theorem struct_names (adopted : Adopted N T results c) {d : Explicit.Struct} (own : d.Spelled T)
    {builder : Option Explicit.Builder} (built : ∀ b, builder = some b → ∀ g ∈ b.arguments, T.bound g) :
    Preserves (Named N T results) c (Sized.struct d builder) fun s => ∀ f ∈ s.fields, N.Lays f.shape := by
  cases builder with
  | none => exact preserves_throw
  | some b =>
    by_cases fits : b.fields.length = d.fields.length
    case neg =>
      obtain ⟨message, same⟩ := Sized.struct_unfit fits
      rw [same]
      exact preserves_throw
    rw [Sized.struct_eq fits]
    refine (Keeps.mapM (fun v => N.Lays v.shape) fun g member => (define_names adopted.adopts adopted.structs
      (Or.inl (built b rfl g member)) (Or.inr rfl)).imp fun _ => And.right).bind fun vs _ => ?_
    have field : ∀ f ∈ d.fields, Preserves (Named N T results) c (do
        return Sized.Field.mk f.name (← Sized.atSpan d.span (Sized.shapeOf f.type))) fun f' => N.Lays f'.shape :=
      fun f member => (Sized.atSpan_keeps (shapeOf_names adopted.adopts adopted.structs (own.fields f member)) fun _ _ _ => id).bind
        fun shape lays => keeps_pure lays
    exact (Keeps.mapM _ field).bind fun fs all => keeps_pure all

/-- A measured function with names as they should be: its result comes first and is never declared. -/
structure Naming.NamesFunction (N : Naming) (f : Sized.Function) : Prop where
  arguments : ∃ result rest, f.arguments = result :: rest ∧ result.var.name.mangled = "_result" ∧
    N.Lays result.var.shape ∧ ∀ a ∈ rest, N.declared a.var.name ∧ N.Lays a.var.shape
  body : N.Covers f.body

theorem function_names (adopted : Adopted N T results c) {f : Explicit.Function} (own : f.Spelled T results) :
    Preserves (Named N T results) c (Sized.function f) N.NamesFunction := by
  obtain ⟨-, ⟨result, rest, arguments, ownR, global, name, type, others⟩, body⟩ := own
  have each : ∀ a ∈ f.arguments, (T.bound a.name ∨ results a.name) ∧ Passable T a.type := by
    rw [arguments, List.forall_mem_cons]
    exact ⟨⟨Or.inr ownR, Or.inl type⟩, fun a member => ⟨Or.inl (others a member).1, (others a member).2⟩⟩
  have argument : ∀ a : Explicit.Argument, T.bound a.name ∨ results a.name →
      Preserves (Named N T results) c (do return Sized.Argument.mk (← Sized.lookup a.name) a.convention)
        fun b => b.var.name = a.name ∧ N.Lays b.var.shape := fun a known =>
    (lookup_names adopted.adopts a.name).bind fun v found => keeps_pure ⟨found.1 known, found.2⟩
  have passed : ∀ a ∈ rest, Preserves (Named N T results) c
      (do return Sized.Argument.mk (← Sized.lookup a.name) a.convention)
        fun b => N.declared b.var.name ∧ N.Lays b.var.shape := fun a member =>
    (argument a (Or.inl (others a member).1)).imp fun b found =>
      ⟨found.1 ▸ adopted.adopts.bound _ (others a member).1, found.2⟩
  rw [Sized.function]
  dsimp only
  refine (Keeps.mapM (fun v => N.Lays v.shape) fun a member => Sized.atSpan_keeps ?_ fun _ _ _ => id).bind fun vs _ => ?_
  · have known : a ∈ f.arguments := by
      rw [List.partition_eq_filter_filter, List.mem_append, List.mem_filter, List.mem_filter] at member
      exact member.elim And.left And.left
    exact (define_names adopted.adopts adopted.structs (each a known).1 (each a known).2).imp fun _ => And.right
  rw [arguments, List.mapM_cons]
  refine Keeps.bind (show Preserves _ c _ fun as : List Sized.Argument => ∃ r rest', as = r :: rest' ∧
      r.var.name.mangled = "_result" ∧ N.Lays r.var.shape ∧ ∀ a ∈ rest', N.declared a.var.name ∧ N.Lays a.var.shape
      from (argument result (Or.inr ownR)).bind fun r found => (Keeps.mapM _ passed).bind fun rest' all =>
        keeps_pure ⟨r, rest', rfl, ?_, found.2, all⟩) fun as shape => ?_
  · rw [found.1, mangled_of_global global, name]
  · exact (expr_names adopted f.body body).bind fun e covers => keeps_pure ⟨shape, covers⟩

/-- A measured program is made of definitions and declared variables. -/
theorem covers_of_measured {arity : Arity} {p : Explicit.Program} {declared environments : List Explicit.Struct}
    {target : Target} {depth : Nat} {q : Sized.Program} (adopts : N.Adopts T results)
    (basic : Ty.float.Spelled T ∧ Ty.bool.Spelled T) (inside : p.Scoped arity declared environments)
    (own : p.Spelled T results) (done : Sized.measureWithin depth p target = .ok q) :
    N.CoversProgram ⟨target, p.structs, depth⟩ q := by
  have gives := Sized.measureWithin_gives target depth inside
  rw [done] at gives
  have measured : Sized.Program.Measured ⟨target, p.structs, depth⟩ p q := gives
  rw [Sized.measureWithin] at done
  dsimp only at done
  rw [Except.bind_eq_ok] at done
  obtain ⟨⟨structs, s₁⟩, first, done⟩ := done
  rw [Except.bind_eq_ok] at done
  obtain ⟨⟨functions, s₂⟩, second, done⟩ := done
  obtain rfl := Except.ok.inj done
  have adopted : Adopted N T results ⟨target, p.structs, depth⟩ := ⟨adopts, own.structs, basic⟩
  have built : ∀ d : Explicit.Struct, ∀ b, p.builder? d.name.tag = some b → ∀ g ∈ b.arguments, T.bound g := by
    intro d b found
    obtain ⟨d', known, rfl⟩ := List.mem_map.mp (inside.builders ▸ mem_of_findLast? found)
    exact (own.structs d' known).generics
  obtain ⟨allS, named⟩ := Sized.eachDefinition_keeps (fun d member => struct_names adopted (own.structs d member) (built d))
    (Named.mk (List.forall_mem_nil _) (List.forall_mem_nil _)) first
  obtain ⟨allF, -⟩ := Sized.eachDefinition_keeps (fun f member => function_names adopted (own.functions f member))
    named second
  refine ⟨fun s member => ⟨measured.inside.structs s member, ?_, ?_⟩, fun f member => ?_⟩
  · obtain ⟨d, known, made⟩ := exists_of_forall₂ measured.structs s member
    rw [made.arguments]
    rw [inside.structs] at known
    rcases List.mem_append.mp known with declared | added
    · exact (inside.own d declared).once
    · obtain ⟨⟨gs, cs, shape, enclosed, -⟩, -⟩ := inside.made d added
      rw [shape]
      exact enclosed.once
  · obtain ⟨d, -, lays⟩ := exists_of_forall₂ allS s member
    exact lays
  · obtain ⟨result, params, generics, scope⟩ := measured.inside.functions f member
    obtain ⟨g, -, ⟨first, others, arguments, name, lays, known⟩, body⟩ := exists_of_forall₂ allF f member
    have same := scope.arguments.symm.trans arguments
    rw [List.cons_append, List.cons.injEq] at same
    obtain ⟨rfl, rfl⟩ := same
    refine ⟨result, params, generics, scope, ⟨name, lays⟩, ?_, body⟩
    rw [List.forall_mem_append, List.forall_mem_map, List.forall_mem_map] at known
    exact List.forall_mem_append.mpr known

end Definitions

/-- The names of a program with explicit type arguments, in which some variables are declared and some are
made up. -/
def spellingOf (bound made : Ident → Prop) (p : Typed.Program) : Spelling where
  bound i := bound i ∨ made i ∧ i.name ≠ "_result"
  type i := Ty.named i [] = Ty.float ∨ Ty.named i [] = Ty.bool ∨ ∃ d ∈ (Explicit.pass p).structs, d.name = i
  function i := ∃ f ∈ p.functions, f.name = i

/-- Types, functions and the constructors for functions are definitions, and variables are declared. -/
def namingOf (T : Spelling) : Naming where
  defined name := (∃ i, (T.type i ∨ T.function i) ∧ i.mangled = name) ∨ ∃ n, (functionWitness n).mangled = name
  declared := T.bound

section Names

variable {S : Spelling} {unit : Nat} {made : Ident → Prop} {typed : Typed.Program}

/-- Neither of two names is declared where the other one is made up. -/
theorem unit_ne (proper : S.Proper unit) (foreign : unit ≠ Tag.syntheticUnit) (fabricated : Explicit.Fabricated made)
    {i j : Ident} (own : S.bound i ∨ S.type i ∨ S.function i) (new : made j) : i.tag ≠ j.tag := by
  intro same
  have synthetic : i.tag.unit = Tag.syntheticUnit := by rw [same, (fabricated.each j new).2.1]
  rcases own with own | own | own
  · exact foreign ((proper.bound i own).2.1.symm.trans synthetic)
  · rcases (proper.type i own).2 with unit | basic | basic
    · exact foreign (unit.symm.trans synthetic)
    · rw [(Ty.named.inj basic).1] at synthetic
      cases synthetic
    · rw [(Ty.named.inj basic).1] at synthetic
      cases synthetic
  · exact foreign ((proper.function i own).2.symm.trans synthetic)

/-- The name of a variable that is declared, or of one that is made up. -/
theorem mangled_of_bound (typed : Typed.Program) (proper : S.Proper unit) (own : unit ≠ Tag.builtinUnit)
    (fabricated : Explicit.Fabricated made) {i : Ident} (bound : (spellingOf S.bound made typed).bound i) :
    (S.bound i ∧ i.name ≠ "" ∧ i.mangled = i.name ++ "_" ++ toString i.tag.key) ∨
      made i ∧ i.name ≠ "_result" ∧ ∃ n, i.mangled = Explicit.pieceName n := by
  rcases bound with declared | ⟨new, other⟩
  · obtain ⟨inner, unit, named⟩ := proper.bound i declared
    refine Or.inl ⟨declared, named, mangled_of_local inner ?_⟩
    rw [Tag.isBuiltin, unit, beq_eq_false_iff_ne]
    exact own
  · obtain ⟨global, -, kind⟩ := fabricated.each i new
    obtain ⟨n, same⟩ := kind.resolve_left other
    exact Or.inr ⟨new, other, n, by rw [mangled_of_global global, same]⟩

/-- The name of a declared variable is that of no temporary. -/
theorem local_ne_piece (name : String) (k n : Nat) : name ++ "_" ++ toString k ≠ Explicit.pieceName n := by
  intro same
  have front := ((numbered_eq (stem_underscore name) (by simp [Stem])).mp same).1
  simpa using congrArg (·.toList.getLast?) front

/-- Variables of accepted programs are told apart by their names in generated code. -/
theorem apart_of_proper (proper : S.Proper unit) (own : unit ≠ Tag.builtinUnit)
    (fabricated : Explicit.Fabricated made) : (namingOf (spellingOf S.bound made typed)).Apart := by
  refine ⟨fun i j first second same => ?_, fun i k declared same => ?_, fun i declared same => ?_,
    fun i declared same => ?_⟩
  · rcases mangled_of_bound typed proper own fabricated first with ⟨boundI, -, nameI⟩ | ⟨newI, otherI, m, nameI⟩ <;>
      rcases mangled_of_bound typed proper own fabricated second with ⟨boundJ, -, nameJ⟩ | ⟨newJ, otherJ, n, nameJ⟩
    · have keys := ((numbered_eq (stem_underscore _) (stem_underscore _)).mp (nameI.symm.trans (same.trans nameJ))).2
      have parts : ∀ t : Tag, t = ⟨t.unit, t.key⟩ := fun _ => rfl
      rw [parts i.tag, parts j.tag, (proper.bound i boundI).2.1, (proper.bound j boundJ).2.1, keys]
    · exact absurd (nameI.symm.trans (same.trans nameJ)) (local_ne_piece _ _ _)
    · exact absurd (nameJ.symm.trans (same.symm.trans nameI)) (local_ne_piece _ _ _)
    · have global := (fabricated.each i newI).1
      have global' := (fabricated.each j newJ).1
      rw [mangled_of_global global, mangled_of_global global'] at same
      rw [fabricated.once i j newI newJ (Or.inr ⟨same, otherI⟩)]
  · rcases mangled_of_bound typed proper own fabricated declared with ⟨-, named, name⟩ | ⟨-, -, n, name⟩
    · have front := ((numbered_eq (stem_underscore _) (by simp [Stem])).mp (name.symm.trans same)).1
      exact named ((String.append_left_inj "_").mp (front.trans (String.empty_append).symm))
    · have front := ((numbered_eq (by simp [Stem]) (by simp [Stem])).mp (name.symm.trans same)).1
      exact absurd front (by decide)
  · rcases mangled_of_bound typed proper own fabricated declared with ⟨-, -, name⟩ | ⟨-, -, n, name⟩
    · exact numbered_ne (by simp [Stem]) _ (name.symm.trans same)
    · exact numbered_ne (by simp [Stem]) _ (name.symm.trans same)
  · rcases mangled_of_bound typed proper own fabricated declared with ⟨-, -, name⟩ | ⟨-, -, n, name⟩
    · exact numbered_ne (by simp [Stem]) _ (name.symm.trans same)
    · exact numbered_ne (by simp [Stem]) _ (name.symm.trans same)

/-- All names of accepted programs are taken up. -/
theorem adopts_of_proper (proper : S.Proper unit) (foreign : unit ≠ Tag.syntheticUnit)
    (fabricated : Explicit.Fabricated made) :
    (namingOf (spellingOf S.bound made typed)).Adopts (spellingOf S.bound made typed) made := by
  refine ⟨fun _ => id, fun i known => Or.inl ⟨i, Or.inl known, rfl⟩, fun i known => Or.inl ⟨i, Or.inr known, rfl⟩,
    fun n => Or.inr ⟨n, rfl⟩, fun i j first second same => ?_⟩
  have split : ∀ i, (spellingOf S.bound made typed).bound i ∨ made i → S.bound i ∨ made i := by
    rintro i ((declared | ⟨new, -⟩) | new)
    · exact Or.inl declared
    · exact Or.inr new
    · exact Or.inr new
  rcases split i first with boundI | newI <;> rcases split j second with boundJ | newJ
  · exact proper.apart i j (Or.inl boundI) (Or.inl boundJ) same
  · exact absurd same (unit_ne proper foreign fabricated (Or.inl boundI) newJ)
  · exact absurd same.symm (unit_ne proper foreign fabricated (Or.inl boundJ) newI)
  · exact fabricated.once i j newI newJ (Or.inl same)

/-- The names in types are told apart by their tags, that of descriptions included. -/
theorem types_apart {arity : Arity} {declared environments : List Explicit.Struct}
    (inside : (Explicit.pass typed).Scoped arity declared environments) {bound : Ident → Prop} : ∀ i j,
      Ty.named i [] = Ty.witness ∨ (spellingOf bound made typed).type i →
      Ty.named j [] = Ty.witness ∨ (spellingOf bound made typed).type j → i.tag = j.tag → i = j := by
  have basic : ∀ i, Ty.named i [] = Ty.witness ∨ (spellingOf bound made typed).type i →
      (i.tag.isBuiltin = true ∧ (Ty.named i [] = Ty.witness ∨ Ty.named i [] = Ty.float ∨ Ty.named i [] = Ty.bool)) ∨
      ∃ d ∈ (Explicit.pass typed).structs, d.name = i := by
    rintro i (same | same | same | own)
    · exact Or.inl ⟨by rw [(Ty.named.inj same).1]; rfl, Or.inl same⟩
    · exact Or.inl ⟨by rw [(Ty.named.inj same).1]; rfl, Or.inr (Or.inl same)⟩
    · exact Or.inl ⟨by rw [(Ty.named.inj same).1]; rfl, Or.inr (Or.inr same)⟩
    · exact Or.inr own
  intro i j first second same
  rcases basic i first with ⟨builtin, kindI⟩ | ⟨d, memberD, rfl⟩ <;>
    rcases basic j second with ⟨builtin', kindJ⟩ | ⟨e, memberE, rfl⟩
  · rcases kindI with own | own | own <;> rcases kindJ with other | other | other <;>
      rw [(Ty.named.inj own).1, (Ty.named.inj other).1] at same ⊢ <;> cases same
  · rw [same, inside.proper e memberE] at builtin
    cases builtin
  · rw [← same, inside.proper d memberD] at builtin'
    cases builtin'
  · rw [List.inj_on_of_nodup_map inside.tags memberD memberE same]

end Names

section Accepted

variable {file : Surface.File} {names : List String} {unit : Nat} {typed : Typed.Program}

/-- The names that a program is lowered with. -/
structure Lowerable (typed : Typed.Program) (N : Naming) : Prop where
  apart : N.Apart
  defined : ∀ name, N.defined name → name = "F64" ∨ name = "Bool" ∨ (∃ n, name = (functionWitness n).mangled) ∨
    (∃ d ∈ (Explicit.pass typed).structs, d.name.mangled = name) ∨ ∃ f ∈ typed.functions, f.name.mangled = name
  covers : ∀ target depth q, Sized.measureWithin depth (Explicit.pass typed) target = .ok q →
    N.CoversProgram ⟨target, (Explicit.pass typed).structs, depth⟩ q

/-- The names of a program, in front of the stage that makes type arguments explicit and behind it. -/
structure Spells (typed : Typed.Program) (T : Spelling) (made : Ident → Prop) : Prop where
  source : typed.Spelled T
  passed : (Explicit.pass typed).Spelled T made
  basic : Ty.float.Spelled T ∧ Ty.bool.Spelled T
  adopts : (namingOf T).Adopts T made
  apart : (namingOf T).Apart

/-- All names of an accepted program are known, and tell apart what has to be told apart. -/
theorem spells_of_accepted (accepted : Sized.Accepted file names unit typed) (named : file.Named) :
    ∃ bound made, Spells typed (spellingOf bound made typed) made := by
  obtain ⟨environments, inside⟩ := accepted.explicit
  obtain ⟨p, table, resolved, checked⟩ := accepted.checked
  obtain ⟨spelled, proper⟩ := Resolved.resolve_spelled accepted.own named resolved
  have spelled := spelled _ (Spelling.Within.refl _)
  obtain ⟨made, fabricated, -, passes⟩ := Explicit.pass_spelled typed
  obtain ⟨structs, functions⟩ := Typed.check_names checked
  let S := table.spelling
  let T := spellingOf S.bound made typed
  have basic : Ty.float.Spelled T ∧ Ty.bool.Spelled T :=
    ⟨Ty.spelled_named.mpr ⟨Or.inl rfl, List.forall_mem_nil _⟩,
      Ty.spelled_named.mpr ⟨Or.inr (Or.inl rfl), List.forall_mem_nil _⟩⟩
  have finds : Typed.Finds S T (fun tag => ∃ s ∈ p.structs, s.name.tag = tag) := by
    refine ⟨fun i => Or.inl, fun i type known => ?_, basic, fun i j own bound same => ?_⟩
    · rcases known with built | ⟨s, member, same⟩
      · rcases (proper.type i type).2 with unit | float | bool
        · rw [Tag.isBuiltin, unit, beq_iff_eq] at built
          exact absurd built accepted.own
        · exact Or.inl float
        · exact Or.inr (Or.inl bool)
      · obtain rfl := proper.apart _ _ (Or.inr (Or.inl (spelled.structs s member).name)) (Or.inr (Or.inl type)) same
        have kept : s.name ∈ typed.structs.map (·.name) := structs ▸ List.mem_map_of_mem member
        obtain ⟨d, declared, name⟩ := List.mem_map.mp kept
        refine Or.inr (Or.inr ⟨Explicit.structOf d, ?_, name⟩)
        rw [inside.structs]
        exact List.mem_append_left _ (List.mem_map_of_mem declared)
    · rcases bound with declared | ⟨new, -⟩
      · exact proper.apart i j (own.imp_right Or.inr) (Or.inl declared) same
      · exact absurd same (unit_ne proper accepted.foreign fabricated (own.imp_right Or.inr) new)
  have known : ∀ f ∈ p.functions, T.function f.name := fun f member => by
    have kept : f.name ∈ typed.functions.map (·.name) := functions ▸ List.mem_map_of_mem member
    exact List.mem_map.mp kept
  have own := Typed.check_spelled finds spelled (fun s member => ⟨s, member, rfl⟩) known checked
  have whole := passes T own basic ⟨fun i new other => Or.inr ⟨new, other⟩, fun d member => Or.inr (Or.inr ⟨d, member, rfl⟩)⟩
  exact ⟨S.bound, made, own, whole, basic, adopts_of_proper proper accepted.foreign fabricated,
    apart_of_proper proper accepted.own fabricated⟩

/-- The names of accepted programs tell apart what has to be told apart. -/
theorem lowerable_of_accepted (accepted : Sized.Accepted file names unit typed) (named : file.Named) :
    ∃ N, Lowerable typed N := by
  obtain ⟨environments, inside⟩ := accepted.explicit
  obtain ⟨bound, made, spells⟩ := spells_of_accepted accepted named
  refine ⟨namingOf (spellingOf bound made typed), spells.apart, fun name defined => ?_, fun target depth q done => ?_⟩
  · rcases defined with ⟨i, (type | ⟨f, member, rfl⟩), rfl⟩ | ⟨n, rfl⟩
    · rcases type with float | bool | ⟨d, member, rfl⟩
      · rw [(Ty.named.inj float).1]
        exact Or.inl rfl
      · rw [(Ty.named.inj bool).1]
        exact Or.inr (Or.inl rfl)
      · exact Or.inr (Or.inr (Or.inr (Or.inl ⟨d, member, rfl⟩)))
    · exact Or.inr (Or.inr (Or.inr (Or.inr ⟨f, member, rfl⟩)))
    · exact Or.inr (Or.inr (Or.inl ⟨n, rfl⟩))
  · exact covers_of_measured spells.adopts spells.basic inside spells.passed done

end Accepted

end WitnessLang.Ir
