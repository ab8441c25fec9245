import WitnessLang.Proofs.Explicit.Calls
import WitnessLang.Proofs.Explicit.Spelled
import WitnessLang.Proofs.Meaning.Semantics
import WitnessLang.Proofs.Sized.Program

set_option autoImplicit false

namespace WitnessLang

namespace Explicit

open Typed (Env)

/-- The structs of a program with the numbers of their type parameters. -/
def structTable (ds : List Struct) : List (Ident × Nat) := ds.map fun d => (d.name, d.generics.length)

mutual

/-- The variables that are bound in an expression, with their types. -/
def Expr.bindings : Expr → Env
  | .var _ _ _ | .number _ _ _ | .bool _ _ => []
  | .callDirect _ _ _ args _ => bindingsAll args
  | .callClosure _ _ callee args => callee.bindings ++ bindingsAll args
  | .primitive _ _ left right => left.bindings ++ right.bindings
  | .block _ lets result => letBindings lets ++ result.bindings
  | .pack _ _ _ fields => fieldBindings fields
  | .unpack _ _ value _ => value.bindings
  | .cond _ test yes no => test.bindings ++ (yes.bindings ++ no.bindings)
  | .closure _ params _ _ _ body => argumentEnv params ++ body.bindings

def Expr.bindingsAll : List Expr → Env
  | [] => []
  | e :: rest => e.bindings ++ bindingsAll rest

def Expr.fieldBindings : List PackField → Env
  | [] => []
  | ⟨_, value⟩ :: rest => value.bindings ++ fieldBindings rest

def Expr.letBindings : List Let → Env
  | [] => []
  | ⟨name, type, value⟩ :: rest => value.bindings ++ (name.tag, type) :: letBindings rest

end

mutual

theorem map_bindings : (e : Expr) → e.bindings.map (·.1) = e.binders
  | .var _ _ _ | .number _ _ _ | .bool _ _ => rfl
  | .callDirect _ _ _ args _ => map_bindingsAll args
  | .callClosure _ _ callee args => by
    rw [Expr.bindings, Expr.binders, List.map_append, map_bindings callee, map_bindingsAll args]
  | .primitive _ _ left right => by
    rw [Expr.bindings, Expr.binders, List.map_append, map_bindings left, map_bindings right]
  | .block _ lets result => by
    rw [Expr.bindings, Expr.binders, List.map_append, map_letBindings lets, map_bindings result]
  | .pack _ _ _ fields => map_fieldBindings fields
  | .unpack _ _ value _ => map_bindings value
  | .cond _ test yes no => by
    rw [Expr.bindings, Expr.binders, List.map_append, List.map_append, map_bindings test, map_bindings yes,
      map_bindings no]
  | .closure _ params _ _ _ body => by
    rw [Expr.bindings, Expr.binders, List.map_append, map_bindings body, argumentEnv, List.map_map]
    rfl

theorem map_bindingsAll : (es : List Expr) → (Expr.bindingsAll es).map (·.1) = Expr.bindersAll es
  | [] => rfl
  | e :: rest => by
    rw [Expr.bindingsAll, Expr.bindersAll, List.map_append, map_bindings e, map_bindingsAll rest]

theorem map_fieldBindings : (fs : List PackField) → (Expr.fieldBindings fs).map (·.1) = Expr.fieldBinders fs
  | [] => rfl
  | ⟨_, value⟩ :: rest => by
    rw [Expr.fieldBindings, Expr.fieldBinders, List.map_append, map_bindings value, map_fieldBindings rest]

theorem map_letBindings : (bs : List Let) → (Expr.letBindings bs).map (·.1) = Expr.letBinders bs
  | [] => rfl
  | ⟨_, _, value⟩ :: rest => by
    rw [Expr.letBindings, Expr.letBinders, List.map_append, List.map_cons, map_bindings value, map_letBindings rest]

end

/-- The variables of a function that hold values, with their types. -/
def Function.bindings (f : Function) : Env :=
  argumentEnv (f.arguments.filter (!Sized.isWitnessType ·.type)) ++ f.body.bindings

theorem Function.map_bindings (f : Function) : f.bindings.map (·.1) = f.variables := by
  rw [Function.bindings, List.map_append, Explicit.map_bindings, argumentEnv, List.map_map]
  rfl

/-- Behind bindings there are the variables from before, and those that are bound. -/
theorem forall_letEnv {P : Tag × Ty → Prop} {bs : List Let} {vars : Env} (bound : ∀ b ∈ Expr.letBindings bs, P b)
    (before : ∀ v ∈ vars, P v) : ∀ v ∈ letEnv bs vars, P v := by
  induction bs generalizing vars with
  | nil => exact before
  | cons b rest ih =>
    obtain ⟨name, type, value⟩ := b
    rw [Expr.letBindings, List.forall_mem_append, List.forall_mem_cons] at bound
    exact ih bound.2.2 (List.forall_mem_cons.mpr ⟨bound.2.1, before⟩)

end Explicit

namespace Sized

open Explicit (tagsOf argumentEnv captureEnv environment structTable)

mutual

/-- An expression and all expressions inside it. -/
def Expr.parts (e : Expr) : List Expr :=
  e :: match e with
    | .var _ _ | .number _ _ _ | .bool _ _ => []
    | .callDirect _ _ args _ => partsAll args
    | .callClosure _ callee args => callee.parts ++ partsAll args
    | .primitive _ _ left right => left.parts ++ right.parts
    | .block _ lets result => letParts lets ++ result.parts
    | .pack _ _ fields => fieldParts fields
    | .unpack _ value _ => value.parts
    | .cond _ test yes no => test.parts ++ (yes.parts ++ no.parts)
    | .closure _ _ _ _ _ _ body => body.parts

def Expr.partsAll : List Expr → List Expr
  | [] => []
  | e :: rest => e.parts ++ partsAll rest

def Expr.fieldParts : List PackField → List Expr
  | [] => []
  | ⟨_, value⟩ :: rest => value.parts ++ fieldParts rest

def Expr.letParts : List Let → List Expr
  | [] => []
  | ⟨_, value⟩ :: rest => value.parts ++ letParts rest

end

theorem Expr.mem_parts (e : Expr) : e ∈ e.parts := by
  cases e <;> exact List.mem_cons_self

def Expr.call? : Expr → Option (Call WitnessExpr)
  | .callDirect shape function args witnesses => some ⟨function, args.map (·.shape.type), witnesses, shape.type⟩
  | _ => none

/-- The calls of functions in an expression, those inside closures included. -/
def Expr.calls (e : Expr) : List (Call WitnessExpr) := e.parts.filterMap Expr.call?

/-- The variables that an expression itself binds or takes along. -/
def Expr.ownVariables : Expr → List Variable
  | .block _ lets _ => lets.map (·.var)
  | .closure _ params generics captures _ _ _ => params ++ (generics ++ captures)
  | _ => []

/-- What is known of the values that an expression itself deals with. -/
def Expr.ownShapes : Expr → List Shape
  | .block shape lets _ => shape :: lets.map (·.var.shape)
  | .closure shape params generics captures _ envShape _ =>
    shape :: envShape :: (params ++ (generics ++ captures)).map (·.shape)
  | e => [e.shape]

def Variable.typed (v : Variable) : Ident × Ty := (v.name, v.shape.type)

def Function.callable (f : Function) : Callable :=
  ⟨f.name, f.arguments.map fun a => ⟨a.var.name, a.var.shape.type, a.convention⟩, f.body.calls⟩

/-- A layout whose description is built as its constructors ask for. -/
def Layout.Built (structs : List (Ident × Nat)) (l : Layout) : Prop := ∀ w, l.witness = .dynamic w → w.Built structs

/-- The names of the variables of a program, the types that go with their tags, and the names in types. -/
structure Roster where
  named : Ident → Prop
  typed : Tag → Ty → Prop
  spelling : Spelling

/-- Tags tell all names of variables apart, those of type parameters included, and all names of types; no tag goes
with two types. -/
structure Roster.Apart (R : Roster) : Prop where
  names : ∀ i j, R.named i → R.named j → i.tag = j.tag → i = j
  types : ∀ tag t u, R.typed tag t → R.typed tag u → t = u
  parameters : ∀ i, R.spelling.bound i → R.named i
  constructors : ∀ i j, Ty.named i [] = Ty.witness ∨ R.spelling.type i → Ty.named j [] = Ty.witness ∨ R.spelling.type j →
    i.tag = j.tag → i = j

/-- A type of the program, or that of descriptions, whose type parameters have descriptions. -/
structure Roster.Knows (R : Roster) (c : Context) (own : List Tag) (t : Ty) : Prop where
  formed : t.Formed c.arity own []
  passable : Explicit.Passable R.spelling t
  described : ∀ tag ∈ own, R.typed tag Ty.witness

/-- A layout whose description is that of the type, built as its constructors ask for. -/
structure Layout.Describes (structs : List (Ident × Nat)) (t : Ty) (l : Layout) : Prop where
  built : l.Built structs
  description : ∀ w, l.witness = .dynamic w → w = t.witnessExpr

/-- What is known of the values of a type of the program, with the description of this type. -/
structure Roster.Describes (R : Roster) (c : Context) (s : Shape) : Prop where
  knows : ∃ own, R.Knows c own s.type
  layout : s.layout.Describes (structTable c.structs) s.type

/-- A variable with one of the names, and the type that goes with it. -/
structure Roster.Lists (R : Roster) (c : Context) (v : Variable) : Prop where
  named : R.named v.name
  typed : R.typed v.name.tag v.shape.type
  describes : R.Describes c v.shape

/-- A closure takes along the descriptions and the variables that its environment holds, in their order and
each of them once. -/
def Expr.Encloses (structs : List Explicit.Struct) : Expr → Prop
  | .closure _ _ generics captures env _ _ => (∃ span gs cs, environment span env gs cs ∈ structs ∧
      generics.map (·.typed) = gs.map (·, Ty.witness) ∧ captures.map (·.typed) = cs.map fun c => (c.name, c.type)) ∧
      (variableTags (generics ++ captures)).Nodup
  | _ => True

/-- An expression that hangs together with the structs and the variables of the program. -/
structure Expr.Sound (R : Roster) (c : Context) (e : Expr) : Prop where
  describes : ∀ s ∈ e.ownShapes, R.Describes c s
  listed : ∀ v ∈ e.ownVariables, R.Lists c v
  encloses : e.Encloses c.structs

section Of

variable (R : Roster) (c : Context)

structure Shape.Of (t : Ty) (s : Shape) : Prop where
  type : s.type = t
  describes : R.Describes c s

structure Variable.Of (name : Ident) (t : Ty) (v : Variable) : Prop where
  typed : v.typed = (name, t)
  describes : R.Describes c v.shape

mutual

/-- A measured expression is what it was, together with what is known of its values. -/
inductive Expr.Of : Explicit.Expr → Expr → Prop
  | var {span t name s} (shape : s.Of R c t) : Expr.Of (.var span t name) (.var s name)
  | number {span text bits s} (shape : s.Of R c Ty.float) : Expr.Of (.number span text bits) (.number s text bits)
  | bool {span value s} (shape : s.Of R c Ty.bool) : Expr.Of (.bool span value) (.bool s value)
  | callDirect {span t function es as ws s} (shape : s.Of R c t) (args : List.Forall₂ Expr.Of es as) :
      Expr.Of (.callDirect span t function es ws) (.callDirect s function as ws)
  | callClosure {span t e a es as s} (shape : s.Of R c t) (callee : Expr.Of e a) (args : List.Forall₂ Expr.Of es as) :
      Expr.Of (.callClosure span t e es) (.callClosure s a as)
  | primitive {span op l l' r r' s} (shape : s.Of R c (Explicit.Expr.primitive span op l r).type) (left : Expr.Of l l')
      (right : Expr.Of r r') : Expr.Of (.primitive span op l r) (.primitive s op l' r')
  | block {span bs bs' e e' s} (shape : s.Of R c e.type) (lets : List.Forall₂ Let.Of bs bs') (result : Expr.Of e e') :
      Expr.Of (.block span bs e) (.block s bs' e')
  | pack {span name ts fs fs' s} (shape : s.Of R c (.named name ts)) (fields : List.Forall₂ PackField.Of fs fs') :
      Expr.Of (.pack span name ts fs) (.pack s name fs')
  | unpack {span t e e' field s} (shape : s.Of R c t) (value : Expr.Of e e') :
      Expr.Of (.unpack span t e field) (.unpack s e' field)
  | cond {span t t' y y' n n' s} (shape : s.Of R c y.type) (test : Expr.Of t t') (yes : Expr.Of y y') (no : Expr.Of n n') :
      Expr.Of (.cond span t y n) (.cond s t' y' n')
  | closure {span ps ps' gs gs' cs cs' env e e' s envShape}
      (shape : s.Of R c (Explicit.Expr.closure span ps gs cs env e).type)
      (params : List.Forall₂ (fun p v => Variable.Of R c p.name p.type v) ps ps')
      (generics : List.Forall₂ (fun g v => Variable.Of R c g Ty.witness v) gs gs')
      (captures : List.Forall₂ (fun x v => Variable.Of R c x.name x.type v) cs cs')
      (environment : envShape.Of R c (.named env (gs.map Ty.generic))) (body : Expr.Of e e') :
      Expr.Of (.closure span ps gs cs env e) (.closure s ps' gs' cs' env envShape e')

inductive Let.Of : Explicit.Let → Let → Prop
  | mk {name t e v a} (var : Variable.Of R c name t v) (value : Expr.Of e a) : Let.Of ⟨name, t, e⟩ ⟨v, a⟩

inductive PackField.Of : Explicit.PackField → PackField → Prop
  | mk {name e a} (value : Expr.Of e a) : PackField.Of ⟨name, e⟩ ⟨name, a⟩

end

end Of

/-- Measured expressions that make the same calls as before. -/
structure Kept (R : Roster) (c : Context) (calls : List (Call WitnessExpr)) (parts : List Expr) : Prop where
  calls : parts.filterMap Expr.call? = calls
  sound : ∀ e ∈ parts, e.Sound R c

section Kept

variable {R : Roster} {c : Context} {calls calls' : List (Call WitnessExpr)} {parts parts' : List Expr}

theorem Kept.nil : Kept R c [] [] := ⟨rfl, List.forall_mem_nil _⟩

theorem Kept.append (first : Kept R c calls parts) (second : Kept R c calls' parts') :
    Kept R c (calls ++ calls') (parts ++ parts') :=
  ⟨by rw [List.filterMap_append, first.calls, second.calls], List.forall_mem_append.mpr ⟨first.sound, second.sound⟩⟩

theorem Kept.cons {e : Expr} (none : e.call? = none) (own : e.Sound R c) (inner : Kept R c calls parts) :
    Kept R c calls (e :: parts) :=
  ⟨by rw [List.filterMap_cons_none none, inner.calls], List.forall_mem_cons.mpr ⟨own, inner.sound⟩⟩

theorem Kept.cons_call {e : Expr} {k : Call WitnessExpr} (call : e.call? = some k) (own : e.Sound R c)
    (inner : Kept R c calls parts) : Kept R c (k :: calls) (e :: parts) :=
  ⟨by rw [List.filterMap_cons_some call, inner.calls], List.forall_mem_cons.mpr ⟨own, inner.sound⟩⟩

end Kept

/-- Everything that has been measured goes with the roster. -/
structure State.Follows (R : Roster) (c : Context) (s : State) : Prop where
  vars : ∀ e ∈ s.vars, e.2.name.tag = e.1 ∧ R.Lists c e.2
  known : ∀ e ∈ s.known, ∃ t own, R.Knows c own t ∧ t.key = e.1 ∧ e.2.Describes (structTable c.structs) t
  instances : ∀ i ∈ s.instances, i.layout.Built (structTable c.structs)

section Layouts

variable {R : Roster} {c : Context} {own : List Tag}

/-- The description of a type that measuring knows. -/
theorem built_of_formed {t : Ty} (formed : t.Formed c.arity own []) :
    t.witnessExpr.Built (structTable c.structs) := by
  refine formed.built fun tag n known => ?_
  rw [Context.arity] at known
  split at known
  · rename_i basic
    exact Or.inl ⟨basic, (Option.some.inj known).symm⟩
  · obtain ⟨d, found, same⟩ := Option.map_eq_some_iff.mp known
    refine Or.inr ⟨_, List.mem_map_of_mem (mem_of_findLast? found), ?_, same⟩
    simpa using List.find?_some found

/-- Type parameters have names of the roster, and go with descriptions. -/
theorem Roster.Knows.parameter {t : Ty} (knows : R.Knows c own t) (apart : R.Apart) {p : Ident} (inside : p ∈ t.parameters) :
    R.named p ∧ R.typed p.tag Ty.witness := by
  refine ⟨?_, knows.described _ (knows.formed.mem_parameters inside)⟩
  rcases knows.passable with spelled | rfl
  · exact apart.parameters p (spelled.mem_parameters inside)
  · exact absurd inside List.not_mem_nil

/-- Keys tell all types of the program apart. -/
theorem Roster.Knows.eq_of_key {own' : List Tag} {t u : Ty} (apart : R.Apart) (first : R.Knows c own t)
    (second : R.Knows c own' u) (same : t.key = u.key) : t = u := by
  have spelled : ∀ {t : Ty}, Explicit.Passable R.spelling t →
      t.Spelled { R.spelling with type := fun i => Ty.named i [] = Ty.witness ∨ R.spelling.type i } := by
    rintro t (spelled | rfl)
    · exact spelled.mono (fun _ => id) fun _ => Or.inr
    · exact Ty.spelled_named.mpr ⟨Or.inl rfl, List.forall_mem_nil _⟩
  refine Ty.Spelled.eq_of_alike (fun i j own other => ?_) apart.constructors (spelled first.passable)
    (spelled second.passable) (Ty.alike_of_key first.formed.closed second.formed.closed same)
  exact apart.names i j (apart.parameters i own) (apart.parameters j other)

/-- What is found under a name has this name, and the type that goes with it. -/
theorem lookup_kept (apart : R.Apart) (name : Ident) : Preserves (State.Follows R c) c (lookup name) fun v =>
    R.Lists c v ∧ (R.named name → v.name = name) ∧ ∀ t, R.typed name.tag t → v.shape.type = t := by
  refine keeps_get_bind fun s follows => ?_
  split
  · rename_i v found
    obtain ⟨tag, lists⟩ := follows.vars _ (mem_of_lookup found)
    refine keeps_pure ⟨lists, fun known => apart.names _ _ lists.named known tag, fun t known => ?_⟩
    exact apart.types _ _ _ lists.typed (tag ▸ known)
  · exact preserves_throw

mutual

/-- A description all of whose names are those of variables stays what it is. -/
theorem witness_kept (apart : R.Apart) : (w : WitnessExpr) → (∀ x ∈ w.names, R.named x) →
    Preserves (State.Follows R c) c (witness w) fun w' => w' = w
  | .var name, known => by
    rw [witness]
    refine (lookup_kept apart name).bind fun v found => keeps_pure ?_
    rw [found.2.1 (known name List.mem_cons_self)]
  | .build constructor args, known => by
    rw [witness]
    exact (witnesses_kept apart args known).bind fun args' same => keeps_pure (by rw [same])

theorem witnesses_kept (apart : R.Apart) : (ws : List WitnessExpr) → (∀ x ∈ WitnessExpr.namesAll ws, R.named x) →
    Preserves (State.Follows R c) c (witnesses ws) fun ws' => ws' = ws
  | [], _ => keeps_pure rfl
  | w :: rest, known => by
    rw [WitnessExpr.namesAll, List.forall_mem_append] at known
    rw [witnesses]
    refine (witness_kept apart w known.1).bind fun w' first => (witnesses_kept apart rest known.2).bind fun rest' others => ?_
    exact keeps_pure (by rw [first, others])

end

/-- The description of a type of the program. -/
theorem typeWitness_kept (apart : R.Apart) {t : Ty} (knows : R.Knows c own t) :
    Preserves (State.Follows R c) c (witness t.witnessExpr) fun w => w = t.witnessExpr :=
  witness_kept apart _ fun _ member => (knows.parameter apart (Ty.names_witnessExpr knows.formed.closed ▸ member)).1

/-- A way to lay out types, of which all descriptions are those of the types. -/
def LaysDescribed (R : Roster) (c : Context) (self : Ty → Measure Layout) : Prop :=
  ∀ t own, R.Knows c own t → Preserves (State.Follows R c) c (self t) fun l => l.Describes (structTable c.structs) t

theorem Layout.describes_of_plain {t : Ty} {l : Layout} (plain : ∀ w, l.witness ≠ .dynamic w) (structs : List (Ident × Nat)) :
    l.Describes structs t := ⟨fun w same => absurd same (plain w), fun w same => absurd same (plain w)⟩

theorem Roster.Knows.describes {t : Ty} (knows : R.Knows c own t) {w : WitnessExpr} (same : w = t.witnessExpr) (size : Size) :
    Layout.Describes (structTable c.structs) t ⟨.dynamic w, size⟩ := by
  refine ⟨fun _ other => ?_, fun _ other => (Witness.dynamic.inj other).symm.trans same⟩
  rw [← Witness.dynamic.inj other, same]
  exact built_of_formed knows.formed

variable (R c) in
/-- The structs of a program hold types of the program, whose names tags tell apart. -/
structure Roster.Covers : Prop where
  apart : R.Apart
  formed : c.Formed
  spelled : ∀ d ∈ c.structs, d.Spelled R.spelling

variable {self : Ty → Measure Layout}

theorem structLayout_described (covers : R.Covers c) (lays : LaysDescribed R c self) {name : Ident} {args : List Ty}
    (knows : R.Knows c own (.named name args)) (spelled : (Ty.named name args).Spelled R.spelling) :
    Preserves (State.Follows R c) c (structLayout self name args) fun l =>
      l.Describes (structTable c.structs) (.named name args) := by
  have fields : ∀ ts : List Ty, (∀ t ∈ ts, R.Knows c own t) → ∀ size plain,
      Preserves (State.Follows R c) c (fieldsLayout.go self size plain ts) fun _ => True := by
    intro ts
    induction ts with
    | nil => exact fun _ _ _ => keeps_pure trivial
    | cons t rest ih =>
      intro parts size plain
      rw [List.forall_mem_cons] at parts
      exact (lays t own parts.1).bind fun l _ => ih parts.2 _ _
  rw [structLayout]
  refine keeps_read_bind ?_
  dsimp only
  split
  · rename_i d found
    split
    · exact preserves_throw_bind
    rename_i length
    have declared := mem_of_findLast? found
    have parts : ∀ t ∈ d.fields.map fun f => f.type.substitute ((d.generics.map (·.tag)).zip args), R.Knows c own t := by
      rw [List.forall_mem_map]
      refine fun f field => ⟨(covers.formed d declared f field).instantiate ?_ (Ty.formed_named.mp knows.formed).2,
        ((covers.spelled d declared).fields f field).substitute fun e member => ?_, knows.described⟩
      · rw [tagsOf, List.length_map]
        exact (not_not.mp length).symm
      · exact (Ty.spelled_named.mp spelled).2 _ (List.of_mem_zip member).2
    refine (fields _ parts _ _).bind fun sum _ => ?_
    have listed : ∀ l : Layout, l.Built (structTable c.structs) → ∀ s : State, s.Follows R c →
        State.Follows R c { s with instances := s.instances ++ [⟨d.name, args, l⟩] } := fun l built s follows =>
      ⟨follows.vars, follows.known,
        List.forall_mem_append.mpr ⟨follows.instances, List.forall_mem_singleton.mpr built⟩⟩
    split
    · have plain : Layout.Describes (structTable c.structs) (.named name args) ⟨.trivial sum.1.static, sum.1⟩ :=
        Layout.describes_of_plain (fun _ same => by cases same) _
      exact keeps_pure_bind (keeps_modify_bind (listed _ plain.built) (keeps_pure plain))
    · refine Keeps.bind (?_ : Preserves _ c _ fun w : Witness =>
        Layout.Describes (structTable c.structs) (.named name args) ⟨w, sum.1⟩) fun w describes =>
          keeps_modify_bind (listed _ describes.built) (keeps_pure describes)
      rw [map_eq_pure_bind]
      exact (typeWitness_kept covers.apart knows).bind fun w same => keeps_pure (knows.describes same _)
  · exact preserves_throw

theorem computeLayout_described (covers : R.Covers c) (lays : LaysDescribed R c self) : LaysDescribed R c (computeLayout self) := by
  intro t own knows
  cases t with
  | named name args =>
    rw [computeLayout]
    split
    · exact keeps_pure (Layout.describes_of_plain (fun _ same => by cases same) _)
    split
    · exact keeps_read_bind (keeps_pure (Layout.describes_of_plain (fun _ same => by cases same) _))
    rename_i other
    refine structLayout_described covers lays knows (knows.passable.resolve_right fun same => ?_)
    rw [Ty.witness, Ty.named.injEq] at same
    exact other (by rw [same.1])
  | generic name =>
    rw [computeLayout]
    refine (lookup_kept covers.apart name).bind fun v found => keeps_pure (knows.describes ?_ _)
    rw [found.2.1 (knows.parameter covers.apart List.mem_cons_self).1, Ty.witnessExpr]
  | func args result =>
    rw [computeLayout]
    exact (typeWitness_kept covers.apart knows).bind fun w same =>
      keeps_read_bind (keeps_pure (knows.describes same _))
  | cell cell => exact preserves_throw

theorem layoutStep_described (covers : R.Covers c) (lays : LaysDescribed R c self) : LaysDescribed R c (layoutStep self) := by
  intro t own knows
  rw [layoutStep]
  refine keeps_get_bind fun s follows => ?_
  dsimp only
  split
  · rename_i l found
    -- The layout was found for a type with the same key, which is this one.
    obtain ⟨u, own', knows', key, describes⟩ := follows.known _ (mem_of_lookup found)
    exact keeps_pure (knows.eq_of_key covers.apart knows' key.symm ▸ describes)
  split
  · exact preserves_throw_bind
  refine (keeps_whileOpen (fun s opened follows => ⟨follows.vars, follows.known, follows.instances⟩)
    (computeLayout_described covers lays t own knows)).bind fun l describes => ?_
  refine keeps_modify_bind (fun s follows => ⟨follows.vars, ?_, follows.instances⟩) (keeps_pure describes)
  exact List.forall_mem_cons.mpr ⟨⟨t, own, knows, rfl, describes⟩, follows.known⟩

theorem layoutWithin_described (covers : R.Covers c) (n : Nat) : LaysDescribed R c (layoutWithin n) := by
  induction n with
  | zero => exact fun _ _ _ => preserves_throw
  | succ n ih => exact layoutStep_described covers ih

theorem shapeOf_kept (covers : R.Covers c) {t : Ty} (knows : R.Knows c own t) :
    Preserves (State.Follows R c) c (shapeOf t) fun s => s.type = t ∧ R.Describes c s :=
  Keeps.bind (keeps_read_bind (layoutWithin_described covers _ t own knows)) fun _ describes =>
    keeps_pure ⟨rfl, ⟨own, knows⟩, describes⟩

/-- A variable is defined with its name and its type. -/
theorem define_kept (covers : R.Covers c) {name : Ident} {t : Ty} (named : R.named name)
    (typed : R.typed name.tag t) (knows : R.Knows c own t) :
    Preserves (State.Follows R c) c (define name t) fun v => v.typed = (name, t) ∧ R.Lists c v := by
  refine keeps_get_bind fun s follows => ?_
  split
  · rename_i v found
    obtain ⟨tag, lists⟩ := follows.vars _ (mem_of_lookup found)
    have same := covers.apart.names _ _ lists.named named tag
    exact keeps_pure ⟨congrArg₂ Prod.mk same (covers.apart.types _ _ _ lists.typed (same ▸ typed)), lists⟩
  · refine (shapeOf_kept covers knows).bind fun shape describes => ?_
    have lists : R.Lists c ⟨name, shape⟩ := ⟨named, (congrArg (R.typed name.tag) describes.1).mpr typed, describes.2⟩
    refine keeps_modify_bind (fun s follows => ⟨?_, follows.known, follows.instances⟩)
      (keeps_pure ⟨congrArg _ describes.1, lists⟩)
    exact List.forall_mem_cons.mpr ⟨⟨rfl, lists⟩, follows.vars⟩

end Layouts

section Expressions

/-- Where expressions are measured: which names and types there are, and that the structs have layouts. -/
structure Registered (R : Roster) (arity : Arity) (c : Context) : Prop where
  apart : R.Apart
  wide : c.Extends arity
  spelled : ∀ d ∈ c.structs, d.Spelled R.spelling
  basic : Ty.float.Spelled R.spelling ∧ Ty.bool.Spelled R.spelling

/-- The type parameters and variables at hand go with the roster. -/
structure Roster.Offers (R : Roster) (generics : List Tag) (vars : Typed.Env) : Prop where
  generics : ∀ tag ∈ generics, R.typed tag Ty.witness
  vars : ∀ v ∈ vars, R.typed v.1 v.2

/-- All names in the descriptions that calls pass are those of variables. -/
def Reads (T : Spelling) (calls : List (Call WitnessExpr)) : Prop :=
  ∀ k ∈ calls, ∀ w ∈ k.given, ∀ x ∈ w.names, T.bound x

variable {R : Roster} {arity : Arity} {c : Context} {generics : List Tag} {vars : Typed.Env}

theorem Reads.append {T : Spelling} {calls calls' : List (Call WitnessExpr)} :
    Reads T (calls ++ calls') ↔ Reads T calls ∧ Reads T calls' := List.forall_mem_append

theorem Registered.covers (fits : Registered R arity c) : R.Covers c := ⟨fits.apart, fits.wide.formed, fits.spelled⟩

theorem Registered.formed (fits : Registered R arity c) {t : Ty} (formed : t.Formed arity generics []) :
    t.Formed c.arity generics [] := formed.mono fits.wide.more (fun _ known => known) fun _ known => known

theorem Registered.knows (fits : Registered R arity c) {t : Ty} (formed : t.Formed arity generics [])
    (spelled : t.Spelled R.spelling) (offers : R.Offers generics vars) : R.Knows c generics t :=
  ⟨fits.formed formed, Or.inl spelled, offers.generics⟩

theorem Registered.shape (fits : Registered R arity c) {e : Explicit.Expr}
    (inside : e.Scoped arity c.structs generics vars) (own : e.Spelled R.spelling) (offers : R.Offers generics vars) :
    Preserves (State.Follows R c) c (atSpan e.span (shapeOf e.type)) fun s => s.type = e.type ∧ R.Describes c s :=
  atSpan_keeps (shapeOf_kept fits.covers
    (fits.knows (inside.type_formed fits.wide.numbers fits.wide.truths) (own.type fits.basic) offers)) fun _ _ _ => id

theorem Registered.define (fits : Registered R arity c) {name : Ident} {t : Ty} (bound : R.spelling.bound name)
    (typed : R.typed name.tag t) (knows : R.Knows c generics t) :
    Preserves (State.Follows R c) c (Sized.define name t) fun v => v.typed = (name, t) ∧ R.Lists c v :=
  define_kept fits.covers (fits.apart.parameters name bound) typed knows

/-- What is found under the name of a variable is this variable. -/
theorem Registered.lookup (fits : Registered R arity c) {name : Ident} {t : Ty} (bound : R.spelling.bound name)
    (typed : R.typed name.tag t) :
    Preserves (State.Follows R c) c (Sized.lookup name) fun v => v.typed = (name, t) ∧ R.Lists c v :=
  (lookup_kept fits.apart name).imp fun v found => by
    rw [Variable.typed, found.2.1 (fits.apart.parameters name bound), found.2.2 t typed]
    exact ⟨rfl, found.1⟩

theorem Expr.Sound.shape {e : Expr} (sound : e.Sound R c) : R.Describes c e.shape := by
  refine sound.describes _ ?_
  cases e <;> exact List.mem_cons_self

/-- An expression that only has the shape of its value. -/
theorem Expr.Sound.plain {e : Expr} (own : R.Describes c e.shape) (only : e.ownShapes = [e.shape])
    (none : e.ownVariables = []) (open' : e.Encloses c.structs) : e.Sound R c :=
  ⟨by rw [only]; exact List.forall_mem_singleton.mpr own, by rw [none]; exact List.forall_mem_nil _, open'⟩

theorem listed_of_forall₂ {α : Type} {as : List α} {vs : List Variable} {good : α → Variable → Prop}
    (all : List.Forall₂ (fun a v => good a v ∧ R.Lists c v) as vs) : ∀ v ∈ vs, R.Lists c v := fun v member => by
  obtain ⟨a, -, own⟩ := exists_of_forall₂ all v member
  exact own.2

/-- The type of the environment of a closure is one of the program. -/
theorem Registered.environment_known (fits : Registered R arity c) {span : Span} {env : Ident} {gs : List Ident}
    {cs : List Explicit.Capture} (declared : Explicit.environment span env gs cs ∈ c.structs) (own : R.spelling.type env)
    (ownG : ∀ g ∈ gs, R.spelling.bound g) (typedG : ∀ tag ∈ tagsOf gs, R.typed tag Ty.witness) :
    R.Knows c (tagsOf gs) (.named env (gs.map Ty.generic)) := by
  have known := fits.wide.structs _ declared
  refine ⟨Ty.formed_named.mpr ⟨by rw [List.length_map]; exact known, List.forall_mem_map.mpr fun g member => ?_⟩,
    Or.inl (Ty.spelled_named.mpr ⟨own, List.forall_mem_map.mpr fun g member => Ty.spelled_generic.mpr (ownG g member)⟩), typedG⟩
  exact Ty.formed_generic.mpr (List.mem_map_of_mem member)

/-- Type parameters go with descriptions, and no captured variable does, so that the ones are none of the others. -/
theorem Registered.enclosed_once (fits : Registered R arity c) {gs : List Ident} {cs : List Explicit.Capture}
    (enclosed : Explicit.Enclosed arity gs cs) (typedG : ∀ tag ∈ tagsOf gs, R.typed tag Ty.witness)
    (typedC : ∀ v ∈ captureEnv cs, R.typed v.1 v.2) : (tagsOf gs ++ cs.map (·.name.tag)).Nodup := by
  rw [List.nodup_append']
  refine ⟨enclosed.once, enclosed.single, fun tag generic captured => ?_⟩
  obtain ⟨x, member, rfl⟩ := List.mem_map.mp captured
  have same : Ty.witness = x.type :=
    fits.apart.types _ _ _ (typedG _ generic) (typedC _ (List.mem_map_of_mem member))
  have value := Explicit.isWitnessType_of_formed fits.wide.plain (enclosed.formed x member)
  rw [← same] at value
  cases value

/-- Measuring an expression keeps its type, its calls and what it computes. -/
def MeasureKeeps (R : Roster) (arity : Arity) (c : Context) (e : Explicit.Expr) : Prop :=
  ∀ (generics : List Tag) (vars : Typed.Env), e.Scoped arity c.structs generics vars → e.Spelled R.spelling →
    Reads R.spelling e.calls → (∀ b ∈ e.bindings, R.typed b.1 b.2) → R.Offers generics vars →
    Preserves (State.Follows R c) c (expr e) fun e' =>
      e'.shape.type = e.type ∧ Kept R c e.calls e'.parts ∧ e'.plain = e.plain ∧ Expr.Of R c e e'

theorem closure_kept (fits : Registered R arity c) {span : Span} {params : List Explicit.Argument} {gs : List Ident}
    {cs : List Explicit.Capture} {env : Ident} {body : Explicit.Expr} (inner : MeasureKeeps R arity c body) :
    MeasureKeeps R arity c (.closure span params gs cs env body) := by
  intro generics vars inside own reads binds offers
  rw [Explicit.Expr.bindings, List.forall_mem_append] at binds
  rw [expr]
  refine (fits.shape inside own offers).bind fun shape lays => ?_
  obtain ⟨ownP, ownG, ownC, ownE, ownB⟩ := own
  obtain ⟨knownG, knownC, enclosed, ⟨place, declared⟩, formed, inside⟩ := inside
  have typedG : ∀ tag ∈ tagsOf gs, R.typed tag Ty.witness := fun tag member => offers.generics tag (knownG member)
  have typedC : ∀ v ∈ captureEnv cs, R.typed v.1 v.2 := fun v member => offers.vars v (knownC member)
  have eachG : ∀ g ∈ gs, Preserves (State.Follows R c) c (Sized.lookup g) fun v =>
      v.typed = (g, Ty.witness) ∧ R.Lists c v := fun g member =>
    fits.lookup (ownG g member) (typedG _ (List.mem_map_of_mem member))
  have eachC : ∀ x ∈ cs, Preserves (State.Follows R c) c (Sized.lookup x.name) fun v =>
      v.typed = (x.name, x.type) ∧ R.Lists c v := fun x member =>
    fits.lookup (ownC x member) (typedC _ (List.mem_map_of_mem member))
  have eachP : ∀ p ∈ params, Preserves (State.Follows R c) c (Sized.define p.name p.type) fun v =>
      v.typed = (p.name, p.type) ∧ R.Lists c v := fun p member =>
    fits.define (ownP p member).1 (binds.1 _ (List.mem_map_of_mem member))
      ⟨fits.formed (formed p member), Or.inl (ownP p member).2, typedG⟩
  refine (Keeps.mapM_forall₂ eachG).bind fun gs' allG => (Keeps.mapM_forall₂ eachC).bind fun cs' allC => ?_
  refine (Keeps.mapM_forall₂ eachP).bind fun ps' allP => keeps_read_bind ?_
  dsimp only
  split
  · exact preserves_throw_bind
  have knowsE := fits.environment_known declared ownE ownG typedG
  refine (shapeOf_kept fits.covers knowsE).bind fun envShape laysE => ?_
  have offersB : R.Offers (tagsOf gs) (argumentEnv params ++ captureEnv cs) :=
    ⟨typedG, List.forall_mem_append.mpr ⟨binds.1, typedC⟩⟩
  refine (inner _ _ inside ownB reads binds.2 offersB).bind fun e kept => ?_
  have sameG := map_eq_of_forall₂ allG fun g v own => own.1
  have sameC := map_eq_of_forall₂ allC fun x v own => own.1
  have tagsP : variableTags ps' = params.map (·.name.tag) :=
    map_eq_of_forall₂ allP fun p v own => congrArg (·.1.tag) own.1
  have tagsG : variableTags gs' = tagsOf gs := map_eq_of_forall₂ allG fun g v own => congrArg (·.1.tag) own.1
  have tagsC : variableTags cs' = cs.map (·.name.tag) := map_eq_of_forall₂ allC fun x v own => congrArg (·.1.tag) own.1
  have listed : ∀ v ∈ ps' ++ (gs' ++ cs'), R.Lists c v := by
    rw [List.forall_mem_append, List.forall_mem_append]
    exact ⟨listed_of_forall₂ allP, listed_of_forall₂ allG, listed_of_forall₂ allC⟩
  refine keeps_pure ⟨lays.1, .cons rfl ⟨?_, listed, ⟨place, gs, cs, declared, sameG, sameC⟩, ?_⟩ kept.2.1, ?_,
    .closure ⟨lays.1, lays.2⟩ (allP.imp fun _ _ own => ⟨own.1, own.2.describes⟩)
      (allG.imp fun _ _ own => ⟨own.1, own.2.describes⟩) (allC.imp fun _ _ own => ⟨own.1, own.2.describes⟩)
      ⟨laysE.1, laysE.2⟩ kept.2.2.2⟩
  · refine List.forall_mem_cons.mpr ⟨lays.2, List.forall_mem_cons.mpr ⟨laysE.2, List.forall_mem_map.mpr ?_⟩⟩
    exact fun v member => (listed v member).describes
  · have tags : variableTags (gs' ++ cs') = tagsOf gs ++ cs.map (·.name.tag) :=
      List.map_append.trans (congrArg₂ _ tagsG tagsC)
    rw [tags]
    exact fits.enclosed_once enclosed typedG typedC
  · rw [Expr.plain, Explicit.Expr.plain, kept.2.2.1]
    exact congrArg₂ (Plain.Expr.closure · · _) tagsP tagsC

mutual

theorem expr_kept (fits : Registered R arity c) : (e : Explicit.Expr) → MeasureKeeps R arity c e
  | .var span type name, generics, vars, inside, own, reads, binds, offers => by
    rw [expr]
    refine (fits.shape inside own offers).bind fun shape lays => ?_
    refine (lookup_kept fits.apart name).bind fun v found => keeps_pure ?_
    obtain rfl := found.2.1 (fits.apart.parameters name own.2)
    exact ⟨lays.1, .cons rfl (.plain lays.2 rfl rfl trivial) .nil, rfl, .var ⟨lays.1, lays.2⟩⟩
  | .number span text bits, generics, vars, inside, own, reads, binds, offers => by
    rw [expr]
    refine (fits.shape inside own offers).bind fun shape lays => keeps_pure ⟨lays.1, ?_, rfl, .number ⟨lays.1, lays.2⟩⟩
    exact .cons rfl (.plain lays.2 rfl rfl trivial) .nil
  | .bool span value, generics, vars, inside, own, reads, binds, offers => by
    rw [expr]
    refine (fits.shape inside own offers).bind fun shape lays => keeps_pure ⟨lays.1, ?_, rfl, .bool ⟨lays.1, lays.2⟩⟩
    exact .cons rfl (.plain lays.2 rfl rfl trivial) .nil
  | .callDirect span type function args ws, generics, vars, inside, own, reads, binds, offers => by
    rw [Explicit.Expr.calls, Reads, List.forall_mem_cons] at reads
    rw [expr]
    refine (fits.shape inside own offers).bind fun shape lays => ?_
    refine (exprs_kept fits args generics vars inside.2.1 own.2.2.1 reads.2 binds offers).bind fun as kept => ?_
    have named : ∀ x ∈ WitnessExpr.namesAll ws, R.named x := fun x member => by
      rw [WitnessExpr.namesAll_eq_flatMap, List.mem_flatMap] at member
      obtain ⟨w, passed, member⟩ := member
      exact fits.apart.parameters x (reads.1 w passed x member)
    refine (witnesses_kept fits.apart ws named).bind fun ws' given => keeps_pure ?_
    obtain rfl := given
    refine ⟨lays.1, ?_, congrArg (Plain.Expr.callDirect function) kept.2.2.1,
      .callDirect ⟨lays.1, lays.2⟩ kept.2.2.2⟩
    rw [Explicit.Expr.calls, ← kept.1]
    refine .cons_call ?_ (.plain lays.2 rfl rfl trivial) kept.2.1
    rw [Expr.call?, lays.1, Explicit.Expr.type]
  | .callClosure span type callee args, generics, vars, inside, own, reads, binds, offers => by
    rw [Explicit.Expr.calls, Reads.append] at reads
    rw [Explicit.Expr.bindings, List.forall_mem_append] at binds
    rw [expr]
    refine (fits.shape inside own offers).bind fun shape lays => ?_
    refine (expr_kept fits callee generics vars inside.2.1 own.2.1 reads.1 binds.1 offers).bind fun f first => ?_
    refine (exprs_kept fits args generics vars inside.2.2 own.2.2 reads.2 binds.2 offers).bind fun as others => ?_
    exact keeps_pure ⟨lays.1, .cons rfl (.plain lays.2 rfl rfl trivial) (first.2.1.append others.2.1),
      congrArg₂ Plain.Expr.callClosure first.2.2.1 others.2.2.1,
      .callClosure ⟨lays.1, lays.2⟩ first.2.2.2 others.2.2.2⟩
  | .primitive span op left right, generics, vars, inside, own, reads, binds, offers => by
    rw [Explicit.Expr.calls, Reads.append] at reads
    rw [Explicit.Expr.bindings, List.forall_mem_append] at binds
    rw [expr]
    refine (fits.shape inside own offers).bind fun shape lays => ?_
    refine (expr_kept fits left generics vars inside.1 own.1 reads.1 binds.1 offers).bind fun l first => ?_
    refine (expr_kept fits right generics vars inside.2 own.2 reads.2 binds.2 offers).bind fun r second => ?_
    exact keeps_pure ⟨lays.1, .cons rfl (.plain lays.2 rfl rfl trivial) (first.2.1.append second.2.1),
      congrArg₂ (Plain.Expr.primitive op) first.2.2.1 second.2.2.1,
      .primitive ⟨lays.1, lays.2⟩ first.2.2.2 second.2.2.2⟩
  | .block span bs result, generics, vars, inside, own, reads, binds, offers => by
    rw [Explicit.Expr.calls, Reads.append] at reads
    rw [Explicit.Expr.bindings, List.forall_mem_append] at binds
    rw [expr]
    refine (fits.shape inside own offers).bind fun shape lays => ?_
    refine (lets_kept fits bs generics vars inside.1 own.1 reads.1 binds.1 offers).bind fun bs' bound => ?_
    refine (expr_kept fits result generics _ inside.2 own.2 reads.2 binds.2
      ⟨offers.generics, Explicit.forall_letEnv binds.1 offers.vars⟩).bind fun r last => ?_
    refine keeps_pure ⟨lays.1, .cons rfl ⟨?_, List.forall_mem_map.mpr bound.1, trivial⟩ (bound.2.1.append last.2.1),
      congrArg₂ Plain.Expr.block bound.2.2.1 last.2.2.1, .block ⟨lays.1, lays.2⟩ bound.2.2.2 last.2.2.2⟩
    exact List.forall_mem_cons.mpr ⟨lays.2, List.forall_mem_map.mpr fun b member => (bound.1 b member).describes⟩
  | .pack span name args fields, generics, vars, inside, own, reads, binds, offers => by
    rw [expr]
    refine (fits.shape inside own offers).bind fun shape lays => ?_
    refine (packFields_kept fits fields generics vars inside.2 own.2.2 reads binds offers).bind fun fs kept => ?_
    exact keeps_pure ⟨lays.1, .cons rfl (.plain lays.2 rfl rfl trivial) kept.1,
      congrArg₂ Plain.Expr.pack kept.2.1 kept.2.2.1, .pack ⟨lays.1, lays.2⟩ kept.2.2.2⟩
  | .unpack span type value field, generics, vars, inside, own, reads, binds, offers => by
    rw [expr]
    refine (fits.shape inside own offers).bind fun shape lays => ?_
    refine (expr_kept fits value generics vars inside.2 own.2 reads binds offers).bind fun v kept => ?_
    exact keeps_pure ⟨lays.1, .cons rfl (.plain lays.2 rfl rfl trivial) kept.2.1,
      congrArg (Plain.Expr.unpack · field) kept.2.2.1, .unpack ⟨lays.1, lays.2⟩ kept.2.2.2⟩
  | .cond span test yes no, generics, vars, inside, own, reads, binds, offers => by
    rw [Explicit.Expr.calls, Reads.append, Reads.append] at reads
    rw [Explicit.Expr.bindings, List.forall_mem_append, List.forall_mem_append] at binds
    rw [expr]
    refine (fits.shape inside own offers).bind fun shape lays => ?_
    refine (expr_kept fits test generics vars inside.1 own.1 reads.1 binds.1 offers).bind fun t first => ?_
    refine (expr_kept fits yes generics vars inside.2.1 own.2.1 reads.2.1 binds.2.1 offers).bind fun y second => ?_
    refine (expr_kept fits no generics vars inside.2.2 own.2.2 reads.2.2 binds.2.2 offers).bind fun n third => ?_
    refine keeps_pure ⟨lays.1, ?_, ?_, .cond ⟨lays.1, lays.2⟩ first.2.2.2 second.2.2.2 third.2.2.2⟩
    · exact .cons rfl (.plain lays.2 rfl rfl trivial) (first.2.1.append (second.2.1.append third.2.1))
    · rw [Expr.plain, Explicit.Expr.plain, first.2.2.1, second.2.2.1, third.2.2.1]
  | .closure span params gs cs env body, generics, vars, inside, own, reads, binds, offers =>
    closure_kept fits (expr_kept fits body) generics vars inside own reads binds offers

theorem exprs_kept (fits : Registered R arity c) : (es : List Explicit.Expr) → (generics : List Tag) →
    (vars : Typed.Env) → Explicit.Expr.ScopedAll arity c.structs generics vars es → Explicit.Expr.SpelledAll R.spelling es →
    Reads R.spelling (Explicit.Expr.callsAll es) → (∀ b ∈ Explicit.Expr.bindingsAll es, R.typed b.1 b.2) →
    R.Offers generics vars → Preserves (State.Follows R c) c (exprs es) fun es' =>
      es'.map (·.shape.type) = es.map (·.type) ∧ Kept R c (Explicit.Expr.callsAll es) (Expr.partsAll es') ∧
        Expr.plainAll es' = Explicit.Expr.plainAll es ∧ List.Forall₂ (Expr.Of R c) es es'
  | [], generics, vars, inside, own, reads, binds, offers => keeps_pure ⟨rfl, .nil, rfl, .nil⟩
  | e :: rest, generics, vars, inside, own, reads, binds, offers => by
    rw [Explicit.Expr.callsAll, Reads.append] at reads
    rw [Explicit.Expr.bindingsAll, List.forall_mem_append] at binds
    rw [exprs]
    refine (expr_kept fits e generics vars inside.1 own.1 reads.1 binds.1 offers).bind fun e' first => ?_
    refine (exprs_kept fits rest generics vars inside.2 own.2 reads.2 binds.2 offers).bind fun es others => ?_
    exact keeps_pure ⟨congrArg₂ List.cons first.1 others.1, first.2.1.append others.2.1,
      congrArg₂ List.cons first.2.2.1 others.2.2.1, .cons first.2.2.2 others.2.2.2⟩

theorem packFields_kept (fits : Registered R arity c) : (fs : List Explicit.PackField) → (generics : List Tag) →
    (vars : Typed.Env) → Explicit.Expr.FieldsScoped arity c.structs generics vars fs → Explicit.Expr.FieldsSpelled R.spelling fs →
    Reads R.spelling (Explicit.Expr.fieldCalls fs) → (∀ b ∈ Explicit.Expr.fieldBindings fs, R.typed b.1 b.2) →
    R.Offers generics vars → Preserves (State.Follows R c) c (packFields fs) fun fs' =>
      Kept R c (Explicit.Expr.fieldCalls fs) (Expr.fieldParts fs') ∧ fs'.map (·.name) = fs.map (·.name) ∧
        Expr.plainFields fs' = Explicit.Expr.plainFields fs ∧ List.Forall₂ (PackField.Of R c) fs fs'
  | [], generics, vars, inside, own, reads, binds, offers => keeps_pure ⟨.nil, rfl, rfl, .nil⟩
  | ⟨name, value⟩ :: rest, generics, vars, inside, own, reads, binds, offers => by
    rw [Explicit.Expr.fieldCalls, Reads.append] at reads
    rw [Explicit.Expr.fieldBindings, List.forall_mem_append] at binds
    rw [packFields]
    refine (expr_kept fits value generics vars inside.1 own.1 reads.1 binds.1 offers).bind fun v first => ?_
    refine (packFields_kept fits rest generics vars inside.2 own.2 reads.2 binds.2 offers).bind fun fs others => ?_
    exact keeps_pure ⟨first.2.1.append others.1, congrArg (List.cons name) others.2.1,
      congrArg₂ List.cons first.2.2.1 others.2.2.1, .cons (.mk first.2.2.2) others.2.2.2⟩

theorem lets_kept (fits : Registered R arity c) : (bs : List Explicit.Let) → (generics : List Tag) →
    (vars : Typed.Env) → Explicit.Expr.LetsScoped arity c.structs generics vars bs → Explicit.Expr.LetsSpelled R.spelling bs →
    Reads R.spelling (Explicit.Expr.letCalls bs) → (∀ b ∈ Explicit.Expr.letBindings bs, R.typed b.1 b.2) →
    R.Offers generics vars → Preserves (State.Follows R c) c (lets bs) fun bs' =>
      (∀ b ∈ bs', R.Lists c b.var) ∧ Kept R c (Explicit.Expr.letCalls bs) (Expr.letParts bs') ∧
        Expr.plainLets bs' = Explicit.Expr.plainLets bs ∧ List.Forall₂ (Let.Of R c) bs bs'
  | [], generics, vars, inside, own, reads, binds, offers => keeps_pure ⟨List.forall_mem_nil _, .nil, rfl, .nil⟩
  | ⟨name, type, value⟩ :: rest, generics, vars, inside, own, reads, binds, offers => by
    rw [Explicit.Expr.letCalls, Reads.append] at reads
    rw [Explicit.Expr.letBindings, List.forall_mem_append, List.forall_mem_cons] at binds
    rw [lets]
    refine (expr_kept fits value generics vars inside.2.1 own.2.1 reads.1 binds.1 offers).bind fun v first => ?_
    refine (atSpan_keeps (fits.define own.1.1 binds.2.1 (fits.knows inside.1 own.1.2 offers)) fun _ _ _ => id).bind
      fun x defined => ?_
    refine (lets_kept fits rest generics _ inside.2.2 own.2.2 reads.2 binds.2.2
      ⟨offers.generics, List.forall_mem_cons.mpr ⟨binds.2.1, offers.vars⟩⟩).bind fun bs others => ?_
    refine keeps_pure ⟨List.forall_mem_cons.mpr ⟨defined.2, others.1⟩, first.2.1.append others.2.1, ?_,
      .cons (.mk ⟨defined.1, defined.2.describes⟩ first.2.2.2) others.2.2.2⟩
    have tag : x.name.tag = name.tag := congrArg (·.1.tag) defined.1
    rw [Expr.plainLets, Explicit.Expr.plainLets, first.2.2.1, tag, others.2.2.1]

end

end Expressions

section Definitions

variable {R : Roster} {results : Ident → Prop} {arity : Arity} {c : Context}

/-- A struct that measuring only added sizes to. -/
structure Struct.Kept (c : Context) (d : Explicit.Struct) (d' : Struct) : Prop where
  name : d'.name = d.name
  arguments : d'.arguments.map (·.typed) = d.generics.map (·, Ty.witness)
  fields : d'.fields.map (fun f => (f.name, f.shape.type)) = d.fields.map fun f => (f.name, f.type)
  builtA : ∀ v ∈ d'.arguments, v.shape.layout.Built (structTable c.structs)
  builtF : ∀ f ∈ d'.fields, f.shape.layout.Built (structTable c.structs)

theorem struct_kept (fits : Registered R arity c) {d : Explicit.Struct} (member : d ∈ c.structs) (own : d.Spelled R.spelling)
    (typed : ∀ g ∈ d.generics, R.typed g.tag Ty.witness) :
    Preserves (State.Follows R c) c (struct d (some (Explicit.builderOf d))) (Struct.Kept c d) := by
  have description : R.Knows c [] Ty.witness :=
    ⟨Ty.formed_named.mpr ⟨by simp [Context.arity], List.forall_mem_nil _⟩, Or.inr rfl, List.forall_mem_nil _⟩
  have argument : ∀ g ∈ d.generics, Preserves (State.Follows R c) c (Sized.define g Ty.witness) fun v =>
      v.typed = (g, Ty.witness) ∧ R.Lists c v := fun g known =>
    define_kept fits.covers (fits.apart.parameters g (own.generics g known)) (typed g known) description
  have field : ∀ f ∈ d.fields, Preserves (State.Follows R c) c (do
      return Field.mk f.name (← atSpan d.span (shapeOf f.type))) fun f' =>
        (f'.name, f'.shape.type) = (f.name, f.type) ∧ f'.shape.layout.Built (structTable c.structs) := fun f known =>
    (atSpan_keeps (shapeOf_kept fits.covers ⟨fits.wide.formed d member f known, own.fields f known,
      List.forall_mem_map.mpr typed⟩) fun _ _ _ => id).bind fun shape lays =>
        keeps_pure ⟨congrArg _ lays.1, lays.2.layout.built⟩
  rw [struct_eq (length_builderOf d)]
  refine (Keeps.mapM_forall₂ argument).bind fun as allA => (Keeps.mapM_forall₂ field).bind fun fs allF => ?_
  refine keeps_pure ⟨rfl, map_eq_of_forall₂ allA fun g v own => own.1, map_eq_of_forall₂ allF fun f f' own => own.1,
    fun v made => (listed_of_forall₂ allA v made).describes.layout.built, fun f' made => ?_⟩
  obtain ⟨f, -, own⟩ := exists_of_forall₂ allF f' made
  exact own.2

/-- A function that measuring only added sizes to. -/
structure Function.Kept (R : Roster) (c : Context) (f : Explicit.Function) (f' : Function) : Prop where
  callable : f'.callable = f.callable
  plain : f'.body.plain = f.body.plain
  listed : ∀ a ∈ f'.arguments, R.Lists c a.var
  sound : ∀ e ∈ f'.body.parts, e.Sound R c
  body : Expr.Of R c f.body f'.body

/-- A function that only got sizes computes what it computed. -/
theorem Function.Kept.plain_eq {f : Explicit.Function} {f' : Function} (kept : Function.Kept R c f f') :
    f'.plain = f.plain := by
  have name : f'.name = f.name := congrArg Callable.name kept.callable
  have arguments : f'.arguments.map (fun a => Explicit.Argument.mk a.var.name a.var.shape.type a.convention) = f.arguments :=
    congrArg Callable.arguments kept.callable
  rw [Function.plain, Explicit.Function.plain, name, kept.plain, ← arguments, List.filter_map, List.map_drop, List.map_drop,
    List.map_map]
  rfl

theorem function_kept (fits : Registered R arity c) (named : ∀ i, results i → R.named i) {f : Explicit.Function}
    {result : Explicit.Argument} {params : List Explicit.Argument} {gs : List Ident}
    (inside : f.Scoped arity c.structs result params gs) (own : f.Spelled R.spelling results) (reads : Reads R.spelling f.body.calls)
    (binds : ∀ b ∈ f.bindings, R.typed b.1 b.2) (typed : ∀ tag ∈ f.parameters, R.typed tag Ty.witness) :
    Preserves (State.Follows R c) c (function f) (Function.Kept R c f) := by
  rw [inside.parameters_eq fits.wide.plain] at typed
  rw [Explicit.Function.bindings, (inside.split fits.wide.plain).1, List.forall_mem_append] at binds
  have formed : ∀ a ∈ f.arguments, a.type.Formed c.arity (tagsOf gs) [] := by
    rw [inside.arguments, List.forall_mem_append, List.forall_mem_map]
    exact ⟨fun a member => fits.formed (inside.formed a member), fun g member =>
      Ty.formed_named.mpr ⟨by simp [Context.arity], List.forall_mem_nil _⟩⟩
  have known : ∀ a ∈ f.arguments, R.named a.name ∧ Explicit.Passable R.spelling a.type := by
    obtain ⟨r, rest, arguments, ownR, -, -, type, others⟩ := own.result
    rw [arguments, List.forall_mem_cons]
    exact ⟨⟨named _ ownR, Or.inl type⟩, fun a member => (others a member).imp_left (fits.apart.parameters _)⟩
  have types : ∀ a ∈ f.arguments, R.typed a.name.tag a.type := by
    rw [inside.arguments, List.forall_mem_append, List.forall_mem_map]
    exact ⟨fun a member => binds.1 _ (List.mem_map_of_mem member), fun g member => typed _ (List.mem_map_of_mem member)⟩
  have argument : ∀ a ∈ f.arguments, Preserves (State.Follows R c) c
      (do return Argument.mk (← Sized.lookup a.name) a.convention) fun b =>
        Explicit.Argument.mk b.var.name b.var.shape.type b.convention = a ∧ R.Lists c b.var := fun a member =>
    (lookup_kept fits.apart a.name).bind fun v found => keeps_pure ⟨by
      rw [found.2.1 (known a member).1, found.2.2 _ (types a member)], found.1⟩
  have offers : R.Offers (tagsOf gs) (argumentEnv params) :=
    ⟨typed, fun v member => binds.1 v (List.mem_cons_of_mem _ member)⟩
  rw [function]
  dsimp only
  refine (Keeps.mapM (fun _ => True) fun a member => (atSpan_keeps ?_ fun _ _ _ => id)).bind fun _ _ => ?_
  · have member : a ∈ f.arguments := by
      rw [List.partition_eq_filter_filter, List.mem_append, List.mem_filter, List.mem_filter] at member
      exact member.elim And.left And.left
    exact (define_kept fits.covers (known a member).1 (types a member)
      ⟨formed a member, (known a member).2, offers.generics⟩).imp fun _ _ => trivial
  refine (Keeps.mapM_forall₂ argument).bind fun as all => ?_
  refine (expr_kept fits f.body _ _ inside.body own.body reads binds.2 offers).bind fun e kept => keeps_pure ?_
  refine ⟨?_, kept.2.2.1, fun b made => ?_, kept.2.1.sound, kept.2.2.2⟩
  · rw [Function.callable, Explicit.Function.callable, Expr.calls, kept.2.1.calls]
    have arguments := map_eq_of_forall₂ all fun a b own => own.1
    rw [List.map_id'] at arguments
    rw [arguments]
  · obtain ⟨a, -, own⟩ := exists_of_forall₂ all b made
    exact own.2

end Definitions

section Programs

variable {p : Explicit.Program} {declared environments : List Explicit.Struct} {arity : Arity} {T : Spelling}
  {results : Ident → Prop}

/-- The names of a program, and what goes with its tags: the types of its variables, and that of descriptions. -/
def rosterOf (T : Spelling) (results : Ident → Prop) (declared : List Explicit.Struct) (p : Explicit.Program) : Roster where
  named i := T.bound i ∨ results i
  typed tag t := (tag, t) ∈ p.functions.flatMap (·.bindings) ∨
    tag ∈ declared.flatMap (tagsOf ·.generics) ++ p.functions.flatMap (·.parameters) ∧ t = Ty.witness
  spelling := T

theorem roster_apart (inside : p.Scoped arity declared environments)
    (apart : ∀ i j, T.bound i ∨ results i → T.bound j ∨ results j → i.tag = j.tag → i = j)
    (constructors : ∀ i j, Ty.named i [] = Ty.witness ∨ T.type i → Ty.named j [] = Ty.witness ∨ T.type j →
      i.tag = j.tag → i = j) : (rosterOf T results declared p).Apart := by
  have tags : (p.functions.flatMap (·.bindings)).map (·.1) = p.functions.flatMap (·.variables) := by
    rw [List.map_flatMap]
    exact List.flatMap_congr fun f _ => f.map_bindings
  have variable_of {tag t} (bound : (tag, t) ∈ p.functions.flatMap (·.bindings)) :
      tag ∈ p.functions.flatMap (·.variables) := tags ▸ List.mem_map_of_mem bound
  refine ⟨apart, fun tag t u first second => ?_, fun i => Or.inl, constructors⟩
  rcases first with first | ⟨generic, rfl⟩ <;> rcases second with second | ⟨generic', rfl⟩
  · have once := inside.once
    rw [← tags] at once
    exact Option.some.inj ((lookup_of_nodup once first).symm.trans (lookup_of_nodup once second))
  · exact absurd generic' (inside.apart (variable_of first))
  · exact absurd generic (inside.apart (variable_of second))
  · rfl

/-- A program that measuring only added sizes to. -/
structure Program.Kept (R : Roster) (c : Context) (p : Explicit.Program) (q : Program) : Prop where
  structs : List.Forall₂ (Struct.Kept c) p.structs q.structs
  functions : List.Forall₂ (Function.Kept R c) p.functions q.functions
  instances : ∀ i ∈ q.instances, i.layout.Built (structTable c.structs)

/-- The functions of a program compute the same once it has been measured. -/
theorem Program.Kept.plain_eq {R : Roster} {c : Context} {q : Program} (kept : Program.Kept R c p q) :
    q.functions.map (·.plain) = p.functions.map (·.plain) :=
  map_eq_of_forall₂ kept.functions fun _ _ own => own.plain_eq

/-- Measuring only adds sizes: where tags tell names apart, every definition stays what it was. -/
theorem measureWithin_kept {target : Target} {depth : Nat} {q : Program} (inside : p.Scoped arity declared environments)
    (own : p.Spelled T results) (basic : Ty.float.Spelled T ∧ Ty.bool.Spelled T)
    (apart : (rosterOf T results declared p).Apart)
    (reads : ∀ f ∈ p.functions, Reads T f.body.calls) (done : measureWithin depth p target = .ok q) :
    Program.Kept (rosterOf T results declared p) ⟨target, p.structs, depth⟩ p q := by
  have fits : Registered (rosterOf T results declared p) arity ⟨target, p.structs, depth⟩ :=
    ⟨apart, extends_of_scoped target depth inside, own.structs, basic⟩
  have generics : ∀ d ∈ p.structs, ∀ g ∈ d.generics, (rosterOf T results declared p).typed g.tag Ty.witness := by
    refine fun d member g generic => Or.inr ⟨?_, rfl⟩
    rw [inside.structs] at member
    rcases List.mem_append.mp member with source | made
    · exact List.mem_append_left _ (List.mem_flatMap.mpr ⟨d, source, List.mem_map_of_mem generic⟩)
    · obtain ⟨⟨gs, cs, shape, -, within⟩, -⟩ := inside.made d made
      rw [shape] at generic
      exact List.mem_append_right _ (within (List.mem_map_of_mem generic))
  rw [measureWithin] at done
  dsimp only at done
  rw [Except.bind_eq_ok] at done
  obtain ⟨⟨structs, s₁⟩, first, done⟩ := done
  rw [Except.bind_eq_ok] at done
  obtain ⟨⟨functions, s₂⟩, second, done⟩ := done
  obtain rfl := Except.ok.inj done
  obtain ⟨allS, follows⟩ := eachDefinition_keeps (fun d member => by
    rw [builder?_of_scoped inside member]
    exact struct_kept fits member (own.structs d member) (generics d member))
    (State.Follows.mk (List.forall_mem_nil _) (List.forall_mem_nil _) (List.forall_mem_nil _)) first
  obtain ⟨allF, follows⟩ := eachDefinition_keeps (fun f member => by
    obtain ⟨result, params, gs, scope⟩ := inside.functions f member
    refine function_kept fits (fun i => Or.inr) scope (own.functions f member) (reads f member)
      (fun b bound => Or.inl (List.mem_flatMap.mpr ⟨f, member, bound⟩)) fun tag generic => Or.inr ⟨?_, rfl⟩
    exact List.mem_append_right _ (List.mem_flatMap.mpr ⟨f, member, generic⟩)) follows second
  exact ⟨allS, allF, follows.instances⟩

end Programs

end Sized

end WitnessLang
