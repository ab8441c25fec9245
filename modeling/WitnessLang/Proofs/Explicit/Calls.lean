import WitnessLang.Proofs.Explicit.Program
import WitnessLang.Proofs.Typed.Reads
import WitnessLang.Proofs.Typed.Spelled
import WitnessLang.Proofs.Types.Formed

set_option autoImplicit false

namespace WitnessLang

/-- A call of a function: the types of the values that are passed, what is given for the type parameters,
and the type of the result. -/
structure Call (D : Type) where
  function : Ident
  args : List Ty
  given : List D
  type : Ty

/-- The same call with something else given for the type parameters. -/
def Call.map {D E : Type} (f : D → E) (k : Call D) : Call E := ⟨k.function, k.args, k.given.map f, k.type⟩

namespace Typed

mutual

/-- The calls of functions in an expression, those inside closures included. -/
def Expr.calls : Expr → List (Call Ty)
  | .number _ _ _ | .bool _ _ | .var _ _ _ => []
  | .callDirect _ type function generics args => ⟨function, args.map (·.type), generics, type⟩ :: callsAll args
  | .callClosure _ _ callee args => callee.calls ++ callsAll args
  | .operation _ _ left right => left.calls ++ right.calls
  | .record _ _ _ fields => fieldCalls fields
  | .block _ lets result => letCalls lets ++ result.calls
  | .cond _ test yes no => test.calls ++ (yes.calls ++ no.calls)
  | .closure _ _ _ body => body.calls

def Expr.callsAll : List Expr → List (Call Ty)
  | [] => []
  | e :: rest => e.calls ++ callsAll rest

def Expr.fieldCalls : List FieldInit → List (Call Ty)
  | [] => []
  | ⟨_, value⟩ :: rest => value.calls ++ fieldCalls rest

def Expr.letCalls : List Let → List (Call Ty)
  | [] => []
  | ⟨_, value⟩ :: rest => value.calls ++ letCalls rest

end

section Lists

theorem callsAll_eq_flatMap (es : List Expr) : Expr.callsAll es = es.flatMap (·.calls) := by
  induction es with
  | nil => rfl
  | cons e rest ih => rw [Expr.callsAll, ih, List.flatMap_cons]

theorem fieldCalls_eq_flatMap (fs : List FieldInit) : Expr.fieldCalls fs = fs.flatMap (·.value.calls) := by
  induction fs with
  | nil => rfl
  | cons f rest ih =>
    cases f
    rw [Expr.fieldCalls, ih, List.flatMap_cons]

theorem letCalls_eq_flatMap (bs : List Let) : Expr.letCalls bs = bs.flatMap (·.value.calls) := by
  induction bs with
  | nil => rfl
  | cons b rest ih =>
    cases b
    rw [Expr.letCalls, ih, List.flatMap_cons]

end Lists

end Typed

/-- A call that a signature admits: a type is given for each type parameter, and with these types the values
and the result have the types of the signature. -/
structure Call.Instantiates (k : Call Ty) (f : Typed.Signature) : Prop where
  given : k.given.length = f.generics.length
  args : List.Forall₂ Ty.Alike k.args (f.params.map (·.substitute (Typed.instantiation f.generics k.given)))
  type : k.type = f.result.substitute (Typed.instantiation f.generics k.given)

namespace Typed

section Rules

variable {g : Globals}

theorem args_alike {env : Env} {es : List Expr} {ts : List Ty} (typed : Expr.ArgsTyped g env es ts) :
    List.Forall₂ Ty.Alike (es.map (·.type)) ts := by
  induction es generalizing ts with
  | nil =>
    obtain rfl : ts = [] := typed
    exact .nil
  | cons e rest ih =>
    cases ts with
    | nil => exact typed.elim
    | cons t ts => exact .cons typed.2.1 (ih typed.2.2)

/-- The calls in a well-typed expression are those that signatures admit. -/
theorem Expr.WellTyped.calls {e : Expr} {env : Env} (typed : e.WellTyped g env) :
    ∀ k ∈ e.calls, ∃ f, g.function? k.function = some f ∧ k.Instantiates f := by
  induction e generalizing env with
  | number | bool | var => exact List.forall_mem_nil _
  | callDirect span type function generics args ih =>
    obtain ⟨f, known, length, result, args⟩ := typed
    rw [Expr.calls, List.forall_mem_cons, callsAll_eq_flatMap, List.forall_mem_flatMap]
    exact ⟨⟨f, known, length, args_alike args, result⟩, fun a member => ih a member (wellTyped_of_args args a member)⟩
  | callClosure span type callee args ihCallee ih =>
    obtain ⟨callee, params, -, args⟩ := typed
    rw [Expr.calls, List.forall_mem_append, callsAll_eq_flatMap, List.forall_mem_flatMap]
    exact ⟨ihCallee callee, fun a member => ih a member (wellTyped_of_args args a member)⟩
  | operation span op left right ihLeft ihRight =>
    rw [Expr.calls, List.forall_mem_append]
    exact ⟨ihLeft typed.1, ihRight typed.2.1⟩
  | record span name args fields ih =>
    obtain ⟨s, -, -, fields⟩ := typed
    rw [Expr.calls, fieldCalls_eq_flatMap, List.forall_mem_flatMap]
    exact fun f member => ih f member (wellTyped_of_fields fields f member)
  | block span lets result ih ihResult =>
    rw [Expr.calls, List.forall_mem_append, letCalls_eq_flatMap, List.forall_mem_flatMap]
    refine ⟨?_, ihResult typed.2⟩
    obtain ⟨bound, -⟩ := typed
    induction lets generalizing env with
    | nil => exact List.forall_mem_nil _
    | cons b rest ihRest =>
      obtain ⟨p, value⟩ := b
      rw [List.forall_mem_cons] at ih ⊢
      exact ⟨ih.1 bound.1, ihRest ih.2 bound.2.2⟩
  | cond span test yes no ihTest ihYes ihNo =>
    rw [Expr.calls, List.forall_mem_append, List.forall_mem_append]
    exact ⟨ihTest typed.1, ihYes typed.2.1, ihNo typed.2.2.1⟩
  | closure span params captures body ih => exact ih typed.2.1

/-- What is given for type parameters is among the types of an expression. -/
theorem Expr.calls_given (e : Expr) : ∀ k ∈ e.calls, k.given ⊆ e.types := by
  induction e with
  | number | bool | var => exact List.forall_mem_nil _
  | callDirect span type function generics args ih =>
    rw [Expr.calls, List.forall_mem_cons, callsAll_eq_flatMap, List.forall_mem_flatMap]
    refine ⟨fun t member => ?_, fun a inside k call t member => ?_⟩
    · exact List.mem_cons_of_mem _ (List.mem_append_left _ member)
    · refine List.mem_cons_of_mem _ (List.mem_append_right _ ?_)
      rw [typesAll_eq_flatMap]
      exact List.mem_flatMap.mpr ⟨a, inside, ih a inside k call member⟩
  | callClosure span type callee args ihCallee ih =>
    rw [Expr.calls, List.forall_mem_append, callsAll_eq_flatMap, List.forall_mem_flatMap]
    refine ⟨fun k call t member => ?_, fun a inside k call t member => ?_⟩
    · exact List.mem_cons_of_mem _ (List.mem_append_left _ (ihCallee k call member))
    · refine List.mem_cons_of_mem _ (List.mem_append_right _ ?_)
      rw [typesAll_eq_flatMap]
      exact List.mem_flatMap.mpr ⟨a, inside, ih a inside k call member⟩
  | operation span op left right ihLeft ihRight =>
    rw [Expr.calls, List.forall_mem_append]
    exact ⟨fun k call t member => List.mem_cons_of_mem _ (List.mem_append_left _ (ihLeft k call member)),
      fun k call t member => List.mem_cons_of_mem _ (List.mem_append_right _ (ihRight k call member))⟩
  | record span name args fields ih =>
    rw [Expr.calls, fieldCalls_eq_flatMap, List.forall_mem_flatMap]
    refine fun f inside k call t member => List.mem_cons_of_mem _ (List.mem_append_right _ ?_)
    rw [fieldTypes_eq_flatMap]
    exact List.mem_flatMap.mpr ⟨f, inside, ih f inside k call member⟩
  | block span lets result ih ihResult =>
    rw [Expr.calls, List.forall_mem_append, letCalls_eq_flatMap, List.forall_mem_flatMap]
    refine ⟨fun b inside k call t member => List.mem_cons_of_mem _ (List.mem_append_left _ ?_),
      fun k call t member => List.mem_cons_of_mem _ (List.mem_append_right _ (ihResult k call member))⟩
    rw [letTypes_eq_flatMap]
    exact List.mem_flatMap.mpr ⟨b, inside, List.mem_append_right _ (ih b inside k call member)⟩
  | cond span test yes no ihTest ihYes ihNo =>
    rw [Expr.calls, List.forall_mem_append, List.forall_mem_append]
    exact ⟨fun k call t member => List.mem_cons_of_mem _
        (List.mem_append_left _ (List.mem_append_left _ (ihTest k call member))),
      fun k call t member => List.mem_cons_of_mem _
        (List.mem_append_left _ (List.mem_append_right _ (ihYes k call member))),
      fun k call t member => List.mem_cons_of_mem _ (List.mem_append_right _ (ihNo k call member))⟩
  | closure span params captures body ih =>
    exact fun k call t member => List.mem_cons_of_mem _ (List.mem_append_right _ (ih k call member))

/-- The calls in an expression give types that are spelled as the program spells them. -/
theorem Expr.Spelled.calls {S : Spelling} {e : Expr} (own : e.Spelled S) : ∀ k ∈ e.calls, ∀ t ∈ k.given, t.Spelled S := by
  induction e with
  | number | bool | var => exact List.forall_mem_nil _
  | callDirect span type function generics args ih =>
    rw [Expr.calls, List.forall_mem_cons, callsAll_eq_flatMap, List.forall_mem_flatMap]
    exact ⟨own.2.2.1, fun a member => ih a member (spelledAll_iff.mp own.2.2.2 a member)⟩
  | callClosure span type callee args ihCallee ih =>
    rw [Expr.calls, List.forall_mem_append, callsAll_eq_flatMap, List.forall_mem_flatMap]
    exact ⟨ihCallee own.2.1, fun a member => ih a member (spelledAll_iff.mp own.2.2 a member)⟩
  | operation span op left right ihLeft ihRight =>
    rw [Expr.calls, List.forall_mem_append]
    exact ⟨ihLeft own.1, ihRight own.2⟩
  | record span name args fields ih =>
    rw [Expr.calls, fieldCalls_eq_flatMap, List.forall_mem_flatMap]
    exact fun f member => ih f member (fieldsSpelled_iff.mp own.2.2 f member)
  | block span lets result ih ihResult =>
    rw [Expr.calls, List.forall_mem_append, letCalls_eq_flatMap, List.forall_mem_flatMap]
    exact ⟨fun b member => ih b member (letsSpelled_iff.mp own.1 b member).2, ihResult own.2⟩
  | cond span test yes no ihTest ihYes ihNo =>
    rw [Expr.calls, List.forall_mem_append, List.forall_mem_append]
    exact ⟨ihTest own.1, ihYes own.2.1, ihNo own.2.2⟩
  | closure span params captures body ih => exact ih own.2.2

end Rules

/-- A call in a program that follows the rules is one of a function of the program, found by its tag. -/
theorem Program.WellTyped.calls {p : Program} (typed : p.WellTyped) {f : Function} (member : f ∈ p.functions) :
    ∀ k ∈ f.body.calls, ∃ h, p.functions.find? (fun h => h.name.tag == k.function.tag) = some h ∧
      k.Instantiates h.signature := by
  intro k call
  obtain ⟨s, known, admits⟩ := (typed.functions f member).body.calls k call
  rw [Globals.function?, Program.globals, List.find?_map, Option.map_eq_some_iff] at known
  obtain ⟨h, found, rfl⟩ := known
  exact ⟨h, found, admits⟩

end Typed

/-- What a function is to its callers, and which calls it makes itself. -/
structure Callable where
  name : Ident
  arguments : List Explicit.Argument
  calls : List (Call WitnessExpr)

section Descriptions

mutual

/-- The constructors that a description is built with, each with how many descriptions it is applied to. -/
def WitnessExpr.applied : WitnessExpr → List (Ident × Nat)
  | .var _ => []
  | .build constructor args => (constructor, args.length) :: appliedAll args

/-- The constructors of several descriptions. -/
def WitnessExpr.appliedAll : List WitnessExpr → List (Ident × Nat)
  | [] => []
  | w :: rest => w.applied ++ appliedAll rest

end

theorem WitnessExpr.appliedAll_eq_flatMap (ws : List WitnessExpr) : appliedAll ws = ws.flatMap applied := by
  induction ws with
  | nil => rfl
  | cons w rest ih => rw [appliedAll, ih, List.flatMap_cons]

/-- How many descriptions a constructor is applied to, where the structs with some numbers of type parameters
are known: none for numbers and truth values, one for each type parameter of a struct, and one for each
parameter of a function and for its result. -/
inductive Constructs (structs : List (Ident × Nat)) : Ident → Nat → Prop
  | basic {i : Ident} (kind : i.tag = .float ∨ i.tag = .bool ∨ i.tag = .witness) : Constructs structs i 0
  | struct {i : Ident} {d : Ident × Nat} (known : d ∈ structs) (same : d.1.tag = i.tag) : Constructs structs i d.2
  | func {n : Nat} : Constructs structs (functionWitness n) (n + 1)

/-- A description that is built as its constructors ask for. -/
def WitnessExpr.Built (structs : List (Ident × Nat)) (w : WitnessExpr) : Prop :=
  ∀ k ∈ w.applied, Constructs structs k.1 k.2

variable {structs : List (Ident × Nat)}

theorem WitnessExpr.built_build {constructor : Ident} {args : List WitnessExpr} :
    (WitnessExpr.build constructor args).Built structs ↔
      Constructs structs constructor args.length ∧ ∀ w ∈ args, w.Built structs := by
  rw [Built, applied, List.forall_mem_cons, appliedAll_eq_flatMap, List.forall_mem_flatMap]
  rfl

/-- The description of a type that is made of known structs. -/
theorem Ty.Formed.built {arity : Arity} (known : ∀ tag n, arity tag = some n →
      (tag = .float ∨ tag = .bool ∨ tag = .witness) ∧ n = 0 ∨ ∃ d ∈ structs, d.1.tag = tag ∧ d.2 = n)
    {generics : List Tag} {t : Ty} (formed : t.Formed arity generics []) : t.witnessExpr.Built structs := by
  induction t with
  | named name args ih =>
    obtain ⟨applied, parts⟩ := Ty.formed_named.mp formed
    rw [witnessExpr_named, WitnessExpr.built_build, List.length_map, List.forall_mem_map]
    refine ⟨?_, fun t member => ih t member (parts t member)⟩
    rcases known _ _ applied with ⟨kind, none⟩ | ⟨d, member, same, count⟩
    · exact none ▸ .basic kind
    · exact count ▸ .struct member same
  | generic name => exact List.forall_mem_nil _
  | func args result ih ihResult =>
    obtain ⟨parts, last⟩ := Ty.formed_func.mp formed
    rw [witnessExpr_func, WitnessExpr.built_build, List.length_append, List.length_map,
      List.forall_mem_append, List.forall_mem_map]
    exact ⟨.func, fun t member => ih t member (parts t member), List.forall_mem_singleton.mpr (ihResult last)⟩
  | cell c => exact List.forall_mem_nil _

end Descriptions

namespace Explicit

mutual

/-- The calls of functions in an expression, those inside closures included. -/
def Expr.calls : Expr → List (Call WitnessExpr)
  | .var _ _ _ | .number _ _ _ | .bool _ _ => []
  | .callDirect _ type function args witnesses => ⟨function, args.map (·.type), witnesses, type⟩ :: callsAll args
  | .callClosure _ _ callee args => callee.calls ++ callsAll args
  | .primitive _ _ left right => left.calls ++ right.calls
  | .block _ lets result => letCalls lets ++ result.calls
  | .pack _ _ _ fields => fieldCalls fields
  | .unpack _ _ value _ => value.calls
  | .cond _ test yes no => test.calls ++ (yes.calls ++ no.calls)
  | .closure _ _ _ _ _ body => body.calls

def Expr.callsAll : List Expr → List (Call WitnessExpr)
  | [] => []
  | e :: rest => e.calls ++ callsAll rest

def Expr.fieldCalls : List PackField → List (Call WitnessExpr)
  | [] => []
  | ⟨_, value⟩ :: rest => value.calls ++ fieldCalls rest

def Expr.letCalls : List Let → List (Call WitnessExpr)
  | [] => []
  | ⟨_, _, value⟩ :: rest => value.calls ++ letCalls rest

end

section Bindings

theorem letCalls_append (bs cs : List Let) : Expr.letCalls (bs ++ cs) = Expr.letCalls bs ++ Expr.letCalls cs := by
  induction bs with
  | nil => rfl
  | cons b rest ih =>
    cases b
    rw [List.cons_append, Expr.letCalls, Expr.letCalls, ih, List.append_assoc]

theorem calls_withLets {lets : List Let} {body : Expr} :
    (withLets lets body).calls = Expr.letCalls lets ++ body.calls := by
  cases lets with
  | nil => rfl
  | cons => rfl

/-- Taking a value apart calls nothing. -/
theorem unpackFields_calls {span : Span} {type : Ty} {source : Ident} {fs : List Typed.FieldPattern}
    (each : ∀ f ∈ fs, ∀ value s, Leaves (bindValue f.pattern value) s fun lets _ => Expr.letCalls lets = value.calls)
    (s : Supply) : Leaves (unpackFields span type source fs) s fun lets _ => Expr.letCalls lets = [] := by
  induction fs generalizing s with
  | nil =>
    rw [unpackFields, leaves_pure]
    rfl
  | cons f rest ih =>
    obtain ⟨name, p⟩ := f
    rw [List.forall_mem_cons] at each
    rw [unpackFields, leaves_bind]
    refine (each.1 _ s).imp fun lets s₁ first => ?_
    rw [leaves_bind]
    refine (ih each.2 s₁).imp fun more s₂ others => ?_
    rw [leaves_pure, letCalls_append, first, others]
    rfl

theorem bindValue_calls (p : Typed.Pattern) (value : Expr) (s : Supply) :
    Leaves (bindValue p value) s fun lets _ => Expr.letCalls lets = value.calls := by
  induction p generalizing value s with
  | var span name type =>
    rw [bindValue, leaves_pure]
    exact List.append_nil _
  | record span name type fields ih =>
    have named : Leaves temporary s fun _ _ => True := trivial
    rw [bindValue, leaves_bind]
    refine named.imp fun t s₁ _ => ?_
    rw [leaves_bind]
    refine (unpackFields_calls ih s₁).imp fun lets s₂ none => ?_
    rw [leaves_pure, Expr.letCalls, none, List.append_nil]

/-- What a parameter becomes: an argument of its type that is only read. A variable keeps its name. -/
structure Argument.Takes (a : Argument) (p : Typed.Param) : Prop where
  type : a.type = p.type
  convention : a.convention = .borrowed
  name : ∀ span name type, p.pattern = .var span name type → a.name = name

/-- Parameters become as many arguments, and taking them apart calls nothing. -/
theorem bindParams_calls (ps : List Typed.Param) (s : Supply) : Leaves (bindParams ps) s fun made _ =>
    List.Forall₂ (fun p a => Argument.Takes a p) ps made.1 ∧ Expr.letCalls made.2 = [] := by
  have bound : ∀ (p : Typed.Pattern) s, Leaves (bindParam p) s fun made _ =>
      (∀ span own type, p = .var span own type → made.1 = own) ∧ Expr.letCalls made.2 = [] := by
    intro p s
    cases p with
    | var span name type =>
      rw [bindParam, leaves_pure]
      exact ⟨fun _ _ _ same => (Typed.Pattern.var.inj same).2.1, rfl⟩
    | record span name type fields =>
      have named : Leaves temporary s fun _ _ => True := trivial
      rw [bindParam, leaves_bind]
      refine named.imp fun t s₁ _ => ?_
      rw [leaves_bind]
      refine (unpackFields_calls (fun f _ => bindValue_calls f.pattern) s₁).imp fun lets s₂ none => ?_
      rw [leaves_pure]
      exact ⟨fun _ _ _ same => (by cases same), none⟩
  induction ps generalizing s with
  | nil =>
    rw [bindParams, leaves_pure]
    exact ⟨.nil, rfl⟩
  | cons p rest ih =>
    rw [bindParams, leaves_bind]
    refine (bound p.pattern s).imp fun made s₁ first => ?_
    obtain ⟨name, lets⟩ := made
    obtain ⟨own, none⟩ := first
    rw [leaves_bind]
    refine (ih s₁).imp fun made s₂ post => ?_
    obtain ⟨args, more⟩ := made
    obtain ⟨others, none'⟩ := post
    rw [leaves_pure]
    exact ⟨.cons ⟨rfl, rfl, own⟩ others, by rw [letCalls_append, none, none', List.append_nil]⟩

end Bindings

/-- What an expression becomes: it keeps its type, and its calls pass the descriptions of the types that they
were given. -/
def KeepsCalls (e : Typed.Expr) : Prop :=
  ∀ s, Leaves (expr e) s fun e' _ => e'.type = e.type ∧ e'.calls = e.calls.map (·.map Ty.witnessExpr)

section Expressions

theorem exprs_calls {es : List Typed.Expr} (each : ∀ e ∈ es, KeepsCalls e) (s : Supply) :
    Leaves (exprs es) s fun es' _ => es'.map (·.type) = es.map (·.type) ∧
      Expr.callsAll es' = (Typed.Expr.callsAll es).map (·.map Ty.witnessExpr) := by
  induction es generalizing s with
  | nil =>
    rw [exprs, leaves_pure]
    exact ⟨rfl, rfl⟩
  | cons e rest ih =>
    rw [List.forall_mem_cons] at each
    rw [exprs, leaves_bind]
    refine (each.1 s).imp fun e' s₁ first => ?_
    rw [leaves_bind]
    refine (ih each.2 s₁).imp fun rest' s₂ others => ?_
    rw [leaves_pure, List.map_cons, List.map_cons, Expr.callsAll, Typed.Expr.callsAll, List.map_append]
    exact ⟨congrArg₂ _ first.1 others.1, congrArg₂ _ first.2 others.2⟩

theorem packFields_calls {fs : List Typed.FieldInit} (each : ∀ f ∈ fs, KeepsCalls f.value) (s : Supply) :
    Leaves (packFields fs) s fun fs' _ =>
      Expr.fieldCalls fs' = (Typed.Expr.fieldCalls fs).map (·.map Ty.witnessExpr) := by
  induction fs generalizing s with
  | nil =>
    rw [packFields, leaves_pure]
    rfl
  | cons f rest ih =>
    obtain ⟨name, value⟩ := f
    rw [List.forall_mem_cons] at each
    rw [packFields, leaves_bind]
    refine (each.1 s).imp fun e' s₁ first => ?_
    rw [leaves_bind]
    refine (ih each.2 s₁).imp fun rest' s₂ others => ?_
    rw [leaves_pure, Expr.fieldCalls, Typed.Expr.fieldCalls, List.map_append]
    exact congrArg₂ _ first.2 others

theorem lets_calls {bs : List Typed.Let} (each : ∀ b ∈ bs, KeepsCalls b.value) (s : Supply) :
    Leaves (lets bs) s fun bs' _ => Expr.letCalls bs' = (Typed.Expr.letCalls bs).map (·.map Ty.witnessExpr) := by
  induction bs generalizing s with
  | nil =>
    rw [lets, leaves_pure]
    rfl
  | cons b rest ih =>
    obtain ⟨p, value⟩ := b
    rw [List.forall_mem_cons] at each
    rw [lets, leaves_bind]
    refine (each.1 s).imp fun e' s₁ first => ?_
    rw [leaves_bind]
    refine (bindValue_calls p e' s₁).imp fun bound s₂ own => ?_
    rw [leaves_bind]
    refine (ih each.2 s₂).imp fun rest' s₃ others => ?_
    rw [leaves_pure, letCalls_append, Typed.Expr.letCalls, List.map_append, own]
    exact congrArg₂ _ first.2 others

/-- Making type arguments explicit keeps every call. -/
theorem expr_calls (e : Typed.Expr) : KeepsCalls e := by
  induction e with
  | number | bool | var =>
    intro s
    rw [expr, leaves_pure]
    exact ⟨rfl, rfl⟩
  | callDirect span type function generics args ih =>
    intro s
    rw [expr, leaves_bind]
    refine (exprs_calls ih s).imp fun args' s₁ post => ?_
    rw [leaves_pure, Expr.calls, Typed.Expr.calls, List.map_cons, post.1, post.2]
    exact ⟨rfl, rfl⟩
  | callClosure span type callee args ihCallee ih =>
    intro s
    rw [expr, leaves_bind]
    refine (ihCallee s).imp fun callee' s₁ first => ?_
    rw [leaves_bind]
    refine (exprs_calls ih s₁).imp fun args' s₂ post => ?_
    rw [leaves_pure, Expr.calls, Typed.Expr.calls, List.map_append, first.2, post.2]
    exact ⟨rfl, rfl⟩
  | operation span op left right ihLeft ihRight =>
    intro s
    rw [expr, leaves_bind]
    refine (ihLeft s).imp fun left' s₁ first => ?_
    rw [leaves_bind]
    refine (ihRight s₁).imp fun right' s₂ second => ?_
    rw [leaves_pure, Expr.calls, Typed.Expr.calls, List.map_append, first.2, second.2]
    exact ⟨rfl, rfl⟩
  | record span name args fields ih =>
    intro s
    rw [expr, leaves_bind]
    refine (packFields_calls ih s).imp fun fields' s₁ post => ?_
    rw [leaves_pure]
    exact ⟨rfl, post⟩
  | block span bs result ih ihResult =>
    intro s
    rw [expr, leaves_bind]
    refine (lets_calls ih s).imp fun bs' s₁ first => ?_
    rw [leaves_bind]
    refine (ihResult s₁).imp fun result' s₂ last => ?_
    rw [leaves_pure, Expr.calls, Typed.Expr.calls, List.map_append, first, last.2]
    exact ⟨last.1, rfl⟩
  | cond span test yes no ihTest ihYes ihNo =>
    intro s
    rw [expr, leaves_bind]
    refine (ihTest s).imp fun test' s₁ first => ?_
    rw [leaves_bind]
    refine (ihYes s₁).imp fun yes' s₂ second => ?_
    rw [leaves_bind]
    refine (ihNo s₂).imp fun no' s₃ third => ?_
    rw [leaves_pure, Expr.calls, Typed.Expr.calls, List.map_append, List.map_append, first.2, second.2, third.2]
    exact ⟨second.1, rfl⟩
  | closure span ps cs body ih =>
    intro s
    rw [expr, leaves_bind]
    refine (bindParams_calls ps s).imp fun made s₁ post => ?_
    obtain ⟨params, unpacked⟩ := made
    obtain ⟨arguments, none⟩ := post
    rw [leaves_bind]
    have added : ∀ generics captures, Leaves (addEnvironment span generics captures) s₁ fun _ _ => True :=
      fun _ _ => trivial
    refine (added _ _).imp fun env s₂ _ => ?_
    rw [leaves_bind]
    refine (ih s₂).imp fun body' s₃ last => ?_
    rw [leaves_pure]
    refine ⟨?_, ?_⟩
    · rw [Expr.type, Typed.Expr.type, type_withLets, last.1]
      exact congrArg₂ _ (map_eq_of_forall₂ arguments fun p a own => own.type) rfl
    · rw [Expr.calls, Typed.Expr.calls, calls_withLets, none, last.2]
      rfl

end Expressions

def Function.callable (f : Function) : Callable := ⟨f.name, f.arguments, f.body.calls⟩

/-- What a function becomes: its arguments are the result, the parameters, and a description for each type
parameter in their order, and its calls pass the descriptions of the types that they were given. -/
structure Takes (f : Typed.Function) (g : Callable) : Prop where
  name : g.name = f.name
  arguments : ∃ result params, g.arguments =
    ⟨result, f.result, .out⟩ :: params ++ f.generics.map (⟨·, Ty.witness, .borrowed⟩) ∧
    result.mangled = "_result" ∧ List.Forall₂ (fun p a => Argument.Takes a p) f.params params
  calls : g.calls = f.body.calls.map (·.map Ty.witnessExpr)

theorem function_calls (f : Typed.Function) (s : Supply) :
    Leaves (function f) s fun f' _ => Takes f f'.callable := by
  have named : Leaves (synthetic "_result") s fun r _ => r.mangled = "_result" := by
    rw [synthetic, leaves_get_bind, leaves_modify_bind, leaves_pure]
    rfl
  rw [function, leaves_bind]
  refine named.imp fun result s₁ name => ?_
  rw [leaves_bind]
  refine (bindParams_calls f.params s₁).imp fun made s₂ post => ?_
  obtain ⟨params, unpacked⟩ := made
  obtain ⟨arguments, none⟩ := post
  rw [leaves_bind]
  refine (expr_calls f.body s₂).imp fun body s₃ last => ?_
  rw [leaves_pure]
  refine ⟨rfl, ⟨result, params, rfl, name, arguments⟩, ?_⟩
  rw [Function.callable, calls_withLets, none, last.2, List.nil_append]

theorem functions_calls (fs : List Typed.Function) (s : Supply) : Leaves (fs.mapM function) s fun fs' _ =>
    List.Forall₂ (fun f f' => Takes f f'.callable) fs fs' := by
  induction fs generalizing s with
  | nil =>
    rw [List.mapM_nil, leaves_pure]
    exact .nil
  | cons f rest ih =>
    rw [List.mapM_cons, leaves_bind]
    refine (function_calls f s).imp fun f' s₁ first => ?_
    rw [leaves_bind]
    refine (ih s₁).imp fun rest' s₂ others => ?_
    rw [leaves_pure]
    exact .cons first others

/-- Every function of a program takes descriptions for its type parameters, and its calls pass them. -/
theorem pass_calls (p : Typed.Program) :
    List.Forall₂ (fun f f' => Takes f f'.callable) p.functions (pass p).functions := by
  have work : Leaves (do
      p.structs.forM fun d => addStruct (structOf d)
      p.functions.mapM function : Pass (List Function)) {} fun fs _ =>
        List.Forall₂ (fun f f' => Takes f f'.callable) p.functions fs := by
    rw [leaves_bind]
    exact addStructs_leaves.imp fun _ s _ => functions_calls p.functions s
  exact work

end Explicit

end WitnessLang
