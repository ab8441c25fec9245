import WitnessLang.Proofs.Ir.Codes
import WitnessLang.Proofs.Ir.Program
import WitnessLang.Proofs.Ir.Draft
import WitnessLang.Proofs.Sized.Kept

set_option autoImplicit false

namespace WitnessLang.Ir

open Ownership (branches mem_flatten_self flattenAll_cons flatten_plain flatten_cond Flows givenArguments)

/-- The variable that an instruction takes out of an environment, and the field it stands in. -/
def unpackFrom? (env : VarId) : Instr → Option (VarId × String)
  | .unpack x src field => if src = env then some (x, field) else none
  | _ => none

/-- The struct of an environment has a field for each variable that is taken along. -/
structure Environment (d : Struct) (env : Ident) (taken : List Sized.Variable) : Prop where
  name : d.name = env.mangled
  fields : d.fields.map (fun f => (f.name, f.type)) = taken.map fun v => (v.name.mangled, v.shape.type)

/-- A function makes a closure of copies of its own variables. -/
def Function.Makes (g L : Function) (env : Ident) (taken : List Sized.Variable) : Prop :=
  ∃ (dst e : VarId) (xs : List VarId),
    [.pack e env.mangled (List.zipWith (fun v x => ⟨v.name.mangled, copyOf x⟩) taken xs),
      .makeClosure dst L.name ⟨.move, e⟩] <:+: Instr.flattenAll g.body ∧ g.Has e ∧
    List.Forall₂ (fun v x => g.Has x ∧ Entered g.vars x v.name.mangled v.shape.type) taken xs

/-- A function takes the environment of a closure apart, outside of all branches and each variable before it is
mentioned anywhere else, and mentions no variables but its own. -/
structure Function.TakesApart (L : Function) (params taken : List Sized.Variable) (envType result : Ty) : Prop where
  environment : ∃ (r env : VarId) (ys zs : List VarId), Entered L.vars r "_result" result ∧
    Entered L.vars env "_env" envType ∧
    List.Forall₂ (fun v y => Entered L.vars y v.name.mangled v.shape.type) params ys ∧
    L.arguments = ⟨r, .out⟩ :: (ys ++ [env]).map (⟨·, .borrowed⟩) ∧
    L.body.filterMap (unpackFrom? env) = zs.zip (taken.map (·.name.mangled)) ∧
    (Instr.flattenAll L.body).filterMap (unpackFrom? env) = L.body.filterMap (unpackFrom? env) ∧
    List.Forall₂ (fun v z => L.Has z ∧ Entered L.vars z v.name.mangled v.shape.type) taken zs
  first : ∀ front x src field back, L.body = front ++ Instr.unpack x src field :: back →
    ∀ i ∈ Instr.flattenAll front, x ∉ i.operands
  own : ∀ i ∈ Instr.flattenAll L.body, ∀ v ∈ i.operands, L.Has v

mutual

/-- Every closure of an expression is made in a function and has a function of its own, in which the closures of its
body are made. -/
def Converted (p : Program) : Sized.Expr → Function → Prop
  | .var _ _, _ | .number _ _ _, _ | .bool _ _, _ => True
  | .callDirect _ _ args _, g => ConvertedAll p args g
  | .callClosure _ callee args, g => Converted p callee g ∧ ConvertedAll p args g
  | .primitive _ _ left right, g => Converted p left g ∧ Converted p right g
  | .block _ bs result, g => ConvertedLets p bs g ∧ Converted p result g
  | .pack _ _ fields, g => ConvertedFields p fields g
  | .unpack _ value _, g => Converted p value g
  | .cond _ test yes no, g => Converted p test g ∧ Converted p yes g ∧ Converted p no g
  | .closure _ params generics captures env envShape body, g => (∀ v ∈ generics, v.shape.type = Ty.witness) ∧
    ∃ d ∈ p.structs, ∃ L ∈ p.functions, Environment d env (generics ++ captures) ∧
      g.Makes L env (generics ++ captures) ∧
      L.TakesApart params (generics ++ captures) envShape.type body.shape.type ∧ Converted p body L

def ConvertedAll (p : Program) : List Sized.Expr → Function → Prop
  | [], _ => True
  | e :: rest, g => Converted p e g ∧ ConvertedAll p rest g

def ConvertedFields (p : Program) : List Sized.PackField → Function → Prop
  | [], _ => True
  | ⟨_, value⟩ :: rest, g => Converted p value g ∧ ConvertedFields p rest g

def ConvertedLets (p : Program) : List Sized.Let → Function → Prop
  | [], _ => True
  | ⟨_, value⟩ :: rest, g => Converted p value g ∧ ConvertedLets p rest g

end

/-- The environment of a closure, and what it takes along. -/
def enclosed? : Sized.Expr → Option (Ident × List Sized.Variable)
  | .closure _ _ generics captures env _ _ => some (env, generics ++ captures)
  | _ => none

/-- The environment of a converted closure has a struct. -/
theorem Converted.environment {p : Program} {e : Sized.Expr} {g : Function} {env : Ident} {taken : List Sized.Variable}
    (converted : Converted p e g) (encloses : enclosed? e = some (env, taken)) :
    ∃ d ∈ p.structs, Environment d env taken := by
  cases e with
  | closure =>
    obtain ⟨rfl, rfl⟩ := Prod.mk.inj (Option.some.inj encloses)
    obtain ⟨-, d, inside, L, -, environment, -⟩ := converted
    exact ⟨d, inside, environment⟩
  | _ => cases encloses

section Unpacks

variable {F : List Function} {vs : Variables} {env : VarId} {m m' : Mark} {is js : Block}

/-- Code without branches that takes some variables out of an environment. -/
structure Unpacks (env : VarId) (is : Block) (taken : List (VarId × String)) : Prop where
  plain : Instr.flattenAll is = is
  taken : is.filterMap (unpackFrom? env) = taken

theorem Unpacks.append {us ws : List (VarId × String)} (first : Unpacks env is us) (second : Unpacks env js ws) :
    Unpacks env (is ++ js) (us ++ ws) :=
  ⟨by rw [flattenAll_append, first.plain, second.plain], by rw [List.filterMap_append, first.taken, second.taken]⟩

theorem Quiet.unpacks (quiet : Quiet vs is) : Unpacks env is [] := by
  induction is with
  | nil => exact ⟨rfl, rfl⟩
  | cons i rest ih =>
    obtain ⟨⟨function, dst, args, rfl, -⟩, others⟩ := List.forall_mem_cons.mp quiet
    have behind := ih others
    have first : Unpacks env [.callDirect function (callArgs dst args)] [] := ⟨rfl, rfl⟩
    exact first.append behind

/-- Captured variables are taken out of the environment under their names. -/
theorem DeclaresAll.unpacks {us : List Sized.Variable} {xs : List VarId}
    (all : DeclaresAll vs (unpacked env) us m is xs m') : Unpacks env is (xs.zip (us.map (·.name.mangled))) := by
  induction us generalizing m is xs with
  | nil =>
    cases all
    exact ⟨rfl, rfl⟩
  | cons u rest ih =>
    cases all with
    | @cons _ _ _ is x _ js xs _ first others =>
      have own : Unpacks env (unpacked env u x) [(x, u.name.mangled)] := ⟨rfl, by simp [unpacked, unpackFrom?]⟩
      exact (first.adds.quiet.unpacks.append own).append (ih others)

/-- Code that takes nothing out of an environment. -/
def Spares (env : VarId) (is : Block) : Prop := ∀ i ∈ Instr.flattenAll is, unpackFrom? env i = none

theorem Spares.append (first : Spares env is) (second : Spares env js) : Spares env (is ++ js) := by
  rw [Spares, flattenAll_append]
  exact List.forall_mem_append.mpr ⟨first, second⟩

theorem Spares.outer (spares : Spares env is) : ∀ i ∈ is, unpackFrom? env i = none := by
  induction is with
  | nil => exact List.forall_mem_nil _
  | cons i rest ih =>
    rw [Spares, flattenAll_cons, List.forall_mem_append] at spares
    exact List.forall_mem_cons.mpr ⟨spares.1 i (mem_flatten_self i), ih spares.2⟩

theorem spares_nil (env : VarId) : Spares env [] := List.forall_mem_nil _

theorem Spares.then {i : Instr} (before : Spares env is) (plain : branches i = false)
    (other : unpackFrom? env i = none) : Spares env (is ++ [i]) := by
  refine before.append ?_
  rw [Spares, flattenAll_cons, flatten_plain plain]
  exact List.forall_mem_singleton.mpr other

theorem Quiet.spares (quiet : Quiet vs is) : Spares env is := by
  have nothing : Unpacks env is [] := quiet.unpacks
  rw [Spares, nothing.plain, ← List.filterMap_eq_nil_iff]
  exact nothing.taken

/-- A variable that was there before and has no declared name. -/
structure Mark.Misses (m : Mark) (x : VarId) : Prop where
  inside : x < m.size
  unnamed : ∀ t, m.scope.lookup t ≠ some x

theorem Mark.Misses.along (misses : m.Misses env) (scope : m'.scope = m.scope) (size : m.size ≤ m'.size) :
    m'.Misses env :=
  ⟨Nat.lt_of_lt_of_le misses.inside size, scope ▸ misses.unnamed⟩

theorem Adds.misses {name : String} {shape : Sized.Shape} {x : VarId} (adds : Adds vs name shape m is x m')
    (misses : m.Misses env) : m'.Misses env := misses.along adds.scope adds.leads.size

theorem Declares.misses {v : Sized.Variable} {x : VarId} (declares : Declares vs v m is x m') (misses : m.Misses env) :
    m'.Misses env := by
  refine ⟨Nat.lt_of_lt_of_le misses.inside declares.leads.size, fun t found => ?_⟩
  rw [declares.scope, List.lookup_cons] at found
  split at found
  · obtain rfl := Option.some.inj found
    exact Nat.lt_irrefl _ (Nat.lt_of_lt_of_le misses.inside declares.adds.new)
  · exact misses.unnamed t found

theorem DeclaresAll.misses {behind : Sized.Variable → VarId → Block} {us : List Sized.Variable} {xs : List VarId}
    (all : DeclaresAll vs behind us m is xs m') (misses : m.Misses env) : m'.Misses env := by
  induction all with
  | nil => exact misses
  | cons first _ ih => exact ih (first.misses misses)

mutual

/-- The code of an expression takes nothing out of a variable that has no name. -/
theorem Codes.spares {e : Sized.Expr} {vs : Variables} {tail : Bool} {dst : VarId} {m : Mark} {is : Block} {m' : Mark} :
    Codes F e vs tail dst m is m' → m.Misses env → Spares env is ∧ m'.Misses env
  | .copy _, misses | .move _, misses | .number, misses | .bool, misses =>
    ⟨(spares_nil env).then rfl rfl, misses⟩
  | .primitive first second, misses => by
    obtain ⟨-, own, misses⟩ := first.spares misses
    obtain ⟨-, own', misses⟩ := second.spares misses
    exact ⟨(own.append own').then rfl rfl, misses⟩
  | .callDirect passed described, misses => by
    obtain ⟨own, misses⟩ := passed.spares misses
    exact ⟨(own.append described.quiet.spares).then rfl rfl, misses.along described.scope described.size⟩
  | .callClosure function passed, misses => by
    obtain ⟨-, own, misses⟩ := function.spares misses
    obtain ⟨own', misses⟩ := passed.spares misses
    exact ⟨(own.append own').then rfl rfl, misses⟩
  | .block bound last, misses => by
    obtain ⟨own, misses⟩ := bound.spares misses
    obtain ⟨own', misses⟩ := last.spares misses
    exact ⟨own.append own', misses⟩
  | .pack packed, misses => by
    obtain ⟨own, misses⟩ := packed.spares misses
    exact ⟨own.then rfl rfl, misses⟩
  | .unpack whole, misses => by
    obtain ⟨other, own, misses⟩ := whole.spares misses
    exact ⟨own.then rfl (if_neg other), misses⟩
  | .cond tested first second, misses => by
    obtain ⟨-, own, misses⟩ := tested.spares misses
    obtain ⟨yes, misses⟩ := first.spares misses
    obtain ⟨no, misses⟩ := second.spares misses
    refine ⟨own.append ?_, misses⟩
    rw [Spares, flattenAll_cons, flatten_cond, Instr.flattenAll, List.append_nil, List.forall_mem_cons,
      List.forall_mem_append]
    exact ⟨rfl, yes, no⟩
  | .closure _ _ _ ⟨_, adds⟩ _ _, misses => by
    refine ⟨?_, adds.misses misses⟩
    rw [List.append_cons]
    exact (adds.quiet.spares.then rfl rfl).then rfl rfl

theorem Operand.spares {e : Sized.Expr} {vs : Variables} {x : VarId} {m : Mark} {is : Block} {m' : Mark} :
    Operand F e vs x m is m' → m.Misses env → x ≠ env ∧ Spares env is ∧ m'.Misses env
  | .named found, misses => ⟨fun same => misses.unnamed _ (same ▸ found), spares_nil env, misses⟩
  | .temporary adds _ filled, misses => by
    obtain ⟨own, misses'⟩ := filled.spares (adds.misses misses)
    have apart := Nat.ne_of_gt (Nat.lt_of_lt_of_le misses.inside adds.new)
    exact ⟨apart, adds.quiet.spares.append own, misses'⟩

theorem Operands.spares {es : List Sized.Expr} {vs : Variables} {xs : List VarId} {m : Mark} {is : Block} {m' : Mark} :
    Operands F es vs xs m is m' → m.Misses env → Spares env is ∧ m'.Misses env
  | .nil, misses => ⟨spares_nil env, misses⟩
  | .cons first others, misses => by
    obtain ⟨-, own, misses⟩ := first.spares misses
    obtain ⟨own', misses⟩ := others.spares misses
    exact ⟨own.append own', misses⟩

theorem FieldCodes.spares {fs : List Sized.PackField} {vs : Variables} {values : List PackField} {m : Mark} {is : Block}
    {m' : Mark} : FieldCodes F fs vs values m is m' → m.Misses env → Spares env is ∧ m'.Misses env
  | .nil, misses => ⟨spares_nil env, misses⟩
  | .cons first _ others, misses => by
    obtain ⟨-, own, misses⟩ := first.spares misses
    obtain ⟨own', misses⟩ := others.spares misses
    exact ⟨own.append own', misses⟩

theorem LetCodes.spares {bs : List Sized.Let} {vs : Variables} {m : Mark} {is : Block} {m' : Mark} :
    LetCodes F bs vs m is m' → m.Misses env → Spares env is ∧ m'.Misses env
  | .nil, misses => ⟨spares_nil env, misses⟩
  | .cons declared _ filled others, misses => by
    obtain ⟨own, misses⟩ := filled.spares (declared.misses misses)
    obtain ⟨own', misses⟩ := others.spares misses
    exact ⟨(declared.adds.quiet.spares.append own).append own', misses⟩

end

end Unpacks

section Behind

variable {F : List Function} {live known : Set VarId}

theorem Entered.inside {vs : Variables} {v : VarId} {name : String} {type : Ty} (entered : Entered vs v name type) :
    v < vs.size := by
  obtain ⟨x, here, -⟩ := entered
  exact (Array.getElem?_eq_some_iff.mp here).1

/-- The function behind a closure takes the environment apart. -/
theorem Lifted.takesApart {params generics captures : List Sized.Variable} {envType : Ty} {body : Sized.Expr}
    {L : Function} (lifted : Lifted F params generics captures envType body L)
    (flows : Flows L.vars (givenArguments L) (givenArguments L) L.body live known) :
    L.TakesApart params (generics ++ captures) envType body.shape.type := by
  cases lifted with
  | @intro _ _ _ _ _ _ us xs m₁ is result m₂ js ys m₃ ks zs m₄ code m₅ distinct environment plain described descriptions
    returned taken captured values filled arguments whole owned =>
    have first := described.unpacks
    have last := captured.unpacks
    have start : Mark.Misses ⟨[], 1⟩ 0 := ⟨Nat.one_pos, fun t found => by cases found⟩
    have misses := captured.misses (taken.misses (returned.misses (described.misses start)))
    obtain ⟨spared, -⟩ := filled.spares misses
    have front := ((first.append returned.quiet.unpacks).append taken.quiet.unpacks).append last
    have count : xs.length = (generics.map (·.name.mangled)).length := by
      rw [List.length_map, described.declared.length_eq]
    have both : ((xs.zip (generics.map (·.name.mangled)) ++ []) ++ []) ++ zs.zip (captures.map (·.name.mangled)) =
        (xs ++ zs).zip ((generics ++ captures).map (·.name.mangled)) := by
      rw [List.append_nil, List.append_nil, List.map_append, List.zip_append count]
    have nested : (Instr.flattenAll L.body).filterMap (unpackFrom? 0) =
        (xs ++ zs).zip ((generics ++ captures).map (·.name.mangled)) := by
      rw [whole, flattenAll_append, front.plain, List.filterMap_append, front.taken,
        List.filterMap_eq_nil_iff.mpr spared, List.append_nil, both]
    have outer : L.body.filterMap (unpackFrom? 0) = (xs ++ zs).zip ((generics ++ captures).map (·.name.mangled)) := by
      rw [whole, List.filterMap_append, front.taken, List.filterMap_eq_nil_iff.mpr spared.outer, List.append_nil, both]
    have has : ∀ {v : Sized.Variable} {x : VarId} {m m' : Mark}, Declared L.vars m m' v x →
        L.Has x ∧ Entered L.vars x v.name.mangled v.shape.type := fun own => ⟨owned _ own.entered.inside, own.entered⟩
    refine ⟨⟨result, 0, ys, xs ++ zs, returned.entered, environment, taken.declared.imp fun _ _ own => own.entered,
      arguments, outer, nested.trans outer.symm, ?_⟩, fun front x src field back shape => ?_, fun i inside v member => ?_⟩
    · exact List.rel_append (described.declared.imp fun _ _ => has) (captured.declared.imp fun _ _ => has)
    · rw [shape] at flows
      exact flows.unmentioned subset_rfl rfl List.mem_cons_self
    · exact owned v ((flows_sound flows i inside).1 v member)

end Behind

section Made

variable {R : Sized.Roster} {c : Sized.Context} {p : Program} {vs : Variables} {m m' : Mark} {is js : Block}

/-- All declared names are names of the roster, and their variables go with them. -/
def Mark.Lists (R : Sized.Roster) (vs : Variables) (m : Mark) : Prop :=
  ∀ t x, m.scope.lookup t = some x → ∃ i type, i.tag = t ∧ R.named i ∧ R.typed t type ∧ Entered vs x i.mangled type

theorem Mark.Lists.along (lists : m.Lists R vs) (scope : m'.scope = m.scope) : m'.Lists R vs := by
  rw [Mark.Lists, scope]
  exact lists

theorem Declares.lists {v : Sized.Variable} {x : VarId} (declares : Declares vs v m is x m') (known : R.Lists c v)
    (lists : m.Lists R vs) : m'.Lists R vs := by
  intro t y found
  rw [declares.scope, List.lookup_cons] at found
  split at found
  · rename_i same
    obtain rfl := Option.some.inj found
    obtain rfl := beq_iff_eq.mp same
    exact ⟨v.name, _, rfl, known.named, known.typed, declares.adds.entered⟩
  · exact lists t y found

theorem DeclaresAll.lists {behind : Sized.Variable → VarId → Block} {us : List Sized.Variable} {xs : List VarId}
    (all : DeclaresAll vs behind us m is xs m') (known : ∀ v ∈ us, R.Lists c v) (lists : m.Lists R vs) :
    m'.Lists R vs := by
  induction all with
  | nil => exact lists
  | cons first _ ih =>
    rw [List.forall_mem_cons] at known
    exact ih known.2 (first.lists known.1 lists)

/-- What is found under the tag of a variable is its own. -/
theorem Mark.Lists.entered (lists : m.Lists R vs) (apart : R.Apart) {v : Sized.Variable} {x : VarId}
    (known : R.Lists c v) (found : m.scope.lookup v.name.tag = some x) :
    Entered vs x v.name.mangled v.shape.type := by
  obtain ⟨i, type, tag, named, typed, entered⟩ := lists _ x found
  rwa [apart.names i v.name named known.named tag, apart.types _ _ _ typed known.typed] at entered

/-- The operands of the instruction that makes an environment. -/
theorem Packs.exists_operands {taken : List Sized.Variable} {fields : List PackField} (packs : Packs m taken fields) :
    ∃ xs, fields = List.zipWith (fun v x => ⟨v.name.mangled, copyOf x⟩) taken xs ∧
      List.Forall₂ (fun v x => m.scope.lookup v.name.tag = some x) taken xs := by
  induction packs with
  | nil => exact ⟨[], rfl, .nil⟩
  | cons first _ ih =>
    obtain ⟨x, found, rfl⟩ := first
    obtain ⟨xs, rfl, others⟩ := ih
    exact ⟨x :: xs, rfl, .cons found others⟩

/-- The instructions of a block stand in a function one behind the other. -/
def Function.Contains (g : Function) (is : Block) : Prop := Instr.flattenAll is <:+: Instr.flattenAll g.body

variable {g : Function}

theorem Function.Contains.left (within : g.Contains (is ++ js)) : g.Contains is := by
  rw [Function.Contains, flattenAll_append] at within
  exact (List.prefix_append _ _).isInfix.trans within

theorem Function.Contains.right (within : g.Contains (is ++ js)) : g.Contains js := by
  rw [Function.Contains, flattenAll_append] at within
  exact (List.suffix_append _ _).isInfix.trans within

theorem Function.Contains.branches {dst test : VarId} {yes no : Block} (within : g.Contains [.cond dst test yes no]) :
    g.Contains yes ∧ g.Contains no := by
  rw [Function.Contains, flattenAll_cons, flatten_cond, Instr.flattenAll, List.append_nil] at within
  have inner := (List.suffix_cons _ _).isInfix.trans within
  exact ⟨(List.prefix_append _ _).isInfix.trans inner, (List.suffix_append _ _).isInfix.trans inner⟩

variable (R c p) in
/-- A lowered program hangs together with the program that was measured. -/
structure Fits : Prop where
  apart : R.Apart
  structs : ∀ s ∈ c.structs, ∃ d ∈ p.structs, d.name = s.name.mangled ∧
    d.fields.map (fun f => (f.name, f.type)) = s.fields.map fun f => (f.name, f.type)
  flows : ∀ L ∈ p.functions, ∃ live known, Flows L.vars (givenArguments L) (givenArguments L) L.body live known

/-- The struct of an environment has what is taken along. -/
theorem Fits.environment (fits : Fits R c p) {shape envShape : Sized.Shape}
    {params generics captures : List Sized.Variable} {env : Ident} {body : Sized.Expr}
    (encloses : Sized.Expr.Encloses c.structs (.closure shape params generics captures env envShape body)) :
    (∀ v ∈ generics, v.shape.type = Ty.witness) ∧ ∃ d ∈ p.structs, Environment d env (generics ++ captures) := by
  obtain ⟨⟨span, gs, cs, member, descriptions, values⟩, -⟩ := encloses
  obtain ⟨d, inside, name, fields⟩ := fits.structs _ member
  refine ⟨fun v generic => ?_, d, inside, name, ?_⟩
  · have typed : v.typed ∈ gs.map (·, Ty.witness) := descriptions ▸ List.mem_map_of_mem generic
    obtain ⟨g, -, same⟩ := List.mem_map.mp typed
    exact (congrArg Prod.snd same).symm
  · have split : ∀ us : List Sized.Variable, us.map (fun v => (v.name.mangled, v.shape.type)) =
        (us.map (·.typed)).map fun v => (v.1.mangled, v.2) := fun us => by
      rw [List.map_map]
      rfl
    rw [fields, List.map_append, split, split, descriptions, values]
    simp [Explicit.environment, Function.comp_def]

/-- A closure is made of variables of the function that makes it. -/
theorem Function.Contains.makes {L : Function} {dst e : VarId} {env : Ident} {taken : List Sized.Variable}
    {fields : List PackField} (within : g.Contains (is ++ [.pack e env.mangled fields, .makeClosure dst L.name ⟨.move, e⟩]))
    (owned : ∀ v < g.vars.size, g.Has v) (place : e < g.vars.size) (packs : Packs m taken fields) (apart : R.Apart)
    (known : ∀ v ∈ taken, R.Lists c v) (lists : m.Lists R g.vars) : g.Makes L env taken := by
  obtain ⟨xs, rfl, found⟩ := packs.exists_operands
  refine ⟨dst, e, xs, within.right, owned e place, forall₂_of_mem found fun v member x found => ?_⟩
  have entered := lists.entered apart (known v member) found
  exact ⟨owned x entered.inside, entered⟩

end Made

section Whole

variable {R : Sized.Roster} {c : Sized.Context} {p : Program}

mutual

/-- Where an expression has its code, its closures are converted. -/
theorem Codes.converted (fits : Fits R c p) {e : Sized.Expr} {vs : Variables} {tail : Bool} {dst : VarId} {m : Mark}
    {is : Block} {m' : Mark} {g : Function} (table : g.vars = vs) (owned : ∀ v < g.vars.size, g.Has v) :
    Codes p.functions e vs tail dst m is m' → (∀ part ∈ e.parts, part.Sound R c) → m.Lists R vs → g.Contains is →
    Converted p e g ∧ m'.Lists R vs
  | .copy _, _, lists, _ | .move _, _, lists, _ | .number, _, lists, _ | .bool, _, lists, _ => ⟨trivial, lists⟩
  | .primitive first second, sound, lists, within => by
    rw [Sized.Expr.parts, List.forall_mem_cons, List.forall_mem_append] at sound
    obtain ⟨own, lists⟩ := first.converted fits table owned sound.2.1 lists within.left.left
    obtain ⟨own', lists⟩ := second.converted fits table owned sound.2.2 lists within.left.right
    exact ⟨⟨own, own'⟩, lists⟩
  | .callDirect passed described, sound, lists, within => by
    rw [Sized.Expr.parts, List.forall_mem_cons] at sound
    obtain ⟨own, lists⟩ := passed.converted fits table owned sound.2 lists within.left.left
    exact ⟨own, lists.along described.scope⟩
  | .callClosure function passed, sound, lists, within => by
    rw [Sized.Expr.parts, List.forall_mem_cons, List.forall_mem_append] at sound
    obtain ⟨own, lists⟩ := function.converted fits table owned sound.2.1 lists within.left.left
    obtain ⟨own', lists⟩ := passed.converted fits table owned sound.2.2 lists within.left.right
    exact ⟨⟨own, own'⟩, lists⟩
  | .block bound last, sound, lists, within => by
    rw [Sized.Expr.parts, List.forall_mem_cons, List.forall_mem_append] at sound
    have known := List.forall_mem_map.mp sound.1.listed
    obtain ⟨own, lists⟩ := bound.converted fits table owned known sound.2.1 lists within.left
    obtain ⟨own', lists⟩ := last.converted fits table owned sound.2.2 lists within.right
    exact ⟨⟨own, own'⟩, lists⟩
  | .pack packed, sound, lists, within => by
    rw [Sized.Expr.parts, List.forall_mem_cons] at sound
    exact packed.converted fits table owned sound.2 lists within.left
  | .unpack whole, sound, lists, within => by
    rw [Sized.Expr.parts, List.forall_mem_cons] at sound
    obtain ⟨own, lists⟩ := whole.converted fits table owned sound.2 lists within.left
    exact ⟨own, lists⟩
  | .cond tested first second, sound, lists, within => by
    rw [Sized.Expr.parts, List.forall_mem_cons, List.forall_mem_append, List.forall_mem_append] at sound
    have inner := within.right.branches
    obtain ⟨own, lists⟩ := tested.converted fits table owned sound.2.1 lists within.left
    obtain ⟨yes, lists⟩ := first.converted fits table owned sound.2.2.1 lists inner.1
    obtain ⟨no, lists⟩ := second.converted fits table owned sound.2.2.2 lists inner.2
    exact ⟨⟨own, yes, no⟩, lists⟩
  | .closure (L := L) known lifted _ ⟨_, adds⟩ _ packed, sound, lists, within => by
    rw [Sized.Expr.parts, List.forall_mem_cons] at sound
    subst table
    have named := List.forall_mem_append.mp sound.1.listed
    have lists := lists.along adds.scope
    obtain ⟨descriptions, d, inside, environment⟩ := fits.environment sound.1.encloses
    obtain ⟨live, known', flows⟩ := fits.flows L known
    have makes := within.makes (L := L) owned adds.entered.inside packed fits.apart named.2 lists
    exact ⟨⟨descriptions, d, inside, L, known, environment, makes, lifted.takesApart flows,
      lifted.converted fits sound.1.listed sound.2⟩, lists⟩

theorem Operand.converted (fits : Fits R c p) {e : Sized.Expr} {vs : Variables} {x : VarId} {m : Mark} {is : Block}
    {m' : Mark} {g : Function} (table : g.vars = vs) (owned : ∀ v < g.vars.size, g.Has v) :
    Operand p.functions e vs x m is m' → (∀ part ∈ e.parts, part.Sound R c) → m.Lists R vs → g.Contains is →
    Converted p e g ∧ m'.Lists R vs
  | .named _, _, lists, _ => ⟨trivial, lists⟩
  | .temporary adds _ filled, sound, lists, within =>
    filled.converted fits table owned sound (lists.along adds.scope) within.right

theorem Operands.converted (fits : Fits R c p) {es : List Sized.Expr} {vs : Variables} {xs : List VarId} {m : Mark}
    {is : Block} {m' : Mark} {g : Function} (table : g.vars = vs) (owned : ∀ v < g.vars.size, g.Has v) :
    Operands p.functions es vs xs m is m' → (∀ part ∈ Sized.Expr.partsAll es, part.Sound R c) → m.Lists R vs →
    g.Contains is → ConvertedAll p es g ∧ m'.Lists R vs
  | .nil, _, lists, _ => ⟨trivial, lists⟩
  | .cons first others, sound, lists, within => by
    rw [Sized.Expr.partsAll, List.forall_mem_append] at sound
    obtain ⟨own, lists⟩ := first.converted fits table owned sound.1 lists within.left
    obtain ⟨own', lists⟩ := others.converted fits table owned sound.2 lists within.right
    exact ⟨⟨own, own'⟩, lists⟩

theorem FieldCodes.converted (fits : Fits R c p) {fs : List Sized.PackField} {vs : Variables} {values : List PackField}
    {m : Mark} {is : Block} {m' : Mark} {g : Function} (table : g.vars = vs) (owned : ∀ v < g.vars.size, g.Has v) :
    FieldCodes p.functions fs vs values m is m' → (∀ part ∈ Sized.Expr.fieldParts fs, part.Sound R c) →
    m.Lists R vs → g.Contains is → ConvertedFields p fs g ∧ m'.Lists R vs
  | .nil, _, lists, _ => ⟨trivial, lists⟩
  | .cons first _ others, sound, lists, within => by
    rw [Sized.Expr.fieldParts, List.forall_mem_append] at sound
    obtain ⟨own, lists⟩ := first.converted fits table owned sound.1 lists within.left
    obtain ⟨own', lists⟩ := others.converted fits table owned sound.2 lists within.right
    exact ⟨⟨own, own'⟩, lists⟩

theorem LetCodes.converted (fits : Fits R c p) {bs : List Sized.Let} {vs : Variables} {m : Mark} {is : Block}
    {m' : Mark} {g : Function} (table : g.vars = vs) (owned : ∀ v < g.vars.size, g.Has v) :
    LetCodes p.functions bs vs m is m' → (∀ b ∈ bs, R.Lists c b.var) →
    (∀ part ∈ Sized.Expr.letParts bs, part.Sound R c) → m.Lists R vs → g.Contains is →
    ConvertedLets p bs g ∧ m'.Lists R vs
  | .nil, _, _, lists, _ => ⟨trivial, lists⟩
  | .cons declared _ filled others, known, sound, lists, within => by
    rw [List.forall_mem_cons] at known
    rw [Sized.Expr.letParts, List.forall_mem_append] at sound
    have lists := declared.lists known.1 lists
    obtain ⟨own, lists⟩ := filled.converted fits table owned sound.1 lists within.left.right
    obtain ⟨own', lists⟩ := others.converted fits table owned known.2 sound.2 lists within.right
    exact ⟨⟨own, own'⟩, lists⟩

theorem Lifted.converted (fits : Fits R c p) {params generics captures : List Sized.Variable} {envType : Ty}
    {body : Sized.Expr} {L : Function} : Lifted p.functions params generics captures envType body L →
    (∀ v ∈ params ++ (generics ++ captures), R.Lists c v) → (∀ part ∈ body.parts, part.Sound R c) → Converted p body L
  | .intro _ _ _ described _ returned taken captured _ filled _ whole owned, known, sound => by
    rw [List.forall_mem_append, List.forall_mem_append] at known
    have start : Mark.Lists R L.vars ⟨[], 1⟩ := fun t x found => by cases found
    have lists := captured.lists known.2.2 (taken.lists known.1 ((described.lists known.2.1 start).along returned.scope))
    have within : L.Contains L.body := List.infix_rfl
    rw [whole] at within
    exact (filled.converted fits rfl owned sound lists within.right).1

end

/-- Where a function has its code, its closures are converted. -/
theorem FunctionCodes.converted (fits : Fits R c p) {f : Sized.Function} {result : Sized.Variable}
    {params generics : List Sized.Variable} {g : Function} (codes : FunctionCodes p.functions f result params generics g)
    (known : ∀ v ∈ generics ++ (result :: params), R.Lists c v) (sound : ∀ part ∈ f.body.parts, part.Sound R c) :
    Converted p f.body g := by
  obtain ⟨is, js, ks, r, xs, ys, m₁, m₂, m₃, described, -, taken, -, filled, -, whole⟩ := codes.parts
  rw [List.forall_mem_append] at known
  have start : Mark.Lists R g.vars {} := fun t x found => by cases found
  have lists := taken.lists known.2 (described.lists known.1 start)
  have within : g.Contains g.body := List.infix_rfl
  rw [whole] at within
  exact (filled.converted fits rfl codes.owned sound lists within.right).1

end Whole

end WitnessLang.Ir
