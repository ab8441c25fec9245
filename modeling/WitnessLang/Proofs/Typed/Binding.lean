import Mathlib.Data.List.Nodup
import Mathlib.Data.List.Pairwise
import WitnessLang.Proofs.Resolved.Scoped
import WitnessLang.Proofs.Run
import WitnessLang.Proofs.Typed.Rewrite
import WitnessLang.Proofs.Types.Unification

set_option autoImplicit false

namespace WitnessLang.Typed

open Bindings
open Resolved (Declared)

/-- Definitions that hang together; `structs` are the fields that names are resolved with. -/
structure Globals.Formed (structs : Declared) (g : Globals) : Prop where
  proper : ∀ s ∈ g.structs, s.name.tag.isBuiltin = false
  fields : ∀ s ∈ g.structs, ∀ f ∈ s.fields, f.type.Formed g.arity (s.generics.map (·.tag)) []
  params : ∀ f ∈ g.functions, ∀ t ∈ f.params, t.Formed g.arity (f.generics.map (·.tag)) []
  result : ∀ f ∈ g.functions, f.result.Formed g.arity (f.generics.map (·.tag)) []
  names : ∀ s ∈ g.structs, (s.fields.map (·.name)).Nodup
  declared : ∀ d ∈ structs, ∀ s ∈ g.structs, s.name.tag = d.1 → s.fields.map (·.name) = d.2

/-- What is known while a definition with some type parameters is checked, when `cells` have
been minted. -/
structure Ready (g : Globals) (generics : List Tag) (cells : List Cell) (s : Progress) : Prop where
  apart : ∀ c ∈ cells, ∀ d ∈ cells, c.number = d.number → c = d
  minted : ∀ c ∈ cells, c.number ≤ s.minted
  sane : Sane (Ty.Formed g.arity generics cells) s.bindings
  vars : ∀ e ∈ s.vars, e.2.Formed g.arity generics cells

/-- Work on a part of a tree that binds `binders`: nothing that was known is lost. -/
structure Step (g : Globals) (generics : List Tag) (cells : List Cell) (s : Progress)
    (binders : List Tag) (cells' : List Cell) (s' : Progress) : Prop where
  ready : Ready g generics cells' s'
  cells : cells ⊆ cells'
  bindings : Extends s.bindings s'.bindings
  vars : ∀ t ∉ binders, s'.vars.lookup t = s.vars.lookup t

/-- The place of a part of a tree: the types of the variables in sight are those of `env`, and
what the part binds is not bound yet. -/
structure Site (env : Env) (vars binders : List Tag) (s : Progress) : Prop where
  agree : ∀ t, t ∈ vars ∨ s.vars.lookup t = none → env.lookup t = s.vars.lookup t
  fresh : ∀ t ∈ binders, s.vars.lookup t = none ∧ t ∉ vars
  once : binders.Nodup

/-- What is found for a part of a tree: its types are well formed, it follows the rules
whatever solves the bindings, and it binds no more than the part does. -/
structure Inferred (g : Globals) (generics binders : List Tag) (types : List Ty)
    (bound : List Tag) (rules : (Cell → Ty) → Prop) (cells : List Cell) (b : Bindings) : Prop where
  formed : ∀ t ∈ types, t.Formed g.arity generics cells
  rules : ∀ f, Solves f b → rules f
  within : bound ⊆ binders
  once : bound.Nodup

section Steps

variable {g : Globals} {generics : List Tag} {cells cells' cells'' : List Cell}
  {s s' s'' : Progress} {binders more : List Tag}

theorem Step.refl (ready : Ready g generics cells s) : Step g generics cells s [] cells s :=
  ⟨ready, fun _ member => member, .refl _, fun _ _ => rfl⟩

theorem Step.trans (first : Step g generics cells s binders cells' s')
    (second : Step g generics cells' s' more cells'' s'') :
    Step g generics cells s (binders ++ more) cells'' s'' where
  ready := second.ready
  cells := fun _ member => second.cells (first.cells member)
  bindings := first.bindings.trans second.bindings
  vars t outside := by
    rw [List.mem_append, not_or] at outside
    rw [second.vars t outside.2, first.vars t outside.1]

theorem Step.mono (step : Step g generics cells s binders cells' s') (within : binders ⊆ more) :
    Step g generics cells s more cells' s' :=
  ⟨step.ready, step.cells, step.bindings, fun t outside => step.vars t fun old => outside (within old)⟩

end Steps

section Sites

variable {g : Globals} {generics : List Tag} {cells cells' : List Cell} {s s' : Progress}
  {env : Env} {vars before behind : List Tag}

theorem Site.left (site : Site env vars (before ++ behind) s) : Site env vars before s :=
  ⟨site.agree, fun t member => site.fresh t (List.mem_append_left _ member),
    (List.nodup_append.mp site.once).1⟩

theorem Site.disjoint (site : Site env vars (before ++ behind) s) : before.Disjoint behind :=
  List.disjoint_of_nodup_append site.once

/-- The place behind a part that has been dealt with. -/
theorem Site.after (site : Site env vars (before ++ behind) s)
    (step : Step g generics cells s before cells' s') : Site env vars behind s' where
  agree t known := by
    by_cases bound : t ∈ before
    · obtain ⟨unbound, hidden⟩ := site.fresh t (List.mem_append_left _ bound)
      have nothing : s'.vars.lookup t = none := known.resolve_left hidden
      rw [site.agree t (Or.inr unbound), unbound, nothing]
    · rw [step.vars t bound] at known ⊢
      exact site.agree t known
  fresh t member := by
    obtain ⟨unbound, hidden⟩ := site.fresh t (List.mem_append_right _ member)
    rw [step.vars t fun bound => site.disjoint bound member]
    exact ⟨unbound, hidden⟩
  once := (List.nodup_append.mp site.once).2.1

/-- The place where the variables of a pattern are in sight. -/
theorem Site.bind {p : Pattern} {tags : List Tag} (site : Site env vars (tags ++ behind) s)
    (step : Step g generics cells s tags cells' s') (scope : s'.vars = p.scope s.vars) :
    Site (p.scope env) (tags ++ vars) behind s' where
  agree t known := by
    obtain ⟨own, -, -, added⟩ := p.exists_scope
    rw [scope, added] at known ⊢
    rw [added, List.lookup_append, List.lookup_append]
    cases found : own.lookup t with
    | some u => rfl
    | none =>
      rw [List.lookup_append, found] at known
      simp only [Option.none_or, List.mem_append] at known ⊢
      refine site.agree t ?_
      rcases known with (bound | seen) | unbound
      · exact Or.inr (site.fresh t (List.mem_append_left _ bound)).1
      · exact Or.inl seen
      · exact Or.inr unbound
  fresh t member := by
    obtain ⟨unbound, hidden⟩ := site.fresh t (List.mem_append_right _ member)
    have outside : t ∉ tags := fun bound => site.disjoint bound member
    rw [step.vars t outside]
    exact ⟨unbound, fun seen => (List.mem_append.mp seen).elim outside hidden⟩
  once := (List.nodup_append.mp site.once).2.1

end Sites

section Results

variable {g : Globals} {generics binders binders' : List Tag} {types types' : List Ty}
  {bound bound' : List Tag} {rules rules' : (Cell → Ty) → Prop} {cells cells' : List Cell}
  {b b' : Bindings}

/-- What was found stays true. -/
theorem Inferred.later (found : Inferred g generics binders types bound rules cells b)
    (minted : cells ⊆ cells') (grown : Extends b b') :
    Inferred g generics binders types bound rules cells' b' :=
  ⟨fun t member => (found.formed t member).grow minted,
    fun f solves => found.rules f (solves.of_extends grown), found.within, found.once⟩

theorem Inferred.append (first : Inferred g generics binders types bound rules cells b)
    (second : Inferred g generics binders' types' bound' rules' cells b)
    (apart : binders.Disjoint binders') :
    Inferred g generics (binders ++ binders') (types ++ types') (bound ++ bound')
      (fun f => rules f ∧ rules' f) cells b where
  formed t member := (List.mem_append.mp member).elim (first.formed t) (second.formed t)
  rules f solves := ⟨first.rules f solves, second.rules f solves⟩
  within := List.append_subset.mpr
    ⟨fun _ member => List.mem_append_left _ (first.within member),
      fun _ member => List.mem_append_right _ (second.within member)⟩
  once := List.nodup_append'.mpr ⟨first.once, second.once,
    fun _ left right => apart (first.within left) (second.within right)⟩

/-- The same finding for another part of the tree. -/
theorem Inferred.imp (found : Inferred g generics binders types bound rules cells b)
    (formed : ∀ t ∈ types', t ∈ types ∨ t.Formed g.arity generics cells)
    (follow : ∀ f, Solves f b → rules f → rules' f) :
    Inferred g generics binders types' bound rules' cells b :=
  ⟨fun t member => (formed t member).elim (found.formed t) id,
    fun f solves => follow f solves (found.rules f solves), found.within, found.once⟩

end Results

section Operations

variable {structs : Declared} {g : Globals} {generics : List Tag} {cells : List Cell}
  {s s' : Progress}

@[simp] theorem runs_fault {α : Type} {span : Span} {cause : Cause} {r : Except Fault α} :
    Runs (fault span cause) g s r s' ↔ r = .error ⟨cause, span⟩ ∧ s' = s := runs_throw

@[simp] theorem runs_fault_bind {α β : Type} {span : Span} {cause : Cause} {f : α → Check β}
    {r : Except Fault β} :
    Runs (fault span cause >>= f) g s r s' ↔ r = .error ⟨cause, span⟩ ∧ s' = s := runs_throw_bind

theorem Globals.mem_of_struct? {name : Ident} {d : Struct} (found : g.struct? name = some d) :
    d ∈ g.structs ∧ d.name.tag = name.tag :=
  ⟨List.mem_of_find?_eq_some found, by simpa using List.find?_some found⟩

theorem Globals.mem_of_function? {name : Ident} {f : Signature}
    (found : g.function? name = some f) : f ∈ g.functions ∧ f.name.tag = name.tag :=
  ⟨List.mem_of_find?_eq_some found, by simpa using List.find?_some found⟩

/-- A struct is applied to as many types as it has type parameters. -/
theorem Globals.arity_struct (formed : g.Formed structs) {name : Ident} {d : Struct}
    (found : g.struct? name = some d) : g.arity name.tag = some d.generics.length := by
  obtain ⟨member, same⟩ := g.mem_of_struct? found
  have proper := formed.proper d member
  rw [same] at proper
  rw [Globals.arity, proper]
  simp only [Globals.struct?] at found
  simp [found]

@[simp] theorem formed_float : Ty.float.Formed g.arity generics cells := by
  simp [Ty.float, Globals.arity, Tag.isBuiltin, Tag.float, Tag.builtinUnit]

@[simp] theorem formed_bool : Ty.bool.Formed g.arity generics cells := by
  simp [Ty.bool, Globals.arity, Tag.isBuiltin, Tag.bool, Tag.builtinUnit]

/-- How many types names are applied to, where those of structs are listed. -/
def arityIn (arities : Arities) : Arity := fun tag =>
  if tag.isBuiltin then if tag = .float ∨ tag = .bool then some 0 else none
  else arities.lookup tag

/-- A name that is written down is applied to as many types as it takes, each written down. -/
theorem named_of_typeOf {arities : Arities} {span : Span} {name : Ident}
    {args : List Resolved.TypeExpr} {ty : Ty} (done : typeOf arities (.named span name args) = .ok ty) :
    (if name.tag.isBuiltin then some 0 else arities.lookup name.tag) = some args.length ∧
      ∃ args', typesOf arities args = .ok args' ∧ ty = .named name args' := by
  have applied : ∀ want, (do
      if args.length ≠ want then throw ⟨.arity name.name want args.length, span⟩
      return Ty.named name (← typesOf arities args) : Except Fault Ty) = .ok ty →
      args.length = want ∧ ∃ args', typesOf arities args = .ok args' ∧ ty = .named name args' := by
    intro want done
    split at done
    · cases done
    · rename_i enough
      obtain ⟨args', inner, done⟩ := Except.bind_eq_ok.mp done
      exact ⟨not_not.mp enough, args', inner, (Except.ok.inj done).symm⟩
  rw [typeOf] at done
  split at done
  · obtain ⟨length, inner⟩ := applied 0 done
    rw [if_pos ‹_›, length]
    exact ⟨rfl, inner⟩
  · rw [if_neg ‹_›]
    split at done
    · rename_i n found
      obtain ⟨length, inner⟩ := applied n done
      rw [found, length]
      exact ⟨rfl, inner⟩
    · cases done

/-- A written name is applied to as many types as it takes. -/
theorem typeOf_named {arities : Arities} {span : Span} {name : Ident}
    {args : List Resolved.TypeExpr} {ty : Ty} (done : typeOf arities (.named span name args) = .ok ty)
    (builtin : name.tag.isBuiltin = true → name.tag = .float ∨ name.tag = .bool) :
    arityIn arities name.tag = some args.length ∧
      ∃ args', typesOf arities args = .ok args' ∧ ty = .named name args' := by
  obtain ⟨length, inner⟩ := named_of_typeOf done
  refine ⟨?_, inner⟩
  rw [arityIn]
  split at length
  · rwa [if_pos ‹_›, if_pos (builtin ‹_›)]
  · rwa [if_neg ‹_›]

mutual

/-- Written types are well formed. -/
theorem typeOf_formed {arities : Arities} {ty : Ty} : (t : Resolved.TypeExpr) →
    typeOf arities t = .ok ty → t.Over generics → ty.Formed (arityIn arities) generics cells
  | .generic _ name _, done, within => by
    obtain rfl := Except.ok.inj done
    exact within
  | .func _ args result, done, within => by
    rw [typeOf, Except.bind_eq_ok] at done
    obtain ⟨args', first, done⟩ := done
    rw [Except.bind_eq_ok] at done
    obtain ⟨result', second, done⟩ := done
    obtain rfl := Except.ok.inj done
    exact Ty.formed_func.mpr
      ⟨(typesOf_formed args first within.1).1, typeOf_formed result second within.2⟩
  | .named span name args, done, within => by
    obtain ⟨arity, args', inner, rfl⟩ := typeOf_named done within.1
    obtain ⟨formed, length⟩ := typesOf_formed args inner within.2
    exact Ty.formed_named.mpr ⟨length ▸ arity, formed⟩

theorem typesOf_formed {arities : Arities} {tys : List Ty} : (ts : List Resolved.TypeExpr) →
    typesOf arities ts = .ok tys → Resolved.TypeExpr.OverAll generics ts →
      (∀ ty ∈ tys, ty.Formed (arityIn arities) generics cells) ∧ tys.length = ts.length
  | [], done, _ => by
    obtain rfl := Except.ok.inj done
    exact ⟨by simp, rfl⟩
  | t :: rest, done, within => by
    rw [typesOf, Except.bind_eq_ok] at done
    obtain ⟨ty, first, done⟩ := done
    rw [Except.bind_eq_ok] at done
    obtain ⟨tys', second, done⟩ := done
    obtain rfl := Except.ok.inj done
    obtain ⟨formed, length⟩ := typesOf_formed rest second within.2
    exact ⟨List.forall_mem_cons.mpr ⟨typeOf_formed t first within.1, formed⟩, by simp [length]⟩

end

theorem lookup_arities (ss : List Struct) (tag : Tag) :
    (ss.map fun d => (d.name.tag, d.generics.length)).lookup tag =
      (ss.find? fun d => d.name.tag == tag).map (·.generics.length) := by
  induction ss with
  | nil => rfl
  | cons d rest ih =>
    rw [List.map_cons, List.lookup_cons, List.find?_cons, ih, Bool.beq_comm]
    cases d.name.tag == tag <;> rfl

theorem arityIn_structs (g : Globals) :
    arityIn (g.structs.map fun d => (d.name.tag, d.generics.length)) = g.arity := by
  funext tag
  rw [arityIn, Globals.arity, lookup_arities]

theorem writtenType_formed (cells : List Cell) {t : Resolved.TypeExpr} {ty : Ty}
    (ended : Runs (writtenType t) g s (.ok ty) s') (within : t.Over generics) :
    s' = s ∧ ty.Formed g.arity generics cells := by
  rw [writtenType, runs_read_bind] at ended
  dsimp only at ended
  split at ended
  · rename_i ty' written
    obtain ⟨same, rfl⟩ := runs_pure.mp ended
    obtain rfl := Except.ok.inj same
    exact ⟨rfl, arityIn_structs g ▸ typeOf_formed t written within⟩
  · simp at ended

/-- New cells stand for type parameters. -/
theorem instantiate_step {gs : List Ident} {sub : Substitution}
    (ended : Runs (instantiate gs) g s (.ok sub) s') (ready : Ready g generics cells s) :
    ∃ cells', Step g generics cells s [] cells' s' ∧ s'.vars = s.vars ∧
      sub.map (·.1) = gs.map (·.tag) ∧ ∀ e ∈ sub, e.2.Formed g.arity generics cells' := by
  induction gs generalizing s cells sub with
  | nil =>
    obtain ⟨same, rfl⟩ := runs_pure.mp ended
    obtain rfl := Except.ok.inj same
    exact ⟨cells, .refl ready, rfl, rfl, by simp⟩
  | cons i rest ih =>
    rw [instantiate, runs_get_bind, runs_modify_bind, runs_bind_ok] at ended
    obtain ⟨sub', s₁, inner, ended⟩ := ended
    obtain ⟨same, rfl⟩ := runs_pure.mp ended
    obtain rfl := Except.ok.inj same
    let c : Cell := ⟨s.minted + 1, i.name⟩
    have more : cells ⊆ c :: cells := List.subset_cons_self c cells
    have first : Step g generics cells s [] (c :: cells) { s with minted := s.minted + 1 } := by
      refine ⟨⟨?_, ?_, ?_, fun e member => (ready.vars e member).grow more⟩, more, .refl _,
        fun _ _ => rfl⟩
      · intro d known e known' same
        rcases List.mem_cons.mp known with rfl | old <;> rcases List.mem_cons.mp known' with rfl | old'
        · rfl
        · have := ready.minted e old'
          simp only [c] at same
          omega
        · have := ready.minted d old
          simp only [c] at same
          omega
        · exact ready.apart d old e old' same
      · intro d known
        rcases List.mem_cons.mp known with rfl | old
        · exact Nat.le_refl _
        · exact Nat.le_succ_of_le (ready.minted d old)
      · exact ⟨ready.sane.acyclic, fun d t found => (ready.sane.bound d t found).grow more⟩
    obtain ⟨cells', step, same, tags, formed⟩ := ih inner first.ready
    refine ⟨cells', first.trans step, same, by simp [tags], List.forall_mem_cons.mpr ⟨?_, formed⟩⟩
    exact Ty.formed_cell.mpr (step.cells List.mem_cons_self)

/-- What stands for the type parameters of a definition is an application of it. -/
theorem eq_instantiation {gs : List Ident} {sub : Substitution}
    (tags : sub.map (·.1) = gs.map (·.tag)) : sub = instantiation gs (sub.map (·.2)) := by
  rw [instantiation, ← tags]
  exact (List.zip_unzip sub).symm.trans (by rw [List.unzip_eq_map])

theorem lookup_instantiation {gs : List Ident} {args : List Ty}
    (length : args.length = gs.length) {tag : Tag} (known : tag ∈ gs.map (·.tag)) :
    ∃ t ∈ args, (instantiation gs args).lookup tag = some t :=
  Ty.exists_lookup_zip (by simpa using length) known

theorem mapCells_instantiation (f : Cell → Ty) (gs : List Ident) (args : List Ty) :
    (instantiation gs args).map (fun e => (e.1, e.2.mapCells f)) =
      instantiation gs (args.map (·.mapCells f)) := by
  rw [instantiation, instantiation, List.zip_map_right]
  rfl

/-- Types that are made equal are alike in every solution. -/
theorem unify_step {a b : Ty} {span : Span} {u : Unit}
    (ended : Runs (unify a b span) g s (.ok u) s') (ready : Ready g generics cells s)
    (formedA : a.Formed g.arity generics cells) (formedB : b.Formed g.arity generics cells) :
    Step g generics cells s [] cells s' ∧ s'.vars = s.vars ∧
      ∀ f, Solves f s'.bindings → (a.mapCells f).Alike (b.mapCells f) := by
  rw [unify, runs_get_bind] at ended
  generalize run : (Unify.types a b).run.run s.bindings = outcome at ended
  obtain ⟨result, bindings⟩ := outcome
  have unified := Unify.types_sound (Ty.universe_formed ready.apart) a b s.bindings result bindings
    run ready.sane formedA formedB
  simp only [runs_modify_bind] at ended
  have step : Step g generics cells s [] cells { s with bindings := bindings } :=
    ⟨⟨ready.apart, ready.minted, unified.sane, ready.vars⟩, fun _ member => member, unified.grown,
      fun _ _ => rfl⟩
  cases result with
  | ok u' =>
    obtain ⟨-, rfl⟩ := runs_pure.mp ended
    exact ⟨step, rfl, unified.alike rfl⟩
  | error clash => cases clash <;> simp at ended

theorem expect_step {expected : Ty} {span : Span} {e e' : Expr}
    (ended : Runs (expect expected span e) g s (.ok e') s') (ready : Ready g generics cells s)
    (formed : expected.Formed g.arity generics cells)
    (formedE : e.type.Formed g.arity generics cells) :
    e' = e ∧ Step g generics cells s [] cells s' ∧
      ∀ f, Solves f s'.bindings → (e.type.mapCells f).Alike (expected.mapCells f) := by
  rw [expect, runs_bind_ok] at ended
  obtain ⟨u, s₁, unified, ended⟩ := ended
  obtain ⟨step, -, alike⟩ := unify_step unified ready formed formedE
  obtain ⟨same, rfl⟩ := runs_pure.mp ended
  exact ⟨Except.ok.inj same, step, fun f solves => (alike f solves).symm⟩

theorem forFields_cons {α β : Type} {given : List (String × α)} {act : Field → α → Check β}
    {f : Field} {rest : List Field} {a : α} (found : given.lookup f.name = some a) {bs : List β} :
    Runs (forFields given act (f :: rest)) g s (.ok bs) s' ↔ ∃ b s₁ others,
      Runs (act f a) g s (.ok b) s₁ ∧ Runs (forFields given act rest) g s₁ (.ok others) s' ∧
        bs = b :: others := by
  rw [forFields, found]
  simp only [runs_bind_ok, runs_pure, Except.ok.injEq]
  grind

end Operations

section Outcomes

variable {g : Globals} {s s' : Progress} {span : Span} {e' : Expr}

attribute [local simp] infer inferArgs inferLets inferArms checkArms closureParams runs_get runs_bind_ok
  runs_map_ok

theorem runs_infer_number {text : String} {bits : Nat} :
    Runs (infer (.number span text bits)) g s (.ok e') s' ↔ e' = .number span text bits ∧ s' = s := by
  simp

theorem runs_infer_bool {value : Bool} :
    Runs (infer (.bool span value)) g s (.ok e') s' ↔ e' = .bool span value ∧ s' = s := by
  simp

theorem runs_infer_var {name : Ident} : Runs (infer (.var span name)) g s (.ok e') s' ↔
    ∃ t, s.vars.lookup name.tag = some t ∧ e' = .var span name t ∧ s' = s := by
  simp only [infer, runs_get_bind]
  cases s.vars.lookup name.tag <;> simp [fault]

theorem runs_infer_call {callee : Resolved.Expr} {args : List Resolved.Expr} :
    Runs (infer (.call span callee args)) g s (.ok e') s' ↔
      (∃ name s₁, Runs (directCallee? callee) g s (.ok (some name)) s₁ ∧
        ∃ f, g.function? name = some f ∧ f.params.length = args.length ∧
          ∃ sub s₂, Runs (instantiate f.generics) g s₁ (.ok sub) s₂ ∧
            ∃ args', Runs (inferArgs args (f.params.map (·.substitute sub))) g s₂ (.ok args') s' ∧
              e' = .callDirect span (f.result.substitute sub) f.name (sub.map (·.2)) args') ∨
      ∃ s₁, Runs (directCallee? callee) g s (.ok none) s₁ ∧
        ∃ target s₂, Runs (infer callee) g s₁ (.ok target) s₂ ∧
          ∃ params result, s₂.bindings.resolve target.type = .func params result ∧
            params.length = args.length ∧
              ∃ args', Runs (inferArgs args params) g s₂ (.ok args') s' ∧
                e' = .callClosure span result target args' := by
  rw [infer, runs_bind_ok, Option.exists, or_comm]
  refine or_congr (exists_congr fun name => exists_congr fun s₁ => and_congr_right fun _ => ?_)
    (exists_congr fun s₁ => and_congr_right fun _ => ?_)
  · simp only [runs_read_bind]
    cases g.function? name with
    | none => simp [fault]
    | some f => by_cases enough : f.params.length = args.length <;> simp [fault, enough]
  · rw [runs_bind_ok]
    refine exists_congr fun target => exists_congr fun s₂ => and_congr_right fun _ => ?_
    rw [runs_get_bind]
    cases s₂.bindings.resolve target.type with
    | func params result => by_cases enough : params.length = args.length <;> simp [fault, enough]
    | _ => simp [fault]

theorem runs_infer_operation {op : Operator} {left right : Resolved.Expr} :
    Runs (infer (.operation span op left right)) g s (.ok e') s' ↔
      ∃ l₁ s₁, Runs (infer left) g s (.ok l₁) s₁ ∧
        ∃ l s₂, Runs (expect Ty.float left.span l₁) g s₁ (.ok l) s₂ ∧
          ∃ r₁ s₃, Runs (infer right) g s₂ (.ok r₁) s₃ ∧
            ∃ r, Runs (expect Ty.float right.span r₁) g s₃ (.ok r) s' ∧
              e' = .operation span op l r := by
  simp

theorem runs_infer_record {name : Ident} {fields : List Resolved.FieldInit} :
    Runs (infer (.record span name fields)) g s (.ok e') s' ↔
      ∃ d, g.struct? name = some d ∧ ∃ sub s₁, Runs (instantiate d.generics) g s (.ok sub) s₁ ∧
        ∃ is, Runs (forFields (fieldInferences fields) (fun f inference => do
          return FieldInit.mk f.name (← expect (f.type.substitute sub) inference.1 (← inference.2)))
          d.fields) g s₁ (.ok is) s' ∧ e' = .record span d.name (sub.map (·.2)) is := by
  simp only [infer, runs_read_bind]
  cases g.struct? name <;> simp [fault]

theorem runs_infer_block {lets : List Resolved.Let} {result : Resolved.Expr} :
    Runs (infer (.block span lets result)) g s (.ok e') s' ↔
      ∃ bs s₁, Runs (inferLets lets) g s (.ok bs) s₁ ∧
        ∃ r, Runs (infer result) g s₁ (.ok r) s' ∧ e' = .block span bs r := by
  simp

theorem runs_infer_annotated {value : Resolved.Expr} {type : Resolved.TypeExpr} :
    Runs (infer (.annotated span value type)) g s (.ok e') s' ↔
      ∃ t s₁, Runs (writtenType type) g s (.ok t) s₁ ∧
        ∃ e s₂, Runs (infer value) g s₁ (.ok e) s₂ ∧ Runs (expect t value.span e) g s₂ (.ok e') s' := by
  simp

theorem runs_infer_case {scrutinee : Resolved.Expr} {arms : List Resolved.Arm} :
    Runs (infer (.case span scrutinee arms)) g s (.ok e') s' ↔
      ∃ value s₁, Runs (infer scrutinee) g s (.ok value) s₁ ∧
        Runs (inferArms span value arms) g s₁ (.ok e') s' := by
  simp

theorem runs_infer_cond {test yes no : Resolved.Expr} :
    Runs (infer (.cond span test yes no)) g s (.ok e') s' ↔
      ∃ t₁ s₁, Runs (infer test) g s (.ok t₁) s₁ ∧
        ∃ t s₂, Runs (expect Ty.bool test.span t₁) g s₁ (.ok t) s₂ ∧
          ∃ y s₃, Runs (infer yes) g s₂ (.ok y) s₃ ∧
            ∃ n₁ s₄, Runs (infer no) g s₃ (.ok n₁) s₄ ∧
              ∃ n, Runs (expect y.type no.span n₁) g s₄ (.ok n) s' ∧ e' = .cond span t y n := by
  simp

theorem runs_infer_closure {params : List Resolved.Param} {body : Resolved.Expr} :
    Runs (infer (.closure span params body)) g s (.ok e') s' ↔
      ∃ ps s₁, Runs (closureParams params) g s (.ok ps) s₁ ∧
        ∃ b, Runs (infer body) g s₁ (.ok b) s' ∧ e' = .closure span ps (captures ps b) b := by
  simp

theorem runs_inferArgs_nil {ts : List Ty} {es' : List Expr} :
    Runs (inferArgs [] ts) g s (.ok es') s' ↔ es' = [] ∧ s' = s := by
  simp

theorem runs_inferArgs_cons {e : Resolved.Expr} {rest : List Resolved.Expr} {t : Ty} {ts : List Ty}
    {es' : List Expr} : Runs (inferArgs (e :: rest) (t :: ts)) g s (.ok es') s' ↔
      ∃ e₁ s₁, Runs (infer e) g s (.ok e₁) s₁ ∧
        ∃ a s₂, Runs (expect t e.span e₁) g s₁ (.ok a) s₂ ∧
          ∃ others, Runs (inferArgs rest ts) g s₂ (.ok others) s' ∧ es' = a :: others := by
  simp

theorem runs_inferLets_nil {bs' : List Let} :
    Runs (inferLets []) g s (.ok bs') s' ↔ bs' = [] ∧ s' = s := by
  simp

theorem runs_inferLets_cons {p : Resolved.Pattern} {value : Resolved.Expr} {rest : List Resolved.Let}
    {bs' : List Let} : Runs (inferLets (⟨span, p, value⟩ :: rest)) g s (.ok bs') s' ↔
      ∃ v s₁, Runs (infer value) g s (.ok v) s₁ ∧
        ∃ q s₂, Runs (bindPattern p v.type) g s₁ (.ok q) s₂ ∧
          ∃ others, Runs (inferLets rest) g s₂ (.ok others) s' ∧ bs' = ⟨q, v⟩ :: others := by
  simp

theorem runs_inferArms_nil {scrutinee : Expr} :
    Runs (inferArms span scrutinee []) g s (.ok e') s' ↔ e' = scrutinee ∧ s' = s := by
  simp

theorem runs_inferArms_cons {armSpan : Span} {scrutinee : Expr} {p : Resolved.Pattern}
    {body : Resolved.Expr} {rest : List Resolved.Arm} :
    Runs (inferArms span scrutinee (⟨armSpan, p, body⟩ :: rest)) g s (.ok e') s' ↔
      ∃ q s₁, Runs (bindPattern p scrutinee.type) g s (.ok q) s₁ ∧
        ∃ b s₂, Runs (infer body) g s₁ (.ok b) s₂ ∧
          (∃ u, Runs (checkArms scrutinee.type b.type rest) g s₂ (.ok u) s') ∧
            e' = .block span [⟨q, scrutinee⟩] b := by
  simp

theorem runs_checkArms_nil {t result : Ty} {u : Unit} :
    Runs (checkArms t result []) g s (.ok u) s' ↔ s' = s := by
  simp

theorem runs_checkArms_cons {t result : Ty} {p : Resolved.Pattern} {body : Resolved.Expr}
    {rest : List Resolved.Arm} {u : Unit} :
    Runs (checkArms t result (⟨span, p, body⟩ :: rest)) g s (.ok u) s' ↔
      ∃ q s₁, Runs (bindPattern p t) g s (.ok q) s₁ ∧
        ∃ b s₂, Runs (infer body) g s₁ (.ok b) s₂ ∧
          ∃ b' s₃, Runs (expect result body.span b) g s₂ (.ok b') s₃ ∧
            Runs (checkArms t result rest) g s₃ (.ok u) s' := by
  simp

theorem runs_closureParams_nil {ps' : List Param} :
    Runs (closureParams []) g s (.ok ps') s' ↔ ps' = [] ∧ s' = s := by
  simp

theorem runs_closureParams_cons {p : Resolved.Param} {rest : List Resolved.Param} {ps' : List Param} :
    Runs (closureParams (p :: rest)) g s (.ok ps') s' ↔
      ∃ t s₁, Runs (writtenType p.type) g s (.ok t) s₁ ∧
        ∃ q s₂, Runs (bindPattern p.pattern t) g s₁ (.ok q) s₂ ∧
          ∃ others, Runs (closureParams rest) g s₂ (.ok others) s' ∧ ps' = ⟨q, t⟩ :: others := by
  simp

end Outcomes

end WitnessLang.Typed
