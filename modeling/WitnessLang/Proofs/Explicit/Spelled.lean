import WitnessLang.Proofs.Explicit.Program
import WitnessLang.Proofs.Types.Key
import WitnessLang.Proofs.Typed.Spelled

set_option autoImplicit false

namespace WitnessLang.Explicit

section Spelled

variable (T : Spelling)

/-- A description that is built with types of the program. -/
def WitnessSpelled (w : WitnessExpr) : Prop :=
  ∀ i ∈ w.constructors, T.type i ∨ ∃ n, i = functionWitness n

/-- A type of the program, or that of descriptions. -/
def Passable (t : Ty) : Prop := t.Spelled T ∨ t = Ty.witness

mutual

/-- An expression in which all names are known. -/
def Expr.Spelled : Expr → Prop
  | .var _ type name => type.Spelled T ∧ T.bound name
  | .number _ _ _ | .bool _ _ => True
  | .callDirect _ type function args witnesses =>
    type.Spelled T ∧ T.function function ∧ SpelledAll args ∧ ∀ w ∈ witnesses, WitnessSpelled T w
  | .callClosure _ type callee args => type.Spelled T ∧ callee.Spelled ∧ SpelledAll args
  | .primitive _ _ left right => left.Spelled ∧ right.Spelled
  | .block _ lets result => LetsSpelled lets ∧ result.Spelled
  | .pack _ name args fields => T.type name ∧ (∀ t ∈ args, t.Spelled T) ∧ FieldsSpelled fields
  | .unpack _ type value _ => type.Spelled T ∧ value.Spelled
  | .cond _ test yes no => test.Spelled ∧ yes.Spelled ∧ no.Spelled
  | .closure _ params generics captures env body =>
    (∀ p ∈ params, T.bound p.name ∧ p.type.Spelled T) ∧ (∀ g ∈ generics, T.bound g) ∧
      (∀ c ∈ captures, T.bound c.name) ∧ T.type env ∧ body.Spelled

def Expr.SpelledAll : List Expr → Prop
  | [] => True
  | e :: rest => e.Spelled ∧ SpelledAll rest

def Expr.LetsSpelled : List Let → Prop
  | [] => True
  | ⟨name, type, value⟩ :: rest => (T.bound name ∧ type.Spelled T) ∧ value.Spelled ∧ LetsSpelled rest

def Expr.FieldsSpelled : List PackField → Prop
  | [] => True
  | ⟨_, value⟩ :: rest => value.Spelled ∧ FieldsSpelled rest

end

structure Struct.Spelled (d : Struct) : Prop where
  name : T.type d.name
  generics : ∀ g ∈ d.generics, T.bound g
  fields : ∀ f ∈ d.fields, Passable T f.type

/-- A function in which all names are known; its result has a name that is never used. -/
structure Function.Spelled (results : Ident → Prop) (f : Function) : Prop where
  name : T.function f.name
  result : ∃ result rest, f.arguments = result :: rest ∧ results result.name ∧ result.name.isGlobal = true ∧
    result.name.name = "_result" ∧ result.type.Spelled T ∧
    ∀ a ∈ rest, T.bound a.name ∧ Passable T a.type
  body : f.body.Spelled T

structure Program.Spelled (results : Ident → Prop) (p : Program) : Prop where
  structs : ∀ d ∈ p.structs, d.Spelled T
  functions : ∀ f ∈ p.functions, f.Spelled T results

end Spelled

section Lists

variable {T : Spelling}

theorem spelledAll_iff {es : List Expr} : Expr.SpelledAll T es ↔ ∀ e ∈ es, e.Spelled T := by
  induction es with
  | nil => simp [Expr.SpelledAll]
  | cons e rest ih => simp [Expr.SpelledAll, ih]

theorem fieldsSpelled_iff {fs : List PackField} :
    Expr.FieldsSpelled T fs ↔ ∀ f ∈ fs, f.value.Spelled T := by
  induction fs with
  | nil => simp [Expr.FieldsSpelled]
  | cons f rest ih =>
    cases f
    simp [Expr.FieldsSpelled, ih]

theorem letsSpelled_iff {bs : List Let} :
    Expr.LetsSpelled T bs ↔ ∀ b ∈ bs, (T.bound b.name ∧ b.type.Spelled T) ∧ b.value.Spelled T := by
  induction bs with
  | nil => simp [Expr.LetsSpelled]
  | cons b rest ih =>
    cases b
    simp [Expr.LetsSpelled, ih, and_assoc]

theorem spelled_withLets {lets : List Let} {body : Expr} (first : Expr.LetsSpelled T lets)
    (own : body.Spelled T) : (withLets lets body).Spelled T := by
  rw [withLets]
  split
  · exact own
  · exact ⟨first, own⟩

theorem Expr.Spelled.type (basic : Ty.float.Spelled T ∧ Ty.bool.Spelled T) {e : Expr} (own : e.Spelled T) :
    e.type.Spelled T := by
  induction e with
  | number => exact basic.1
  | bool => exact basic.2
  | var | callDirect | callClosure | unpack => exact own.1
  | primitive span op left right =>
    rw [Expr.type, primitiveType]
    split
    · exact basic.2
    · exact basic.1
  | block span lets result ih ihResult => exact ihResult own.2
  | pack => exact Ty.spelled_named.mpr ⟨own.1, own.2.1⟩
  | cond span test yes no ihTest ihYes ihNo => exact ihYes own.2.1
  | closure span params generics captures env body ih =>
    rw [Expr.type, Ty.spelled_func, List.forall_mem_map]
    exact ⟨fun p member => (own.1 p member).2, ih own.2.2.2.2⟩

end Lists

theorem Passable.substitute {T : Spelling} {t : Ty} {sub : Substitution} (passable : Passable T t)
    (parts : ∀ e ∈ sub, e.2.Spelled T) : Passable T (t.substitute sub) := by
  rcases passable with known | rfl
  · exact Or.inl (known.substitute parts)
  · exact Or.inr rfl

/-- The name of a temporary that a pattern is taken out of. -/
def pieceName (n : Nat) : String := "_p" ++ toString n

theorem pieceName_inj {m n : Nat} : pieceName m = pieceName n ↔ m = n := by
  rw [pieceName, pieceName, numbered_eq (by simp [Stem]) (by simp [Stem]), and_iff_right rfl]

theorem pieceName_ne_result (n : Nat) : pieceName n ≠ "_result" := numbered_ne (by simp [Stem]) n

/-- The name of the environment of a closure. -/
def environmentName (n : Nat) : String := "_Env" ++ toString n

/-- The names of the environments with numbers between two. -/
def environmentNames (first last : Nat) : List String := (List.range' first (last - first)).map environmentName

theorem environmentNames_append {first mid last : Nat} (low : first ≤ mid) (high : mid ≤ last) :
    environmentNames first mid ++ environmentNames mid last = environmentNames first last := by
  have split : last - first = (mid - first) + (last - mid) := by omega
  rw [environmentNames, environmentNames, environmentNames, ← List.map_append, split, ← List.range'_append, Nat.one_mul,
    Nat.add_sub_cancel' low]

/-- Variables and structs made up from one supply to the next. -/
structure Supply.Makes (s s' : Supply) (made : Ident → Prop) (new : List Struct) : Prop where
  unit : s'.tags.unit = s.tags.unit
  next : s.tags.next ≤ s'.tags.next
  temporaries : s.temporaries ≤ s'.temporaries
  structs : s'.structs = s.structs ++ new
  environments : s.environments ≤ s'.environments
  names : new.map (·.name.mangled) = environmentNames s.environments s'.environments
  each : ∀ i, made i → i.isGlobal = true ∧ Minted s s' i.tag ∧
    (i.name = "_result" ∨ ∃ n, s.temporaries ≤ n ∧ n < s'.temporaries ∧ i.name = pieceName n)
  once : ∀ i j, made i → made j → i.tag = j.tag ∨ i.name = j.name ∧ i.name ≠ "_result" → i = j

section Supply

variable {s s' s'' : Supply} {made made' : Ident → Prop} {new new' : List Struct}

theorem Supply.Makes.refl (s : Supply) : s.Makes s (fun _ => False) [] where
  unit := rfl
  next := Nat.le_refl _
  temporaries := Nat.le_refl _
  structs := (List.append_nil _).symm
  environments := Nat.le_refl _
  names := by rw [environmentNames, Nat.sub_self]; rfl
  each := fun _ none => none.elim
  once := fun _ _ none => none.elim

/-- What is made up later is different from what was made up before. -/
theorem Supply.Makes.apart (first : s.Makes s' made new) (second : s'.Makes s'' made' new') {i j : Ident}
    (early : made i) (late : made' j) : ¬(i.tag = j.tag ∨ i.name = j.name ∧ i.name ≠ "_result") := by
  obtain ⟨-, mintedI, kindI⟩ := first.each i early
  obtain ⟨-, mintedJ, kindJ⟩ := second.each j late
  rintro (same | ⟨same, other⟩)
  · exact mintedI.ne mintedJ same
  · obtain ⟨m, -, before, nameI⟩ := kindI.resolve_left other
    obtain ⟨n, behind, -, nameJ⟩ := kindJ.resolve_left (same ▸ other)
    rw [nameI, nameJ, pieceName_inj] at same
    omega

theorem Supply.Makes.trans (first : s.Makes s' made new) (second : s'.Makes s'' made' new') :
    s.Makes s'' (fun i => made i ∨ made' i) (new ++ new') where
  unit := second.unit.trans first.unit
  next := Nat.le_trans first.next second.next
  temporaries := Nat.le_trans first.temporaries second.temporaries
  structs := by rw [second.structs, first.structs, List.append_assoc]
  environments := Nat.le_trans first.environments second.environments
  names := by
    rw [List.map_append, first.names, second.names, environmentNames_append first.environments second.environments]
  each := by
    rintro i (early | late)
    · obtain ⟨global, minted, kind⟩ := first.each i early
      refine ⟨global, minted.early second.next, kind.imp_right ?_⟩
      rintro ⟨n, low, high, name⟩
      exact ⟨n, low, Nat.lt_of_lt_of_le high second.temporaries, name⟩
    · obtain ⟨global, minted, kind⟩ := second.each i late
      refine ⟨global, minted.late first.unit first.next, kind.imp_right ?_⟩
      rintro ⟨n, low, high, name⟩
      exact ⟨n, Nat.le_trans first.temporaries low, high, name⟩
  once := by
    rintro i j (early | late) (early' | late') same
    · exact first.once i j early early' same
    · exact absurd same (first.apart second early late')
    · refine absurd (same.imp Eq.symm fun same => ?_) (first.apart second early' late)
      exact ⟨same.1.symm, same.1 ▸ same.2⟩
    · exact second.once i j late late' same

end Supply

/-- The names that were made up are known, apart from those of results. -/
def Knows (T : Spelling) (made : Ident → Prop) (new : List Struct) : Prop :=
  (∀ i, made i → i.name ≠ "_result" → T.bound i) ∧ ∀ d ∈ new, T.type d.name

/-- From a supply, some work leaves what is said of it, wherever the names that it makes up are known. -/
def Passes {α : Type} (pre : Spelling → Prop) (m : Pass α) (s : Supply) (good : α → Spelling → Prop) : Prop :=
  Leaves m s fun a s' => ∃ made new, s.Makes s' made new ∧
    ∀ T, pre T → Knows T made new → good a T ∧ ∀ d ∈ new, d.Spelled T

section Steps

variable {α β : Type} {pre : Spelling → Prop} {m : Pass α} {f : α → Pass β} {s : Supply}
  {good : α → Spelling → Prop} {good' : β → Spelling → Prop}

theorem passes_pure {a : α} (own : ∀ T, pre T → good a T) : Passes pre (pure a) s good :=
  leaves_pure.mpr ⟨_, _, .refl s, fun T given _ => ⟨own T given, List.forall_mem_nil _⟩⟩

theorem Passes.bind (first : Passes pre m s good)
    (next : ∀ a s', Passes (fun T => pre T ∧ good a T) (f a) s' good') : Passes pre (m >>= f) s good' := by
  refine leaves_bind.mpr (first.imp ?_)
  rintro a s' ⟨made, new, makes, post⟩
  refine (next a s').imp ?_
  rintro b s'' ⟨made', new', makes', post'⟩
  refine ⟨_, _, makes.trans makes', fun T given knows => ?_⟩
  obtain ⟨known, types⟩ := knows
  rw [List.forall_mem_append] at types ⊢
  obtain ⟨own, spelled⟩ := post T given ⟨fun i early => known i (Or.inl early), types.1⟩
  obtain ⟨own', spelled'⟩ := post' T ⟨given, own⟩ ⟨fun i late => known i (Or.inr late), types.2⟩
  exact ⟨own', spelled, spelled'⟩

theorem synthetic_makes (name : String) : Leaves (synthetic name) s fun i s' =>
    i = ⟨⟨s.tags.unit, s.tags.next⟩, name, true⟩ ∧
      s' = { s with tags := { s.tags with next := s.tags.next + 1 } } := by
  rw [synthetic, leaves_get_bind, leaves_modify_bind, leaves_pure]
  exact ⟨rfl, rfl⟩

theorem temporary_passes : Passes pre temporary s fun i T => T.bound i := by
  rw [Passes, temporary, leaves_get_bind, leaves_bind]
  refine (synthetic_makes _).imp ?_
  rintro i s' ⟨same, after⟩
  rw [leaves_modify_bind, leaves_pure, after, same]
  refine ⟨(· = ⟨⟨s.tags.unit, s.tags.next⟩, pieceName s.temporaries, true⟩), [], ⟨rfl, Nat.le_succ _,
    Nat.le_succ _, (List.append_nil _).symm, Nat.le_refl _, (Supply.Makes.refl s).names, ?_, ?_⟩, fun T _ knows => ⟨?_, List.forall_mem_nil _⟩⟩
  · rintro i rfl
    exact ⟨rfl, ⟨rfl, Nat.le_refl _, Nat.lt_succ_self _⟩, Or.inr ⟨_, Nat.le_refl _, Nat.lt_succ_self _, rfl⟩⟩
  · rintro i j rfl rfl -
    rfl
  · exact knows.1 _ rfl (pieceName_ne_result _)

theorem addEnvironment_passes {span : Span} {generics : List Ident} {captures : List Capture}
    (kept : ∀ T, pre T → ∀ g ∈ generics, T.bound g)
    (taken : ∀ T, pre T → ∀ c ∈ captures, c.type.Spelled T) :
    Passes pre (addEnvironment span generics captures) s fun i T => T.type i := by
  rw [Passes, addEnvironment, leaves_get_bind, leaves_bind]
  refine (synthetic_makes _).imp ?_
  rintro i s' ⟨same, after⟩
  rw [leaves_modify_bind, addStruct, leaves_modify_bind, leaves_pure, after]
  refine ⟨fun _ => False, [environment span i generics captures], ⟨rfl, Nat.le_succ _, Nat.le_refl _, rfl,
    Nat.le_succ _, ?_, fun _ none => none.elim, fun _ _ none => none.elim⟩, fun T given knows => ?_⟩
  · rw [environmentNames, Nat.add_sub_cancel_left, same]
    rfl
  have known := List.forall_mem_singleton.mp knows.2
  refine ⟨known, List.forall_mem_singleton.mpr ⟨known, kept T given, List.forall_mem_append.mpr ⟨?_, ?_⟩⟩⟩
  · exact List.forall_mem_map.mpr fun _ _ => Or.inr rfl
  · exact List.forall_mem_map.mpr fun c member => Or.inl (taken T given c member)

end Steps

section Patterns

mutual

theorem unpackFields_passes {pre : Spelling → Prop} {s : Supply} {span : Span} {type : Ty} {source : Ident}
    (held : ∀ T, pre T → type.Spelled T ∧ T.bound source) : (fs : List Typed.FieldPattern) →
    (∀ T, pre T → ∀ f ∈ fs, f.pattern.Spelled T) →
      Passes pre (unpackFields span type source fs) s fun bs T => Expr.LetsSpelled T bs
  | [], _ => passes_pure fun _ _ => trivial
  | ⟨name, p⟩ :: rest, own => by
    simp only [List.forall_mem_cons] at own
    rw [unpackFields]
    refine (bindValue_passes p (.unpack p.span p.type (.var span type source) name)
      fun T given => ⟨(own T given).1, ?_, held T given⟩).bind fun bs s₁ => ?_
    · exact (own T given).1.types _ p.type_mem_types
    refine (unpackFields_passes (fun T given => held T given.1) rest fun T given =>
      (own T given.1).2).bind fun cs s₂ => passes_pure fun T given => ?_
    rw [letsSpelled_iff, List.forall_mem_append]
    exact ⟨letsSpelled_iff.mp given.1.2, letsSpelled_iff.mp given.2⟩

theorem bindValue_passes {pre : Spelling → Prop} {s : Supply} : (p : Typed.Pattern) → (value : Expr) →
    (∀ T, pre T → p.Spelled T ∧ value.Spelled T) →
      Passes pre (bindValue p value) s fun bs T => Expr.LetsSpelled T bs
  | .var _ name type, value, own => passes_pure fun T given =>
    have ⟨names, types⟩ := (own T given).1
    ⟨⟨List.forall_mem_singleton.mp names, List.forall_mem_singleton.mp types⟩, (own T given).2, trivial⟩
  | .record span _ type fields, value, own => by
    have whole : ∀ T, pre T → type.Spelled T := fun T given =>
      (own T given).1.types _ List.mem_cons_self
    rw [bindValue]
    refine temporary_passes.bind fun t s₁ => ?_
    refine (unpackFields_passes (fun T given => ⟨whole T given.1, given.2⟩) fields fun T given =>
      (own T given.1).1.fields).bind fun bs s₂ => passes_pure fun T given => ?_
    exact ⟨⟨given.1.2, whole T given.1.1⟩, (own T given.1.1).2, given.2⟩

end

variable {pre : Spelling → Prop} {s : Supply}

theorem bindParam_passes (p : Typed.Pattern) (own : ∀ T, pre T → p.Spelled T) :
    Passes pre (bindParam p) s fun made T => T.bound made.1 ∧ Expr.LetsSpelled T made.2 := by
  cases p with
  | var span name type =>
    exact passes_pure fun T given => ⟨(own T given).names name List.mem_cons_self, trivial⟩
  | record span name type fields =>
    rw [bindParam]
    refine temporary_passes.bind fun t s₁ => ?_
    refine (unpackFields_passes (fun T given => ⟨?_, given.2⟩) fields fun T given =>
      (own T given.1).fields).bind fun bs s₂ => passes_pure fun T given => ⟨given.1.2, given.2⟩
    exact (own T given.1).types _ List.mem_cons_self

theorem bindParams_passes {ps : List Typed.Param} (own : ∀ T, pre T → ∀ p ∈ ps, p.Spelled T) :
    Passes pre (bindParams ps) s fun made T =>
      (∀ a ∈ made.1, T.bound a.name ∧ a.type.Spelled T) ∧ Expr.LetsSpelled T made.2 := by
  induction ps generalizing pre s with
  | nil => exact passes_pure fun _ _ => ⟨List.forall_mem_nil _, trivial⟩
  | cons p rest ih =>
    simp only [List.forall_mem_cons] at own
    rw [bindParams]
    refine (bindParam_passes p.pattern fun T given => (own T given).1.pattern).bind fun made s₁ => ?_
    refine (ih fun T given => (own T given.1).2).bind fun others s₂ => passes_pure fun T given => ⟨?_, ?_⟩
    · exact List.forall_mem_cons.mpr ⟨⟨given.1.2.1, (own T given.1.1).1.type⟩, given.2.1⟩
    · rw [letsSpelled_iff, List.forall_mem_append]
      exact ⟨letsSpelled_iff.mp given.1.2.2, letsSpelled_iff.mp given.2.2⟩

end Patterns

section Expressions

/-- A typed expression in which all names are known, and so are those of numbers and truth values. -/
def Known (e : Typed.Expr) (T : Spelling) : Prop :=
  e.Spelled T ∧ Ty.float.Spelled T ∧ Ty.bool.Spelled T

theorem closureGenerics_spelled {T : Spelling} {t : Ty} {captures : List Typed.Capture} {body : Typed.Expr}
    (type : t.Spelled T) (taken : ∀ c ∈ captures, c.Spelled T) (inside : Known body T) :
    ∀ g ∈ closureGenerics t captures body, T.bound g := by
  intro g member
  obtain ⟨u, origin, parameter⟩ := List.mem_flatMap.mp ((mem_of_addIdents member).resolve_left List.not_mem_nil)
  refine Ty.Spelled.mem_parameters ?_ parameter
  rcases List.mem_append.mp origin with captured | other
  · obtain ⟨c, member, rfl⟩ := List.mem_map.mp captured
    exact (taken c member).type
  · rcases List.mem_cons.mp other with rfl | needed
    · exact type
    · exact inside.1.types inside.2 u (neededTypes_subset body needed)

mutual

theorem expr_passes {pre : Spelling → Prop} {s : Supply} : (e : Typed.Expr) → (∀ T, pre T → Known e T) →
    Passes pre (expr e) s fun e' T => e'.Spelled T
  | .number _ _ _, _ => passes_pure fun _ _ => trivial
  | .bool _ _, _ => passes_pure fun _ _ => trivial
  | .var _ name type, own => passes_pure fun T given => (own T given).1.symm
  | .callDirect _ type function generics args, own => by
    rw [expr]
    refine (exprs_passes args fun T given => ⟨(own T given).1.2.2.2, (own T given).2⟩).bind fun as s₁ =>
      passes_pure fun T given => ?_
    obtain ⟨result, name, types, -⟩ := (own T given.1).1
    exact ⟨result, name, given.2, List.forall_mem_map.mpr fun t member => (types t member).constructors⟩
  | .callClosure _ type callee args, own => by
    rw [expr]
    refine (expr_passes callee fun T given => ⟨(own T given).1.2.1, (own T given).2⟩).bind fun f s₁ => ?_
    refine (exprs_passes args fun T given => ⟨(own T given.1).1.2.2, (own T given.1).2⟩).bind fun as s₂ =>
      passes_pure fun T given => ⟨(own T given.1.1).1.1, given.1.2, given.2⟩
  | .operation _ _ left right, own => by
    rw [expr]
    refine (expr_passes left fun T given => ⟨(own T given).1.1, (own T given).2⟩).bind fun l s₁ => ?_
    exact (expr_passes right fun T given => ⟨(own T given.1).1.2, (own T given.1).2⟩).bind fun r s₂ =>
      passes_pure fun T given => ⟨given.1.2, given.2⟩
  | .record _ name args fields, own => by
    rw [expr]
    refine (packFields_passes fields fun T given => ⟨(own T given).1.2.2, (own T given).2⟩).bind fun fs s₁ =>
      passes_pure fun T given => ⟨(own T given.1).1.1, (own T given.1).1.2.1, given.2⟩
  | .block _ bs result, own => by
    rw [expr]
    refine (lets_passes bs fun T given => ⟨(own T given).1.1, (own T given).2⟩).bind fun bs' s₁ => ?_
    exact (expr_passes result fun T given => ⟨(own T given.1).1.2, (own T given.1).2⟩).bind fun r s₂ =>
      passes_pure fun T given => ⟨given.1.2, given.2⟩
  | .cond _ test yes no, own => by
    rw [expr]
    refine (expr_passes test fun T given => ⟨(own T given).1.1, (own T given).2⟩).bind fun t s₁ => ?_
    refine (expr_passes yes fun T given => ⟨(own T given.1).1.2.1, (own T given.1).2⟩).bind fun y s₂ => ?_
    exact (expr_passes no fun T given => ⟨(own T given.1.1).1.2.2, (own T given.1.1).2⟩).bind fun n s₃ =>
      passes_pure fun T given => ⟨given.1.1.2, given.1.2, given.2⟩
  | .closure _ ps cs body, own => by
    have inside : ∀ T, pre T → Known body T := fun T given => ⟨(own T given).1.2.2, (own T given).2⟩
    have kept : ∀ T, pre T → ∀ g ∈ closureGenerics (.func (ps.map (·.type)) body.type) cs body, T.bound g := by
      intro T given
      refine closureGenerics_spelled (Ty.spelled_func.mpr ⟨?_, ?_⟩) (own T given).1.2.1 (inside T given)
      · exact List.forall_mem_map.mpr fun p member => ((own T given).1.1 p member).type
      · exact (inside T given).1.type (inside T given).2
    rw [expr]
    refine (bindParams_passes fun T given => (own T given).1.1).bind fun made s₁ => ?_
    refine (addEnvironment_passes (fun T given => kept T given.1) fun T given => ?_).bind fun env s₂ => ?_
    · exact List.forall_mem_map.mpr fun c member => ((own T given.1).1.2.1 c member).type
    refine (expr_passes body fun T given => inside T given.1.1).bind fun e s₃ => passes_pure fun T given => ?_
    obtain ⟨⟨⟨given, params, unpacked⟩, environment⟩, result⟩ := given
    refine ⟨params, kept T given, ?_, environment, spelled_withLets unpacked result⟩
    exact List.forall_mem_map.mpr fun c member => ((own T given).1.2.1 c member).name

theorem exprs_passes {pre : Spelling → Prop} {s : Supply} : (es : List Typed.Expr) →
    (∀ T, pre T → Typed.Expr.SpelledAll T es ∧ Ty.float.Spelled T ∧ Ty.bool.Spelled T) →
      Passes pre (exprs es) s fun es' T => Expr.SpelledAll T es'
  | [], _ => passes_pure fun _ _ => trivial
  | e :: rest, own => by
    rw [exprs]
    refine (expr_passes e fun T given => ⟨(own T given).1.1, (own T given).2⟩).bind fun e' s₁ => ?_
    exact (exprs_passes rest fun T given => ⟨(own T given.1).1.2, (own T given.1).2⟩).bind fun es s₂ =>
      passes_pure fun T given => ⟨given.1.2, given.2⟩

theorem packFields_passes {pre : Spelling → Prop} {s : Supply} : (fs : List Typed.FieldInit) →
    (∀ T, pre T → Typed.Expr.FieldsSpelled T fs ∧ Ty.float.Spelled T ∧ Ty.bool.Spelled T) →
      Passes pre (packFields fs) s fun fs' T => Expr.FieldsSpelled T fs'
  | [], _ => passes_pure fun _ _ => trivial
  | ⟨name, value⟩ :: rest, own => by
    rw [packFields]
    refine (expr_passes value fun T given => ⟨(own T given).1.1, (own T given).2⟩).bind fun e' s₁ => ?_
    exact (packFields_passes rest fun T given => ⟨(own T given.1).1.2, (own T given.1).2⟩).bind fun es s₂ =>
      passes_pure fun T given => ⟨given.1.2, given.2⟩

theorem lets_passes {pre : Spelling → Prop} {s : Supply} : (bs : List Typed.Let) →
    (∀ T, pre T → Typed.Expr.LetsSpelled T bs ∧ Ty.float.Spelled T ∧ Ty.bool.Spelled T) →
      Passes pre (lets bs) s fun bs' T => Expr.LetsSpelled T bs'
  | [], _ => passes_pure fun _ _ => trivial
  | ⟨p, value⟩ :: rest, own => by
    rw [lets]
    refine (expr_passes value fun T given => ⟨(own T given).1.2.1, (own T given).2⟩).bind fun e' s₁ => ?_
    refine (bindValue_passes p _ fun T given => ⟨(own T given.1).1.1, given.2⟩).bind fun bound s₂ => ?_
    refine (lets_passes rest fun T given => ⟨(own T given.1.1).1.2.2, (own T given.1.1).2⟩).bind fun bs s₃ =>
      passes_pure fun T given => ?_
    rw [letsSpelled_iff, List.forall_mem_append]
    exact ⟨letsSpelled_iff.mp given.1.2, letsSpelled_iff.mp given.2⟩

end

end Expressions

section Definitions

variable {pre : Spelling → Prop} {s : Supply}

/-- A function behind the variable of its result. -/
theorem functionBody_passes {f : Typed.Function} {result : Ident}
    (own : ∀ T, pre T → f.Spelled T ∧ Ty.float.Spelled T ∧ Ty.bool.Spelled T) :
    Passes pre (do
      let (params, unpacked) ← bindParams f.params
      let body ← expr f.body
      return Function.mk f.span f.name (⟨result, f.result, .out⟩ :: params
        ++ f.generics.map fun g => ⟨g, Ty.witness, .borrowed⟩) (withLets unpacked body)) s fun f' T => f'.name = f.name ∧ f'.body.Spelled T ∧
          ∃ rest, f'.arguments = ⟨result, f.result, .out⟩ :: rest ∧
            ∀ a ∈ rest, T.bound a.name ∧ Passable T a.type := by
  refine (bindParams_passes fun T given => (own T given).1.params).bind fun made s₂ => ?_
  refine (expr_passes f.body fun T given => ⟨(own T given.1).1.body, (own T given.1).2⟩).bind fun e s₃ =>
    passes_pure fun T given => ⟨rfl, spelled_withLets given.1.2.2 given.2, _, rfl, ?_⟩
  refine List.forall_mem_append.mpr ⟨fun a member => ?_, List.forall_mem_map.mpr fun g member => ?_⟩
  · exact ⟨(given.1.2.1 a member).1, Or.inl (given.1.2.1 a member).2⟩
  · exact ⟨(own T given.1.1).1.generics g member, Or.inr rfl⟩

/-- A typed function in which all names are known, and so are those of numbers and truth values. -/
theorem function_passes {f : Typed.Function}
    (own : ∀ T, pre T → f.Spelled T ∧ Ty.float.Spelled T ∧ Ty.bool.Spelled T) :
    Leaves (function f) s fun f' s' => ∃ made new, s.Makes s' made new ∧
      ∀ T, pre T → Knows T made new → f'.Spelled T made ∧ ∀ d ∈ new, d.Spelled T := by
  rw [function, leaves_bind]
  refine (synthetic_makes _).imp ?_
  rintro result s₁ ⟨same, after⟩
  have first : s.Makes s₁ (· = result) [] := by
    rw [after, same]
    refine ⟨rfl, Nat.le_succ _, Nat.le_refl _, (List.append_nil _).symm, Nat.le_refl _, (Supply.Makes.refl s).names,
      ?_, ?_⟩
    · rintro i rfl
      exact ⟨rfl, ⟨rfl, Nat.le_refl _, Nat.lt_succ_self _⟩, Or.inl rfl⟩
    · rintro i j rfl rfl -
      rfl
  refine (functionBody_passes own).imp ?_
  rintro f' s₂ ⟨made, new, makes, post⟩
  refine ⟨_, _, first.trans makes, fun T given knows => ?_⟩
  obtain ⟨⟨name, body, others, arguments, known⟩, spelled⟩ :=
    post T given ⟨fun i late => knows.1 i (Or.inr late), knows.2⟩
  refine ⟨⟨name ▸ (own T given).1.name, ⟨_, others, arguments, Or.inl rfl, ?_, ?_, (own T given).1.result, known⟩,
    body⟩, spelled⟩
  · rw [same]
  · rw [same]

theorem Function.Spelled.mono {T : Spelling} {results results' : Ident → Prop} {f : Function}
    (spelled : f.Spelled T results) (more : ∀ i, results i → results' i) : f.Spelled T results' := by
  obtain ⟨name, ⟨result, rest, arguments, own, others⟩, body⟩ := spelled
  exact ⟨name, ⟨result, rest, arguments, more _ own, others⟩, body⟩

theorem functions_passes {fs : List Typed.Function}
    (own : ∀ T, pre T → (∀ f ∈ fs, f.Spelled T) ∧ Ty.float.Spelled T ∧ Ty.bool.Spelled T) :
    Leaves (fs.mapM function) s fun fs' s' => ∃ made new, s.Makes s' made new ∧
      ∀ T, pre T → Knows T made new → (∀ f ∈ fs', f.Spelled T made) ∧ ∀ d ∈ new, d.Spelled T := by
  induction fs generalizing s with
  | nil =>
    rw [List.mapM_nil, leaves_pure]
    exact ⟨_, _, .refl s, fun T _ _ => ⟨List.forall_mem_nil _, List.forall_mem_nil _⟩⟩
  | cons f rest ih =>
    simp only [List.forall_mem_cons] at own
    rw [List.mapM_cons, leaves_bind]
    refine (function_passes fun T given => ⟨(own T given).1.1, (own T given).2⟩).imp ?_
    rintro f' s₁ ⟨made, new, makes, post⟩
    rw [leaves_bind]
    refine (ih fun T given => ⟨(own T given).1.2, (own T given).2⟩).imp ?_
    rintro fs' s₂ ⟨made', new', makes', post'⟩
    rw [leaves_pure]
    refine ⟨_, _, makes.trans makes', ?_⟩
    rintro T given ⟨known, types⟩
    rw [List.forall_mem_append] at types ⊢
    obtain ⟨first, spelled⟩ := post T given ⟨fun i early => known i (Or.inl early), types.1⟩
    obtain ⟨others, spelled'⟩ := post' T given ⟨fun i late => known i (Or.inr late), types.2⟩
    refine ⟨List.forall_mem_cons.mpr ⟨first.mono fun _ => Or.inl, fun g member => ?_⟩, spelled, spelled'⟩
    exact (others g member).mono fun _ => Or.inr

/-- Functions keep their names. -/
theorem functions_names (fs : List Typed.Function) (s : Supply) :
    Leaves (fs.mapM function) s fun fs' _ => fs'.map (·.name) = fs.map (·.name) := by
  induction fs generalizing s with
  | nil => rfl
  | cons f rest ih =>
    rw [List.mapM_cons, leaves_bind]
    refine (show Leaves (function f) s fun f' _ => f'.name = f.name from rfl).imp fun f' s₁ name => ?_
    rw [leaves_bind]
    refine (ih s₁).imp fun fs' s₂ names => ?_
    rw [leaves_pure, List.map_cons, List.map_cons, name, names]

theorem pass_functions (p : Typed.Program) : (pass p).functions.map (·.name) = p.functions.map (·.name) := by
  have work : Leaves (do
      p.structs.forM fun d => addStruct (structOf d)
      p.functions.mapM function : Pass (List Function)) {} fun fs _ => fs.map (·.name) = p.functions.map (·.name) := by
    rw [leaves_bind]
    exact addStructs_leaves.imp fun _ s _ => functions_names p.functions s
  exact work

/-- The variables that are made up for a program: temporaries, each with a name of its own, and results. -/
structure Fabricated (made : Ident → Prop) : Prop where
  each : ∀ i, made i → i.isGlobal = true ∧ i.tag.unit = Tag.syntheticUnit ∧
    (i.name = "_result" ∨ ∃ n, i.name = pieceName n)
  once : ∀ i j, made i → made j → i.tag = j.tag ∨ i.name = j.name ∧ i.name ≠ "_result" → i = j

/-- All names in a program with explicit type arguments are its own, or made up; the structs of closures are
numbered. -/
theorem pass_spelled (p : Typed.Program) : ∃ made, Fabricated made ∧
    (∃ n, (pass p).structs.map (·.name.mangled) = p.structs.map (·.name.mangled) ++ environmentNames 0 n) ∧
    ∀ T, p.Spelled T → Ty.float.Spelled T ∧ Ty.bool.Spelled T → Knows T made (pass p).structs →
      (pass p).Spelled T made := by
  have work : Leaves (do
      p.structs.forM fun d => addStruct (structOf d)
      p.functions.mapM function : Pass (List Function)) {} fun fs s => ∃ made, Fabricated made ∧
        (∃ n, s.structs.map (·.name.mangled) = p.structs.map (·.name.mangled) ++ environmentNames 0 n) ∧
        ∀ T, p.Spelled T → Ty.float.Spelled T ∧ Ty.bool.Spelled T → Knows T made s.structs →
          (Program.mk p.unit s.structs s.builders fs).Spelled T made := by
    rw [leaves_bind]
    refine addStructs_leaves.imp fun _ s₁ start => ?_
    refine (functions_passes fun T (given : p.Spelled T ∧ Ty.float.Spelled T ∧ Ty.bool.Spelled T) =>
      ⟨given.1.functions, given.2⟩).imp ?_
    rintro fs s₂ ⟨made, new, makes, post⟩
    refine ⟨made, ⟨fun i own => ?_, makes.once⟩, ⟨s₂.environments, ?_⟩, fun T own basic knows => ?_⟩
    · obtain ⟨global, minted, kind⟩ := makes.each i own
      refine ⟨global, minted.unit.trans (by rw [start]), kind.imp_right ?_⟩
      rintro ⟨n, -, -, name⟩
      exact ⟨n, name⟩
    · rw [makes.structs, List.map_append, makes.names, start, List.nil_append, List.map_map]
      rfl
    · obtain ⟨known, types⟩ := knows
      rw [makes.structs, List.forall_mem_append] at types
      obtain ⟨functions, spelled⟩ := post T ⟨own, basic⟩ ⟨known, types.2⟩
      refine ⟨?_, functions⟩
      rw [makes.structs, List.forall_mem_append, start, List.nil_append, List.forall_mem_map]
      refine ⟨fun d member => ?_, spelled⟩
      have struct := own.structs d member
      exact ⟨struct.name, struct.generics, List.forall_mem_map.mpr fun f field => Or.inl (struct.fields f field)⟩
  exact work

end Definitions

end WitnessLang.Explicit
