import WitnessLang.Proofs.Resolved.Written
import WitnessLang.Proofs.Typed.Finished

set_option autoImplicit false

/-! How many types the names in written types are applied to. Where a type is written, its applications are
counted, and the first that has too few or too many types is reported. Only what a type parameter is
applied to is not counted. -/
namespace WitnessLang.Typed

open Resolved (Application TypeExpr)

def fault? (arities : Arities) (a : Application) : Option Fault :=
  if a.parameter then none
  else match a.want arities with
    | none => some ⟨.unknownStruct a.name.name, a.span⟩
    | some n => if a.given = n then none else some ⟨.arity a.name.name n a.given, a.span⟩

def firstFault (arities : Arities) (as : List Application) : Option Fault :=
  as.findSome? (fault? arities)

def checked {α : Type} (wrong : Option Fault) (a : α) : Except Fault α :=
  match wrong with
  | some f => .error f
  | none => .ok a

mutual

/-- The type that is written, whatever names are applied to. -/
def plain : TypeExpr → Ty
  | .named _ name args => .named name (plainAll args)
  | .generic _ name _ => .generic name
  | .func _ args result => .func (plainAll args) (plain result)

def plainAll : List TypeExpr → List Ty
  | [] => []
  | t :: rest => plain t :: plainAll rest

end

section Types

variable (arities : Arities)

theorem firstFault_append (as bs : List Application) :
    firstFault arities (as ++ bs) = (firstFault arities as).or (firstFault arities bs) :=
  List.findSome?_append

mutual

/-- A written type is what it says, unless one of its applications is wrong. -/
theorem typeOf_eq : (t : TypeExpr) → typeOf arities t = checked (firstFault arities t.applications) (plain t)
  | .generic _ name _ => rfl
  | .func _ args result => by
    rw [typeOf, typesOf_eq args, typeOf_eq result, TypeExpr.applications, firstFault_append]
    cases firstFault arities (TypeExpr.applicationsAll args) with
    | some f => rfl
    | none => cases firstFault arities result.applications <;> rfl
  | .named span name args => by
    have first : firstFault arities (TypeExpr.named span name args).applications =
        (fault? arities ⟨span, name, args.length, false⟩).or
          (firstFault arities (TypeExpr.applicationsAll args)) := by
      rw [TypeExpr.applications, firstFault, List.findSome?_cons]
      cases fault? arities ⟨span, name, args.length, false⟩ <;> rfl
    -- the name is looked up and counted before its arguments are gone through
    have counted : ∀ n, Application.want arities ⟨span, name, args.length, false⟩ = some n → (do
        if args.length ≠ n then throw ⟨.arity name.name n args.length, span⟩
        return Ty.named name (← typesOf arities args) : Except Fault Ty) =
        checked (firstFault arities (TypeExpr.named span name args).applications) (plain (.named span name args)) := by
      intro n wanted
      rw [first, fault?, if_neg Bool.false_ne_true, wanted, typesOf_eq args]
      by_cases enough : args.length = n
      · simp only [enough, ne_eq, not_true_eq_false, if_false, if_true, Option.none_or]
        cases firstFault arities (TypeExpr.applicationsAll args) <;> rfl
      · simp only [enough, ne_eq, not_false_eq_true, if_false, if_true, Option.some_or]
        rfl
    rw [typeOf]
    by_cases builtin : name.tag.isBuiltin = true
    · rw [if_pos builtin]
      exact counted 0 (by rw [Application.want, builtin]; rfl)
    · have want : Application.want arities ⟨span, name, args.length, false⟩ = arities.lookup name.tag := by
        rw [Application.want, Bool.eq_false_iff.mpr builtin]
        rfl
      rw [if_neg builtin]
      cases found : arities.lookup name.tag with
      | some n => exact counted n (want.trans found)
      | none =>
        rw [first, fault?, if_neg Bool.false_ne_true, want, found]
        rfl

theorem typesOf_eq : (ts : List TypeExpr) →
    typesOf arities ts = checked (firstFault arities (TypeExpr.applicationsAll ts)) (plainAll ts)
  | [] => rfl
  | t :: rest => by
    rw [typesOf, typeOf_eq t, typesOf_eq rest, TypeExpr.applicationsAll, firstFault_append]
    cases firstFault arities t.applications with
    | some f => rfl
    | none => cases firstFault arities (TypeExpr.applicationsAll rest) <;> rfl

end

end Types

/-- How many types the structs that are known are applied to. -/
def Globals.arities (g : Globals) : Arities := g.structs.map fun s => (s.name.tag, s.generics.length)

/-- Two computations that come to the same, unless the first reports a fault of one of some written types.
Where a result comes out, all of those types are in order. -/
def Watches {α : Type} (g : Globals) (ts : List TypeExpr) (m m' : Check α) : Prop := ∀ s r s', Runs m g s r s' →
  (∃ t ∈ ts, ∃ f, firstFault g.arities t.applications = some f ∧ r = .error f) ∨
    Runs m' g s r s' ∧ ∀ a, r = .ok a → ∀ t ∈ ts, firstFault g.arities t.applications = none

section Watches

variable {α β : Type} {g : Globals} {ts us : List TypeExpr} {m m' : Check α} {k k' : α → Check β}

theorem watches_same (m : Check α) : Watches g [] m m := fun _ _ _ ran =>
  Or.inr ⟨ran, fun _ _ _ member => by cases member⟩

theorem watches_stop (span : Span) (cause : Cause) : Watches g ts (fault (α := α) span cause) (fault span cause) :=
  fun s r s' ran => Or.inr ⟨ran, fun a made => by rw [(runs_fault.mp ran).1] at made; cases made⟩

theorem watches_fault (span : Span) (cause : Cause) : Watches g ts (fault (α := α) span cause >>= k)
    (fault (α := α) span cause >>= k') := fun s r s' ran => by
  rw [runs_fault_bind] at ran
  exact Or.inr ⟨runs_fault_bind.mpr ran, fun a made => by rw [ran.1] at made; cases made⟩

theorem Watches.bind (first : Watches g ts m m')
    (next : ∀ a s s', Runs m g s (.ok a) s' → Watches g us (k a) (k' a)) :
    Watches g (ts ++ us) (m >>= k) (m' >>= k') := by
  intro s r s' ran
  rcases runs_bind.mp ran with ⟨a, s₁, front, back⟩ | ⟨e, front, rfl⟩
  · rcases first s _ s₁ front with ⟨t, member, f, wrong, same⟩ | ⟨front', right⟩
    · cases same
    · rcases next a s s₁ front s₁ r s' back with ⟨t, member, f, wrong, same⟩ | ⟨back', right'⟩
      · exact Or.inl ⟨t, List.mem_append_right _ member, f, wrong, same⟩
      · exact Or.inr ⟨runs_bind.mpr (Or.inl ⟨a, s₁, front', back'⟩), fun b made =>
          List.forall_mem_append.mpr ⟨right a rfl, right' b made⟩⟩
  · rcases first s _ s' front with ⟨t, member, f, wrong, same⟩ | ⟨front', right⟩
    · obtain rfl := Except.error.inj same
      exact Or.inl ⟨t, List.mem_append_left _ member, e, wrong, rfl⟩
    · exact Or.inr ⟨runs_bind.mpr (Or.inr ⟨e, front', rfl⟩), fun b made => by cases made⟩

/-- A last step that looks at no written type. -/
theorem Watches.then (first : Watches g ts m m') (k : α → Check β) : Watches g ts (m >>= k) (m' >>= k) := by
  have all : Watches g (ts ++ []) (m >>= k) (m' >>= k) := first.bind fun a _ _ _ => watches_same (k a)
  rwa [List.append_nil] at all

theorem Watches.congr (watches : Watches g ts m m') (same : ∀ t, t ∈ us ↔ t ∈ ts) : Watches g us m m' := by
  intro s r s' ran
  rcases watches s r s' ran with ⟨t, member, wrong⟩ | ⟨ran', right⟩
  · exact Or.inl ⟨t, (same t).mpr member, wrong⟩
  · exact Or.inr ⟨ran', fun a made t member => right a made t ((same t).mp member)⟩

end Watches

section Expressions

variable {structs : Resolved.Declared} {g : Globals} {generics : List Tag} {h : TypeExpr → TypeExpr}

/-- Types that are in order stay as they are. -/
def Fixes (arities : Arities) (h : TypeExpr → TypeExpr) : Prop :=
  ∀ t : TypeExpr, firstFault arities t.applications = none → h t = t

theorem writtenType_watches (fixes : Fixes g.arities h) (t : TypeExpr) :
    Watches g [t] (writtenType t) (writtenType (h t)) := by
  intro s r s' ran
  cases wrong : firstFault g.arities t.applications with
  | none => exact Or.inr ⟨(fixes t wrong).symm ▸ ran, fun _ _ => List.forall_mem_singleton.mpr wrong⟩
  | some f =>
    rw [writtenType, runs_read_bind] at ran
    dsimp only at ran
    have failed : typeOf (g.structs.map fun s => (s.name.tag, s.generics.length)) t = .error f :=
      (typeOf_eq g.arities t).trans (by rw [wrong]; rfl)
    rw [failed] at ran
    exact Or.inl ⟨t, List.mem_singleton_self t, f, wrong, (runs_throw.mp ran).1⟩

/-- An expression is inferred the same with other types in the place of wrong ones, or one of them is
reported. -/
def ExprWatched (structs : Resolved.Declared) (g : Globals) (generics : List Tag) (h : TypeExpr → TypeExpr)
    (e : Resolved.Expr) : Prop :=
  ∀ vars, e.Scoped structs generics vars → Watches g e.written (infer e) (infer (e.mapWritten h))

theorem directCallee?_mapWritten (e : Resolved.Expr) : directCallee? (e.mapWritten h) = directCallee? e := by
  cases e <;> rfl

theorem fieldWritten_eq_flatMap (fs : List Resolved.FieldInit) :
    Resolved.Expr.fieldWritten fs = fs.flatMap (·.value.written) := by
  induction fs with
  | nil => rfl
  | cons f rest ih =>
    obtain ⟨span, name, value⟩ := f
    exact congrArg (value.written ++ ·) ih

theorem args_watches {es : List Resolved.Expr} {vars : List Tag} {ts : List Ty}
    (each : ∀ e ∈ es, ExprWatched structs g generics h e) (enough : ts.length = es.length)
    (inside : Resolved.Expr.ScopedAll structs generics vars es) :
    Watches g (Resolved.Expr.writtenAll es) (inferArgs es ts) (inferArgs (Resolved.Expr.mapWrittenAll h es) ts) := by
  induction es generalizing ts with
  | nil => exact watches_same _
  | cons e rest ih =>
    obtain ⟨t, ts, rfl⟩ := List.exists_cons_of_length_eq_add_one enough
    rw [List.forall_mem_cons] at each
    rw [Resolved.Expr.mapWrittenAll, inferArgs, inferArgs, Resolved.Expr.writtenAll, Resolved.Expr.span_mapWritten]
    refine (each.1 vars inside.1).bind fun e' _ _ _ => ?_
    refine (watches_same (expect t e.span e')).bind fun a _ _ _ => ?_
    exact (ih each.2 (by simpa using enough) inside.2).then _

theorem fieldInferences_lookups {fields : List Resolved.FieldInit} {n : String}
    (given : n ∈ fields.map (·.name)) : ∃ x ∈ fields, x.name = n ∧
      (fieldInferences fields).lookup n = some (x.value.span, infer x.value) ∧
      (fieldInferences (Resolved.Expr.mapFieldWritten h fields)).lookup n =
        some (x.value.span, infer (x.value.mapWritten h)) := by
  induction fields with
  | nil => cases given
  | cons f rest ih =>
    obtain ⟨span, name, value⟩ := f
    rw [Resolved.Expr.mapFieldWritten, fieldInferences, fieldInferences, List.lookup_cons, List.lookup_cons]
    cases same : n == name with
    | true =>
      exact ⟨⟨span, name, value⟩, List.mem_cons_self, (beq_iff_eq.mp same).symm, rfl,
        by rw [Resolved.Expr.span_mapWritten]⟩
    | false =>
      rw [List.map_cons, List.mem_cons] at given
      obtain ⟨x, member, named, found, found'⟩ := ih (given.resolve_left (beq_eq_false_iff_ne.mp same))
      exact ⟨x, List.mem_cons_of_mem _ member, named, found, found'⟩

/-- The values of the fields that are declared are gone through, in the order of the declaration. -/
theorem fields_watches (sub : Substitution) (declared : List Field) {fields : List Resolved.FieldInit}
    (each : ∀ f ∈ fields, Watches g f.value.written (infer f.value) (infer (f.value.mapWritten h)))
    (once : (fields.map (·.name)).Nodup) (given : ∀ d ∈ declared, d.name ∈ fields.map (·.name)) :
    ∃ us, us ⊆ Resolved.Expr.fieldWritten fields ∧
      (∀ f ∈ fields, f.name ∈ declared.map (·.name) → f.value.written ⊆ us) ∧
      Watches g us
        (forFields (fieldInferences fields) (fun f inference => do
          return FieldInit.mk f.name (← expect (f.type.substitute sub) inference.1 (← inference.2))) declared)
        (forFields (fieldInferences (Resolved.Expr.mapFieldWritten h fields)) (fun f inference => do
          return FieldInit.mk f.name (← expect (f.type.substitute sub) inference.1 (← inference.2))) declared) := by
  induction declared with
  | nil => exact ⟨[], List.nil_subset _, fun _ _ named => (by cases named), watches_same _⟩
  | cons d rest ih =>
    rw [List.forall_mem_cons] at given
    obtain ⟨us, within, covers, watches⟩ := ih given.2
    obtain ⟨x, member, named, found, found'⟩ := fieldInferences_lookups (h := h) given.1
    refine ⟨x.value.written ++ us, List.append_subset.mpr ⟨?_, within⟩, fun f field named' => ?_, ?_⟩
    · rw [fieldWritten_eq_flatMap]
      exact fun t inside => List.mem_flatMap.mpr ⟨x, member, inside⟩
    · rcases List.mem_cons.mp named' with same | later
      · obtain rfl : f = x := List.inj_on_of_nodup_map once field member (same.trans named.symm)
        exact List.subset_append_left _ _
      · exact fun t inside => List.mem_append_right _ (covers f field later inside)
    · rw [forFields, forFields, found, found']
      refine Watches.bind ?_ fun b _ _ _ => watches.then _
      exact (each x member).then _

theorem lets_watches {bs : List Resolved.Let} {vars : List Tag}
    (each : ∀ b ∈ bs, ExprWatched structs g generics h b.value)
    (inside : Resolved.Expr.LetsScoped structs generics vars bs) :
    Watches g (Resolved.Expr.letWritten bs) (inferLets bs) (inferLets (Resolved.Expr.mapLetWritten h bs)) := by
  induction bs generalizing vars with
  | nil => exact watches_same _
  | cons b rest ih =>
    obtain ⟨span, p, value⟩ := b
    rw [List.forall_mem_cons] at each
    rw [Resolved.Expr.mapLetWritten, inferLets, inferLets]
    refine (each.1 vars inside.1).bind fun value' _ _ _ => ?_
    exact (watches_same (bindPattern p value'.type)).bind fun p' _ _ _ => (ih each.2 inside.2.2).then _

theorem checkArms_watches {as : List Resolved.Arm} {vars : List Tag} {t result : Ty}
    (each : ∀ a ∈ as, ExprWatched structs g generics h a.body)
    (inside : Resolved.Expr.ArmsScoped structs generics vars as) :
    Watches g (Resolved.Expr.armWritten as) (checkArms t result as)
      (checkArms t result (Resolved.Expr.mapArmWritten h as)) := by
  induction as with
  | nil => exact watches_same _
  | cons a rest ih =>
    obtain ⟨span, p, body⟩ := a
    rw [List.forall_mem_cons] at each
    rw [Resolved.Expr.mapArmWritten, checkArms, checkArms, Resolved.Expr.span_mapWritten]
    refine (watches_same (bindPattern p t)).bind fun _ _ _ _ => ?_
    refine (each.1 _ inside.2.1).bind fun body' _ _ _ => ?_
    exact (watches_same (expect result body.span body')).bind fun _ _ _ _ => ih each.2 inside.2.2

theorem arms_watches {as : List Resolved.Arm} {vars : List Tag} {span : Span} {scrutinee : Expr}
    (each : ∀ a ∈ as, ExprWatched structs g generics h a.body)
    (inside : Resolved.Expr.ArmsScoped structs generics vars as) :
    Watches g (Resolved.Expr.armWritten as) (inferArms span scrutinee as)
      (inferArms span scrutinee (Resolved.Expr.mapArmWritten h as)) := by
  cases as with
  | nil => exact watches_same _
  | cons a rest =>
    obtain ⟨_, p, body⟩ := a
    rw [List.forall_mem_cons] at each
    rw [Resolved.Expr.mapArmWritten, inferArms, inferArms]
    refine (watches_same (bindPattern p scrutinee.type)).bind fun p' _ _ _ => ?_
    refine (each.1 _ inside.2.1).bind fun body' _ _ _ => ?_
    exact (checkArms_watches each.2 inside.2.2).then _

theorem closureParams_watches (fixes : Fixes g.arities h) (ps : List Resolved.Param) :
    Watches g (ps.map (·.type)) (closureParams ps)
      (closureParams (ps.map fun p => { p with type := h p.type })) := by
  induction ps with
  | nil => exact watches_same _
  | cons p rest ih =>
    rw [List.map_cons, List.map_cons, closureParams, closureParams]
    refine (writtenType_watches fixes p.type).bind fun t _ _ _ => ?_
    exact (watches_same (bindPattern p.pattern t)).bind fun _ _ _ _ => ih.then _

theorem call_watches {span : Span} {callee : Resolved.Expr} {args : List Resolved.Expr}
    (ofCallee : ExprWatched structs g generics h callee)
    (ofArgs : ∀ e ∈ args, ExprWatched structs g generics h e) :
    ExprWatched structs g generics h (.call span callee args) := by
  intro vars inside
  rw [Resolved.Expr.mapWritten, infer, infer, directCallee?_mapWritten, Resolved.Expr.length_mapWrittenAll,
    Resolved.Expr.span_mapWritten]
  refine (watches_same (directCallee? callee)).bind fun direct s s' known => ?_
  cases direct with
  | some name =>
    have silent : callee.written = [] := by
      cases callee with
      | var span name => rfl
      | _ => cases (runs_pure.mp known).1
    change Watches g (callee.written ++ _) _ _
    rw [silent]
    dsimp only
    refine (watches_same read).bind fun g' _ _ same => ?_
    cases g'.function? name with
    | none => exact watches_stop _ _
    | some f =>
      dsimp only
      by_cases enough : f.params.length = args.length
      · rw [if_neg (not_not.mpr enough), if_neg (not_not.mpr enough)]
        refine (watches_same (instantiate f.generics)).bind fun sub _ _ _ => ?_
        exact (args_watches ofArgs (by simpa using enough) inside.2).then _
      · rw [if_pos enough, if_pos enough]
        exact watches_fault _ _
  | none =>
    refine (ofCallee vars inside.1).bind fun target _ _ _ => ?_
    refine (watches_same get).bind fun s _ _ _ => ?_
    cases s.bindings.resolve target.type with
    | func params result =>
      dsimp only
      by_cases enough : params.length = args.length
      · rw [if_neg (not_not.mpr enough), if_neg (not_not.mpr enough)]
        exact (args_watches ofArgs enough inside.2).then _
      · rw [if_pos enough, if_pos enough]
        exact (watches_same get).bind fun _ _ _ _ => watches_fault _ _
    | _ => exact (watches_same get).bind fun _ _ _ _ => watches_stop _ _

theorem record_watches (whole : g.Formed structs) {span : Span} {name : Ident} {fields : List Resolved.FieldInit}
    (each : ∀ f ∈ fields, ExprWatched structs g generics h f.value) :
    ExprWatched structs g generics h (.record span name fields) := by
  intro vars inside
  obtain ⟨⟨names, listed, once, complete⟩, inside⟩ := inside
  rw [Resolved.Expr.mapWritten, infer, infer]
  refine (watches_same read).bind fun g' _ _ same => ?_
  obtain rfl : g = g' := Except.ok.inj (congrArg Prod.fst same)
  cases found : g.struct? name with
  | none => exact watches_stop _ _
  | some d =>
    obtain ⟨member, named⟩ := g.mem_of_struct? found
    have declared : d.fields.map (·.name) = names := whole.declared _ listed d member named
    refine (watches_same (instantiate d.generics)).bind fun sub _ _ _ => ?_
    obtain ⟨us, within, covers, watches⟩ := fields_watches sub d.fields
      (fun f field => each f field vars (fieldsScoped_iff.mp inside f field)) once
      fun f field => (complete f.name).mpr (declared ▸ List.mem_map_of_mem field)
    refine Watches.congr (watches.then _) fun t => ⟨fun written => ?_, fun used => within used⟩
    change t ∈ Resolved.Expr.fieldWritten fields at written
    rw [fieldWritten_eq_flatMap] at written
    obtain ⟨f, field, written⟩ := List.mem_flatMap.mp written
    exact covers f field (declared ▸ (complete f.name).mp (List.mem_map_of_mem field)) written

/-- Inference looks at all written types, and does not depend on those that are wrong. -/
theorem infer_watches (whole : g.Formed structs) (fixes : Fixes g.arities h) (e : Resolved.Expr) :
    ExprWatched structs g generics h e := by
  induction e with
  | number span text bits => exact fun _ _ => watches_same _
  | bool span value => exact fun _ _ => watches_same _
  | var span name => exact fun _ _ => watches_same _
  | call span callee args ofCallee ofArgs => exact call_watches ofCallee ofArgs
  | operation span op left right ofLeft ofRight =>
    intro vars inside
    rw [Resolved.Expr.mapWritten, infer, infer, Resolved.Expr.span_mapWritten, Resolved.Expr.span_mapWritten]
    refine (ofLeft vars inside.1).bind fun l _ _ _ => ?_
    refine (watches_same (expect Ty.float left.span l)).bind fun _ _ _ _ => ?_
    exact (ofRight vars inside.2).then _
  | record span name fields each => exact record_watches whole each
  | block span lets result each ofResult =>
    intro vars inside
    rw [Resolved.Expr.mapWritten, infer, infer]
    exact (lets_watches each inside.1).bind fun _ _ _ _ => (ofResult _ inside.2).then _
  | annotated span value type ofValue =>
    intro vars inside
    rw [Resolved.Expr.mapWritten, infer, infer, Resolved.Expr.span_mapWritten]
    exact (writtenType_watches fixes type).bind fun t _ _ _ => (ofValue vars inside.1).then _
  | case span scrutinee arms ofScrutinee each =>
    intro vars inside
    rw [Resolved.Expr.mapWritten, infer, infer]
    exact (ofScrutinee vars inside.1).bind fun s _ _ _ => arms_watches each inside.2
  | cond span test yes no ofTest ofYes ofNo =>
    intro vars inside
    rw [Resolved.Expr.mapWritten, infer, infer, Resolved.Expr.span_mapWritten, Resolved.Expr.span_mapWritten]
    refine (ofTest vars inside.1).bind fun t _ _ _ => ?_
    refine (watches_same (expect Ty.bool test.span t)).bind fun _ _ _ _ => ?_
    exact (ofYes vars inside.2.1).bind fun y _ _ _ => (ofNo vars inside.2.2).then _
  | closure span params body ofBody =>
    intro vars inside
    rw [Resolved.Expr.mapWritten, infer, infer]
    exact (closureParams_watches fixes params).bind fun _ _ _ _ => (ofBody _ inside.2).then _

end Expressions

section Programs

variable {structs : Resolved.Declared} {g : Globals} {h : TypeExpr → TypeExpr}

theorem bindParams_mapWritten (ps : List Resolved.Param) (ts : List Ty) :
    bindParams (ps.map fun p => { p with type := h p.type }) ts = bindParams ps ts := by
  induction ps generalizing ts with
  | nil => rfl
  | cons p rest ih =>
    cases ts with
    | nil => rfl
    | cons t ts => rw [List.map_cons, bindParams, bindParams, ih]

theorem checkFunction_watches (whole : g.Formed structs) (fixes : Fixes g.arities h) {f : Resolved.Function}
    {functions : List Tag} (inside : f.Scoped structs functions) (sig : Signature) :
    Watches g f.body.written (checkFunction f sig) (checkFunction (f.mapWritten h) sig) := by
  rw [checkFunction_eq, checkFunction_eq, inferFunction, inferFunction]
  refine Watches.then (Watches.bind (watches_same _) fun _ _ _ _ => ?_) (finishFunction f sig)
  dsimp only [Resolved.Function.mapWritten]
  rw [bindParams_mapWritten, Resolved.Expr.span_mapWritten]
  refine (watches_same (bindParams f.params sig.params)).bind fun params _ _ _ => ?_
  exact (infer_watches whole fixes f.body _ inside.body).then _

/-- Functions are checked the same with other types in the place of wrong ones, or one of them is reported. -/
theorem checkFunctions_watches (whole : g.Formed structs) (fixes : Fixes g.arities h) {functions : List Tag}
    {fs : List (Resolved.Function × Signature)} (inside : ∀ e ∈ fs, e.1.Scoped structs functions) (n : Nat) :
    (∃ e ∈ fs, ∃ t ∈ e.1.body.written, ∃ f, firstFault g.arities t.applications = some f ∧
      checkFunctions g n fs = .error ⟨f.cause, f.span, e.1.name.name⟩) ∨
    checkFunctions g n (fs.map fun e => (e.1.mapWritten h, e.2)) = checkFunctions g n fs ∧
      ∀ done, checkFunctions g n fs = .ok done →
        ∀ e ∈ fs, ∀ t ∈ e.1.body.written, firstFault g.arities t.applications = none := by
  induction fs generalizing n with
  | nil => exact Or.inr ⟨rfl, fun _ _ => List.forall_mem_nil _⟩
  | cons e rest ih =>
    obtain ⟨f, sig⟩ := e
    rw [List.forall_mem_cons] at inside
    cases run : outcome (checkFunction f sig g) { minted := n } with
    | mk r s =>
      have ended : Runs (checkFunction f sig) g { minted := n } r s := run
      rcases checkFunction_watches whole fixes inside.1 sig _ r s ended with
        ⟨t, member, wrong, same, rfl⟩ | ⟨again, right⟩
      · exact Or.inl ⟨(f, sig), List.mem_cons_self, t, member, wrong, same, checkFunctions_cons_error ended⟩
      · cases r with
        | error e =>
          rw [List.map_cons, checkFunctions_cons_error ended, checkFunctions_cons_error again]
          exact Or.inr ⟨rfl, fun _ done => by cases done⟩
        | ok f' =>
          rw [List.map_cons, checkFunctions_cons_ok ended, checkFunctions_cons_ok again]
          rcases ih inside.2 s.minted with ⟨e, member, t, written, wrong, same, failed⟩ | ⟨later, others⟩
          · exact Or.inl ⟨e, List.mem_cons_of_mem _ member, t, written, wrong, same, by rw [failed]; rfl⟩
          · refine Or.inr ⟨by rw [later], fun done checked => ?_⟩
            cases tail : checkFunctions g s.minted rest with
            | error e => rw [tail] at checked; cases checked
            | ok fs => exact List.forall_mem_cons.mpr ⟨right f' rfl, others fs tail⟩

/-- What is reported of a type that is written in a definition. -/
def reported? (arities : Arities) (w : Ident × TypeExpr) : Option Error :=
  (firstFault arities w.2.applications).map fun f => ⟨f.cause, f.span, w.1.name⟩

def Answers {ε α : Type} (wrong : Option ε) (r : Except ε α) : Prop :=
  match wrong with
  | some e => r = .error e
  | none => ∃ a, r = .ok a

theorem Answers.bind {ε α β : Type} {first second : Option ε} {r : Except ε α} {k : α → Except ε β}
    (answers : Answers first r) (next : ∀ a, Answers second (k a)) : Answers (first.or second) (r >>= k) := by
  cases first with
  | some e =>
    obtain rfl := answers
    exact rfl
  | none =>
    obtain ⟨a, rfl⟩ := answers
    exact next a

theorem answers_pure {ε α : Type} (a : α) : Answers none (pure a : Except ε α) := ⟨a, rfl⟩

/-- Items are gone through in order, and the first that is wrong ends the work. -/
theorem answers_mapM {ε α β : Type} {act : α → Except ε β} {wrong? : α → Option ε}
    (each : ∀ a, Answers (wrong? a) (act a)) (as : List α) : Answers (as.findSome? wrong?) (as.mapM act) := by
  induction as with
  | nil => exact answers_pure []
  | cons a rest ih =>
    rw [List.mapM_cons]
    have all := (each a).bind fun b => ih.bind fun bs => answers_pure (b :: bs)
    rw [List.findSome?_cons]
    rw [Option.or_none] at all
    cases same : wrong? a with
    | some e => rwa [same, Option.some_or] at all
    | none => rwa [same, Option.none_or] at all

theorem findSome?_flatMap {α β γ : Type} {f : α → List β} {pick : β → Option γ} {as : List α} :
    (as.flatMap f).findSome? pick = as.findSome? fun a => (f a).findSome? pick := by
  induction as with
  | nil => rfl
  | cons a rest ih =>
    rw [List.flatMap_cons, List.findSome?_append, List.findSome?_cons, ih]
    cases (f a).findSome? pick <;> rfl

theorem typesOf_answers (arities : Arities) (name : Ident) (ts : List TypeExpr) :
    Answers ((ts.map (name, ·)).findSome? (reported? arities)) (inDefinition name (typesOf arities ts)) := by
  have first : (ts.map (name, ·)).findSome? (reported? arities) =
      (firstFault arities (TypeExpr.applicationsAll ts)).map fun f => ⟨f.cause, f.span, name.name⟩ := by
    induction ts with
    | nil => rfl
    | cons t rest ih =>
      rw [List.map_cons, List.findSome?_cons, ih, reported?, TypeExpr.applicationsAll, firstFault_append]
      cases firstFault arities t.applications <;> rfl
  rw [first, typesOf_eq]
  cases firstFault arities (TypeExpr.applicationsAll ts) with
  | some f => exact rfl
  | none => exact ⟨_, rfl⟩

theorem structOf_answers (arities : Arities) (s : Resolved.Struct) :
    Answers ((s.fields.map fun f => (s.name, f.type)).findSome? (reported? arities)) (structOf arities s) := by
  have all := (typesOf_answers arities s.name (s.fields.map (·.type))).bind fun types =>
    answers_pure (Struct.mk s.span s.name s.generics ((s.fields.zip types).map fun x => ⟨x.1.name.name, x.2⟩))
  rwa [Option.or_none, List.map_map] at all

theorem signatureOf_answers (arities : Arities) (f : Resolved.Function) :
    Answers ((f.declaredTypes.map (f.name, ·)).findSome? (reported? arities)) (signatureOf arities f) := by
  have last : Answers (([f.result].map (f.name, ·)).findSome? (reported? arities))
      (inDefinition f.name (typeOf arities f.result)) := by
    rw [typeOf_eq, List.map_singleton, List.findSome?_singleton, reported?]
    cases firstFault arities f.result.applications with
    | some e => exact rfl
    | none => exact ⟨_, rfl⟩
  have all := (typesOf_answers arities f.name (f.params.map (·.type))).bind fun params =>
    last.bind fun result => answers_pure (Signature.mk f.name f.generics params result)
  rwa [Option.or_none, ← List.findSome?_append, ← List.map_append] at all

/-- The declarations of a program are in order, unless one of the types in them is wrong. -/
theorem declarations_answers (p : Resolved.Program) :
    Answers (p.declaredTypes.findSome? (reported? (aritiesOf p.structs))) (declarations p) := by
  have all := (answers_mapM (structOf_answers (aritiesOf p.structs)) p.structs).bind fun structs =>
    (answers_mapM (signatureOf_answers (aritiesOf p.structs)) p.functions).bind fun signatures =>
      answers_pure (Globals.mk structs signatures)
  rwa [Option.or_none, ← findSome?_flatMap, ← findSome?_flatMap, ← List.findSome?_append] at all

theorem mapM_map_eq {ε α β : Type} {act : α → Except ε β} {f : α → α} {as : List α}
    (same : ∀ a ∈ as, act (f a) = act a) : (as.map f).mapM act = as.mapM act := by
  induction as with
  | nil => rfl
  | cons a rest ih =>
    rw [List.forall_mem_cons] at same
    rw [List.map_cons, List.mapM_cons, List.mapM_cons, same.1, ih same.2]

/-- Declarations that are in order stay as they are. -/
theorem declarations_mapWritten {p : Resolved.Program} (fixes : Fixes (aritiesOf p.structs) h)
    (right : ∀ w ∈ p.declaredTypes, firstFault (aritiesOf p.structs) w.2.applications = none) :
    declarations (p.mapWritten h) = declarations p := by
  have structs : (p.mapWritten h).structs = p.structs := by
    refine (List.map_congr_left fun s member => ?_).trans (List.map_id _)
    have fields : (s.fields.map fun f => { f with type := h f.type }) = s.fields := by
      refine (List.map_congr_left fun f field => ?_).trans (List.map_id _)
      rw [fixes f.type (right (s.name, f.type) (List.mem_append_left _
        (List.mem_flatMap.mpr ⟨s, member, List.mem_map_of_mem field⟩)))]
      rfl
    rw [fields]
    rfl
  rw [declarations, declarations, structs]
  refine congrArg (_ >>= ·) (funext fun structs => congrArg (· >>= _) (mapM_map_eq fun f member => ?_))
  have signed : ∀ t ∈ f.declaredTypes, h t = t := fun t declared =>
    fixes t (right (f.name, t) (List.mem_append_right _
      (List.mem_flatMap.mpr ⟨f, member, List.mem_map_of_mem declared⟩)))
  rw [Resolved.Function.declaredTypes, List.forall_mem_append, List.forall_mem_singleton,
    List.forall_mem_map] at signed
  have params : ((f.mapWritten h).params.map (·.type)) = f.params.map (·.type) := by
    rw [Resolved.Function.mapWritten, List.map_map]
    exact List.map_congr_left signed.1
  have result : (f.mapWritten h).result = f.result := signed.2
  rw [signatureOf, params, result]
  rfl

theorem firstFault_eq_none {arities : Arities} {as : List Application} :
    firstFault arities as = none ↔ ∀ a ∈ as, a.Counted arities := by
  rw [firstFault, List.findSome?_eq_none_iff]
  refine forall₂_congr fun a _ => ?_
  rw [fault?, Application.Counted]
  cases a.parameter with
  | true => simp
  | false =>
    cases a.want arities with
    | none => simp
    | some n => simp [eq_comm]

theorem want_of_known {p : Resolved.Program} {t : TypeExpr} (known : t.Known (p.structs.map (·.name.tag)))
    {a : Application} (member : a ∈ t.applications) (name : a.parameter = false) :
    ∃ n, a.want (aritiesOf p.structs) = some n := by
  rw [Application.want, name, Bool.false_or]
  split
  · exact ⟨0, rfl⟩
  · rename_i struct
    have listed := (known a member name).resolve_left struct
    rw [← Option.isSome_iff_exists, List.lookup_isSome_iff]
    obtain ⟨s, member, same⟩ := List.mem_map.mp listed
    exact ⟨(s.name.tag, s.generics.length), List.mem_map_of_mem member, by simp [same]⟩

/-- What the first wrong one of some applications is reported as. -/
theorem firstFault_eq_some {arities : Arities} {as : List Application} {f : Fault}
    (known : ∀ a ∈ as, a.parameter = false → ∃ n, a.want arities = some n)
    (wrong : firstFault arities as = some f) : ∃ a ∈ as, ∃ n, a.parameter = false ∧
      a.want arities = some n ∧ a.given ≠ n ∧ f = ⟨.arity a.name.name n a.given, a.span⟩ := by
  obtain ⟨a, member, wrong⟩ := List.exists_of_findSome?_eq_some wrong
  rw [fault?] at wrong
  split at wrong
  · cases wrong
  · rename_i name
    rw [Bool.not_eq_true] at name
    obtain ⟨n, wanted⟩ := known a member name
    rw [wanted] at wrong
    dsimp only at wrong
    split at wrong
    · cases wrong
    · rename_i other
      exact ⟨a, member, n, name, wanted, other, (Option.some.inj wrong).symm⟩

/-- An error is that of a wrong application in some types. -/
def Reports (arities : Arities) (ws : List (Ident × TypeExpr)) (e : Error) : Prop :=
  ∃ w ∈ ws, ∃ a ∈ w.2.applications, ∃ n, a.parameter = false ∧ a.want arities = some n ∧
    a.given ≠ n ∧ e = ⟨.arity a.name.name n a.given, a.span, w.1.name⟩

theorem Declares.arities {p : Resolved.Program} (declares : Declares p g) : g.arities = aritiesOf p.structs := by
  have names := congrArg (List.map (·.tag)) declares.names
  have generics := congrArg (List.map List.length) declares.generics
  simp only [List.map_map] at names generics
  have zipped := congrArg₂ List.zip names generics
  rw [List.zip_map', List.zip_map'] at zipped
  exact zipped

/-- A program is checked the same with other types in the place of wrong ones, or one of them is reported. -/
theorem check_watches {p : Resolved.Program} (inside : p.Scoped) (own : p.unit ≠ Tag.builtinUnit)
    (fixes : Fixes (aritiesOf p.structs) h) :
    (∃ w ∈ p.written, ∃ f, firstFault (aritiesOf p.structs) w.2.applications = some f ∧
      check p = .error ⟨f.cause, f.span, w.1.name⟩) ∨
    check (p.mapWritten h) = check p ∧
      ∀ p', check p = .ok p' → ∀ w ∈ p.written, firstFault (aritiesOf p.structs) w.2.applications = none := by
  have answers := declarations_answers p
  cases wrong : p.declaredTypes.findSome? (reported? (aritiesOf p.structs)) with
  | some e =>
    rw [wrong] at answers
    obtain ⟨w, member, reports⟩ := List.exists_of_findSome?_eq_some wrong
    obtain ⟨f, first, rfl⟩ := Option.map_eq_some_iff.mp reports
    refine Or.inl ⟨w, List.mem_append_left _ member, f, first, ?_⟩
    have declared : declarations p = .error ⟨f.cause, f.span, w.1.name⟩ := answers
    rw [check_eq, declared]
    rfl
  | none =>
    rw [wrong] at answers
    obtain ⟨g, declared⟩ : ∃ g, declarations p = .ok g := answers
    have right : ∀ w ∈ p.declaredTypes, firstFault (aritiesOf p.structs) w.2.applications = none :=
      fun w member => Option.map_eq_none_iff.mp (List.findSome?_eq_none_iff.mp wrong w member)
    have declares := declarations_declare inside own declared
    have each : ∀ e ∈ p.functions.zip g.functions, e.1.Scoped p.declared (p.functions.map (·.name.tag)) :=
      fun e member => inside.functions e.1 (List.of_mem_zip member).1
    have declared' := (declarations_mapWritten fixes right).trans declared
    rw [← declares.arities] at fixes ⊢
    rw [check_of_declarations declared, check_of_declarations declared']
    have pairs : (p.mapWritten h).functions.zip g.functions =
        (p.functions.zip g.functions).map fun e => (e.1.mapWritten h, e.2) := List.zip_map_left ..
    rw [pairs]
    rcases checkFunctions_watches declares.whole fixes each 0 with
      ⟨e, member, t, written, f, first, failed⟩ | ⟨same, all⟩
    · have inProgram : (e.1.name, t) ∈ p.written := List.mem_append_right _ (List.mem_flatMap.mpr
        ⟨e.1, (List.of_mem_zip member).1, List.mem_map_of_mem written⟩)
      refine Or.inl ⟨(e.1.name, t), inProgram, f, first, ?_⟩
      rw [failed]
      rfl
    · refine Or.inr ⟨by rw [same]; rfl, fun p' accepted w member => ?_⟩
      rcases List.mem_append.mp member with member | member
      · rw [declares.arities]
        exact right w member
      · obtain ⟨f, function, written⟩ := List.mem_flatMap.mp member
        obtain ⟨t, inBody, rfl⟩ := List.mem_map.mp written
        have firsts := List.map_fst_zip (Nat.le_of_eq (List.forall₂_iff_zip.mp declares.signed).1)
        rw [← firsts] at function
        obtain ⟨e, pair, rfl⟩ := List.mem_map.mp function
        cases checked : checkFunctions g 0 (p.functions.zip g.functions) with
        | error e => rw [checked] at accepted; cases accepted
        | ok done => exact all done checked e pair t inBody

/-- The names in the types of an accepted program are applied to as many types as they take. Of the types in
fields and signatures the first wrong application is reported. If a type inside a function is wrong, it is
reported, or what is reported has nothing to do with wrong types: it is reported with whatever types in
their place. -/
theorem applications_counted {file : Surface.File} {names : List String} {unit : Nat} {p : Resolved.Program}
    {table : SymbolTable} (own : unit ≠ Tag.builtinUnit)
    (resolved : Resolved.resolve file (names.foldl SymbolTable.intern .start) unit = (.ok p, table)) :
    (∀ p', check p = .ok p' → ∀ w ∈ p.written, ∀ a ∈ w.2.applications, a.Counted (aritiesOf p.structs)) ∧
    (∀ before w after, p.declaredTypes = before ++ w :: after →
      (∀ v ∈ before, ∀ a ∈ v.2.applications, a.Counted (aritiesOf p.structs)) →
      ∀ front a back, w.2.applications = front ++ a :: back →
        (∀ b ∈ front, b.Counted (aritiesOf p.structs)) → ¬ a.Counted (aritiesOf p.structs) →
        ∃ n, a.want (aritiesOf p.structs) = some n ∧
          check p = .error ⟨.arity a.name.name n a.given, a.span, w.1.name⟩) ∧
    ∀ w ∈ p.written, ∀ a ∈ w.2.applications, ¬ a.Counted (aritiesOf p.structs) →
      ∃ e, check p = .error e ∧ (Reports (aritiesOf p.structs) p.written e ∨
        ∀ h : TypeExpr → TypeExpr,
          (∀ t, (∀ a ∈ t.applications, a.Counted (aritiesOf p.structs)) → h t = t) →
          check (p.mapWritten h) = .error e) := by
  obtain ⟨inside, rfl⟩ := Resolved.resolve_scoped own resolved
  have known : ∀ w ∈ p.written, ∀ a ∈ w.2.applications, a.parameter = false →
      ∃ n, a.want (aritiesOf p.structs) = some n := fun w member a applied name =>
    want_of_known (Resolved.resolve_known own resolved w member) applied name
  have counted : ∀ p', check p = .ok p' → ∀ w ∈ p.written, ∀ a ∈ w.2.applications,
      a.Counted (aritiesOf p.structs) := by
    intro p' accepted w member
    rcases check_watches inside own (h := id) (fun _ _ => rfl) with ⟨v, -, f, -, failed⟩ | ⟨-, right⟩
    · rw [failed] at accepted
      cases accepted
    · exact firstFault_eq_none.mp (right p' accepted w member)
  refine ⟨counted, fun before w after split early front a back apart right wrong => ?_,
    fun w member a applied wrong => ?_⟩
  · have inDeclared : w ∈ p.declaredTypes := by simp [split]
    have name : a.parameter = false := by
      by_contra parameter
      exact wrong fun other => absurd other parameter
    obtain ⟨n, wanted⟩ := known w (List.mem_append_left _ inDeclared) a (by simp [apart]) name
    refine ⟨n, wanted, ?_⟩
    have other : a.given ≠ n := fun same => wrong fun _ => wanted.trans (congrArg some same.symm)
    have fault : fault? (aritiesOf p.structs) a = some ⟨.arity a.name.name n a.given, a.span⟩ := by
      rw [fault?, name, if_neg Bool.false_ne_true, wanted]
      exact if_neg other
    have first : firstFault (aritiesOf p.structs) w.2.applications = some ⟨.arity a.name.name n a.given, a.span⟩ := by
      rw [apart, firstFault_append, firstFault_eq_none.mpr right, Option.none_or, firstFault,
        List.findSome?_cons, fault]
    have nothing : before.findSome? (reported? (aritiesOf p.structs)) = none :=
      List.findSome?_eq_none_iff.mpr fun v member =>
        Option.map_eq_none_iff.mpr (firstFault_eq_none.mpr (early v member))
    have answers := declarations_answers p
    rw [split, List.findSome?_append, nothing, Option.none_or, List.findSome?_cons, reported?, first] at answers
    have declared : declarations p = .error ⟨.arity a.name.name n a.given, a.span, w.1.name⟩ := answers
    rw [check_eq, declared]
    rfl
  · cases outcome : check p with
    | ok p' => exact absurd (counted p' outcome w member a applied) wrong
    | error e =>
      refine ⟨e, rfl, ?_⟩
      by_cases reports : Reports (aritiesOf p.structs) p.written e
      · exact Or.inl reports
      · refine Or.inr fun h fixes => ?_
        rcases check_watches inside own (h := h) fun t right => fixes t (firstFault_eq_none.mp right) with
          ⟨v, written, f, first, failed⟩ | ⟨same, -⟩
        · obtain ⟨b, inside, n, name, wanted, other, rfl⟩ := firstFault_eq_some (known v written) first
          rw [outcome] at failed
          exact absurd ⟨v, written, b, inside, n, name, wanted, other, Except.error.inj failed⟩ reports
        · exact same.trans outcome

/-- Some application in the types of a file is as said. -/
def someApplication (file : Surface.File) (unit : Nat) (holds : Arities → Application → Bool) : Bool :=
  match Resolved.resolve file .start unit with
  | (.ok p, _) => p.written.any fun w => w.2.applications.any (holds (aritiesOf p.structs))
  | (.error _, _) => false

theorem exists_of_someApplication {file : Surface.File} {unit : Nat} {holds : Arities → Application → Bool}
    (found : someApplication file unit holds = true) : ∃ p table,
      Resolved.resolve file .start unit = (.ok p, table) ∧
      ∃ w ∈ p.written, ∃ a ∈ w.2.applications, holds (aritiesOf p.structs) a = true := by
  rw [someApplication] at found
  split at found
  · rename_i p table resolved
    obtain ⟨w, written, found⟩ := List.any_eq_true.mp found
    exact ⟨p, table, resolved, w, written, List.any_eq_true.mp found⟩
  · cases found

/-- A file with a function that says of a number that it is in a box of two types. -/
def crowdedFile : Surface.File :=
  ⟨{}, [
    .struct ⟨{}, "Box", {}, [⟨{}, "t"⟩], [⟨{}, "value", .named {} "t"⟩]⟩,
    .func ⟨{}, "pack", {}, [], [⟨{}, .var {} "x", .named {} "F64"⟩], .named {} "F64",
      .annotated {} (.var {} "x") (.apply {} "Box" [.named {} "F64", .named {} "F64"])⟩]⟩

/-- The file is refused: a box is of one type. -/
theorem crowdedFile_refused : ∃ p table e, Resolved.resolve crowdedFile .start 1 = (.ok p, table) ∧
    check p = .error e ∧ (Reports (aritiesOf p.structs) p.written e ∨ ∀ h : TypeExpr → TypeExpr,
      (∀ t, (∀ a ∈ t.applications, a.Counted (aritiesOf p.structs)) → h t = t) →
      check (p.mapWritten h) = .error e) := by
  have wrong : someApplication crowdedFile 1 (fun arities a => !a.parameter &&
      decide (a.want arities ≠ some a.given)) = true := by decide +kernel
  obtain ⟨p, table, resolved, w, written, a, applied, wrong⟩ := exists_of_someApplication wrong
  simp only [Bool.and_eq_true, Bool.not_eq_true', decide_eq_true_eq] at wrong
  obtain ⟨-, -, refused⟩ := @applications_counted crowdedFile [] 1 p table (by decide) resolved
  obtain ⟨e, failed, why⟩ := refused w written a applied fun counted => wrong.2 (counted wrong.1)
  exact ⟨p, table, e, resolved, failed, why⟩

/-- A file with a function that applies its type parameter. -/
def appliedFile : Surface.File :=
  ⟨{}, [.func ⟨{}, "keep", {}, [⟨{}, "t"⟩], [⟨{}, .var {} "x", .apply {} "t" [.named {} "F64"]⟩],
    .named {} "t", .var {} "x"⟩]⟩

/-- The file is accepted, though a type parameter takes no types. -/
theorem appliedFile_accepted : ∃ p table p', Resolved.resolve appliedFile .start 1 = (.ok p, table) ∧
    check p = .ok p' ∧ ∃ w ∈ p.written, ∃ a ∈ w.2.applications,
      a.want (aritiesOf p.structs) ≠ some a.given := by
  have accepted : (accepted? appliedFile 1).isSome = true := by decide +kernel
  have wrong : someApplication appliedFile 1 (fun arities a =>
      decide (a.want arities ≠ some a.given)) = true := by decide +kernel
  obtain ⟨p, table, resolved, w, written, a, applied, wrong⟩ := exists_of_someApplication wrong
  rw [accepted?, resolved] at accepted
  obtain ⟨p', checked⟩ := Option.isSome_iff_exists.mp accepted
  exact ⟨p, table, p', resolved, Except.toOption_eq_some.mp checked, w, written, a, applied,
    of_decide_eq_true wrong⟩

end Programs

end WitnessLang.Typed
