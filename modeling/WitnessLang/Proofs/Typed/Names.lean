import WitnessLang.Proofs.Typed.Spelled

set_option autoImplicit false

namespace WitnessLang.Typed

/-- The names of a program before and after its types are found, where the structs under some tags are
known: a written name stands for a type if that is built in or known. -/
structure Finds (S T : Spelling) (known : Tag → Prop) : Prop where
  bound : ∀ i, S.bound i → T.bound i
  type : ∀ i, S.type i → i.tag.isBuiltin = true ∨ known i.tag → T.type i
  basic : Ty.float.Spelled T ∧ Ty.bool.Spelled T
  apart : ∀ i j, S.bound i ∨ S.function i → T.bound j → i.tag = j.tag → i = j

/-- What is known is spelled as the program spells it. -/
structure Progress.Spelled (S : Spelling) (s : Progress) : Prop where
  vars : ∀ e ∈ s.vars, (∃ i, S.bound i ∧ i.tag = e.1) ∧ e.2.Spelled S
  bindings : s.bindings.Spelled S

/-- Definitions in which all names are those of the program. -/
structure Globals.Spelled (S : Spelling) (g : Globals) : Prop where
  structs : ∀ s ∈ g.structs, s.Spelled S
  functions : ∀ f ∈ g.functions, f.Spelled S

/-- Checking keeps what is known spelled as the program spells it, and gives a result as said. -/
abbrev Yields {α : Type} (S : Spelling) (g : Globals) (m : Check α) (good : α → Prop) : Prop :=
  Preserves (Progress.Spelled S) g m good

theorem typesSpelled_iff {S : Spelling} {ts : List Resolved.TypeExpr} :
    Resolved.TypeExpr.SpelledAll S ts ↔ ∀ t ∈ ts, t.Spelled S := by
  induction ts with
  | nil => simp [Resolved.TypeExpr.SpelledAll]
  | cons t rest ih => simp [Resolved.TypeExpr.SpelledAll, ih]

/-- Definitions whose names are those of the program, in which all structs are known. -/
structure Carries (S T : Spelling) (known : Tag → Prop) (g : Globals) : Prop where
  finds : Finds S T known
  whole : g.Spelled T
  listed : ∀ d ∈ g.structs, known d.name.tag

section Types

variable {S T : Spelling} {known : Tag → Prop} {arities : Arities} {g : Globals}

mutual

theorem typeOf_spelled (finds : Finds S T known) (listed : ∀ tag n, arities.lookup tag = some n → known tag) {u : Ty} :
    (t : Resolved.TypeExpr) → t.Spelled S → typeOf arities t = .ok u → u.Spelled T
  | .generic _ _ _, own, done => by
    obtain rfl := Except.ok.inj done
    exact Ty.spelled_generic.mpr (finds.bound _ own)
  | .func _ args result, own, done => by
    rw [typeOf, Except.bind_eq_ok] at done
    obtain ⟨args', first, done⟩ := done
    rw [Except.bind_eq_ok] at done
    obtain ⟨result', second, done⟩ := done
    obtain rfl := Except.ok.inj done
    exact Ty.spelled_func.mpr ⟨typesOf_spelled finds listed args own.1 first,
      typeOf_spelled finds listed result own.2 second⟩
  | .named span name args, own, done => by
    obtain ⟨arity, args', inner, rfl⟩ := named_of_typeOf done
    refine Ty.spelled_named.mpr ⟨finds.type name own.1 ?_, typesOf_spelled finds listed args own.2 inner⟩
    split at arity
    · exact Or.inl ‹_›
    · exact Or.inr (listed _ _ arity)

theorem typesOf_spelled (finds : Finds S T known) (listed : ∀ tag n, arities.lookup tag = some n → known tag)
    {us : List Ty} : (ts : List Resolved.TypeExpr) →
    Resolved.TypeExpr.SpelledAll S ts → typesOf arities ts = .ok us → ∀ u ∈ us, u.Spelled T
  | [], _, done => by
    obtain rfl := Except.ok.inj done
    exact List.forall_mem_nil _
  | t :: rest, own, done => by
    rw [typesOf, Except.bind_eq_ok] at done
    obtain ⟨u, first, done⟩ := done
    rw [Except.bind_eq_ok] at done
    obtain ⟨others, second, done⟩ := done
    obtain rfl := Except.ok.inj done
    exact List.forall_mem_cons.mpr ⟨typeOf_spelled finds listed t own.1 first,
      typesOf_spelled finds listed rest own.2 second⟩

end

theorem writtenType_yields (carries : Carries S T known g) {t : Resolved.TypeExpr} (own : t.Spelled S) :
    Yields T g (writtenType t) (·.Spelled T) := by
  refine keeps_read_bind ?_
  dsimp only
  split
  · refine keeps_pure (typeOf_spelled carries.finds (fun tag n found => ?_) t own ‹_›)
    obtain ⟨d, member, same⟩ := List.mem_map.mp (mem_of_lookup found)
    obtain ⟨rfl, -⟩ := Prod.mk.inj same
    exact carries.listed d member
  · exact preserves_throw

end Types

section Work

variable {S : Spelling} {g : Globals}

theorem instantiate_yields (gs : List Ident) :
    Yields S g (instantiate gs) fun sub => ∀ e ∈ sub, e.2.Spelled S := by
  induction gs with
  | nil => exact keeps_pure (List.forall_mem_nil _)
  | cons i rest ih =>
    refine keeps_get_bind fun s _ => keeps_modify_bind (fun s known => ⟨known.vars, known.bindings⟩) ?_
    exact ih.bind fun sub all => keeps_pure (List.forall_mem_cons.mpr ⟨Ty.spelled_cell, all⟩)

theorem unify_yields {expected found : Ty} {span : Span} (wanted : expected.Spelled S)
    (own : found.Spelled S) : Yields S g (unify expected found span) fun _ => True := by
  refine keeps_get_bind fun s known => ?_
  have kept := Unify.types_keeps expected found s.bindings _ _ rfl known.bindings wanted own
  refine keeps_modify_bind (fun s known => ⟨known.vars, kept⟩) ?_
  split
  · exact keeps_pure trivial
  · exact preserves_throw
  · exact preserves_throw

theorem expect_yields (basic : Ty.float.Spelled S ∧ Ty.bool.Spelled S) {expected : Ty} {span : Span} {e : Expr}
    (wanted : expected.Spelled S) (own : e.Spelled S) :
    Yields S g (expect expected span e) (·.Spelled S) :=
  (unify_yields wanted (own.type basic)).bind fun _ _ => keeps_pure own

/-- The fields of the declaration for which something is given, one after the other. -/
theorem forFields_yields {α β : Type} {given : List (String × α)} {act : Field → α → Check β}
    (good : β → Prop) {declared : List Field}
    (each : ∀ f ∈ declared, ∀ x ∈ given, Yields S g (act f x.2) good) :
    Yields S g (forFields given act declared) fun bs => ∀ b ∈ bs, good b := by
  induction declared with
  | nil => exact keeps_pure (List.forall_mem_nil _)
  | cons f rest ih =>
    rw [List.forall_mem_cons] at each
    rw [forFields]
    split
    · rename_i a found
      refine (each.1 _ (mem_of_lookup found)).bind fun b own => ?_
      exact (ih each.2).bind fun bs all => keeps_pure (List.forall_mem_cons.mpr ⟨own, all⟩)
    · exact ih each.2

end Work

section Patterns

variable {S T : Spelling} {known : Tag → Prop} {g : Globals}

mutual

theorem bindPattern_yields (carries : Carries S T known g) : (p : Resolved.Pattern) → p.Spelled S →
    ∀ t : Ty, t.Spelled T → Yields T g (bindPattern p t) (·.Spelled T)
  | .var _ name, own, t, type => by
    rw [bindPattern]
    have bound := carries.finds.bound name own
    refine keeps_modify_bind (fun s known => ⟨?_, known.bindings⟩) (keeps_pure ⟨?_, ?_⟩)
    · exact List.forall_mem_cons.mpr ⟨⟨⟨name, bound, rfl⟩, type⟩, known.vars⟩
    · exact List.forall_mem_singleton.mpr bound
    · exact List.forall_mem_singleton.mpr type
  | .record _ name fields, own, t, type => by
    rw [bindPattern]
    refine keeps_read_bind ?_
    cases found : g.struct? name with
    | none => exact preserves_throw
    | some d =>
      obtain ⟨member, same⟩ := g.mem_of_struct? found
      have declared := carries.whole.structs d member
      refine (instantiate_yields _).bind fun sub parts => ?_
      refine (unify_yields ?_ type).bind fun _ _ => ?_
      · exact Ty.spelled_named.mpr ⟨carries.finds.type name own.1 (Or.inr (same ▸ carries.listed d member)),
          List.forall_mem_map.mpr parts⟩
      refine (forFields_yields (fun f : FieldPattern => f.pattern.Spelled T) fun f member bind given => ?_).bind
        fun fs all => keeps_pure ⟨?_, ?_⟩
      · exact (fieldBinders_yields carries fields own.2 _ given _
          ((declared.fields f member).substitute parts)).bind fun q inside => keeps_pure inside
      · rw [Pattern.names, Pattern.fieldNames_eq_flatMap, List.forall_mem_flatMap]
        exact fun f member => (all f member).names
      · rw [Pattern.types, Pattern.fieldTypes_eq_flatMap, List.forall_mem_cons, List.forall_mem_flatMap]
        exact ⟨type, fun f member => (all f member).types⟩

theorem fieldBinders_yields (carries : Carries S T known g) : (fs : List Resolved.FieldPattern) →
    Resolved.Pattern.FieldsSpelled S fs → ∀ b ∈ fieldBinders fs, ∀ t : Ty, t.Spelled T →
      Yields T g (b.2 t) (·.Spelled T)
  | [], _ => List.forall_mem_nil _
  | ⟨_, _, p⟩ :: rest, own =>
    List.forall_mem_cons.mpr ⟨bindPattern_yields carries p own.1, fieldBinders_yields carries rest own.2⟩

end

theorem closureParams_yields (carries : Carries S T known g) (ps : List Resolved.Param)
    (own : ∀ p ∈ ps, p.Spelled S) :
    Yields T g (closureParams ps) fun qs => ∀ q ∈ qs, q.Spelled T := by
  induction ps with
  | nil => exact keeps_pure (List.forall_mem_nil _)
  | cons p rest ih =>
    rw [List.forall_mem_cons] at own
    refine (writtenType_yields carries own.1.1).bind fun t type => ?_
    refine (bindPattern_yields carries _ own.1.2 t type).bind fun q inside => ?_
    exact (ih own.2).bind fun qs all => keeps_pure (List.forall_mem_cons.mpr ⟨⟨inside, type⟩, all⟩)

theorem bindParams_yields (carries : Carries S T known g) {ps : List Resolved.Param} {ts : List Ty}
    (own : ∀ p ∈ ps, p.Spelled S) (types : ∀ t ∈ ts, t.Spelled T) :
    Yields T g (bindParams ps ts) fun qs => ∀ q ∈ qs, q.Spelled T := by
  induction ps generalizing ts with
  | nil => exact keeps_pure (List.forall_mem_nil _)
  | cons p rest ih =>
    cases ts with
    | nil => exact keeps_pure (List.forall_mem_nil _)
    | cons t ts =>
      rw [List.forall_mem_cons] at own types
      refine (bindPattern_yields carries _ own.1.2 t types.1).bind fun q inside => ?_
      exact (ih own.2 types.2).bind fun qs all =>
        keeps_pure (List.forall_mem_cons.mpr ⟨⟨inside, types.1⟩, all⟩)

end Patterns

section Expressions

variable {S T : Spelling} {known : Tag → Prop} {g : Globals}

theorem directCallee_yields (callee : Resolved.Expr) : Yields T g (directCallee? callee) fun _ => True := by
  unfold directCallee?
  split
  · exact keeps_get_bind fun _ _ => keeps_pure trivial
  · exact keeps_pure trivial

mutual

theorem infer_yields (carries : Carries S T known g) : (e : Resolved.Expr) → e.Spelled S →
    Yields T g (infer e) (·.Spelled T)
  | .number _ _ _, _ => keeps_pure trivial
  | .bool _ _, _ => keeps_pure trivial
  | .var _ name, own => by
    rw [infer]
    refine keeps_get_bind fun s known => ?_
    cases found : s.vars.lookup name.tag with
    | none => exact preserves_throw
    | some t =>
      obtain ⟨⟨i, bound, same⟩, type⟩ := known.vars _ (mem_of_lookup found)
      obtain rfl := carries.finds.apart name i own bound same.symm
      exact keeps_pure ⟨bound, type⟩
  | .call span callee args, own => by
    rw [infer]
    refine (directCallee_yields callee).bind fun direct _ => ?_
    cases direct with
    | some name =>
      refine keeps_read_bind ?_
      cases found : g.function? name with
      | none => exact preserves_throw
      | some f =>
        have signature := carries.whole.functions f (g.mem_of_function? found).1
        dsimp only
        split
        · exact preserves_throw
        refine (instantiate_yields _).bind fun sub parts => ?_
        refine (inferArgs_yields carries args own.2 _ ?_).bind fun as all => keeps_pure ?_
        · exact List.forall_mem_map.mpr fun t member => (signature.params t member).substitute parts
        · exact ⟨signature.result.substitute parts, signature.name, List.forall_mem_map.mpr parts,
            spelledAll_iff.mpr all⟩
    | none =>
      refine (infer_yields carries callee own.1).bind fun target inside => ?_
      refine keeps_get_bind fun s known => ?_
      have shape := known.bindings.resolve (inside.type carries.finds.basic)
      split
      · rename_i params result same
        rw [same, Ty.spelled_func] at shape
        dsimp only
        split
        · exact keeps_get_bind fun _ _ => preserves_throw
        refine (inferArgs_yields carries args own.2 _ shape.1).bind fun as all => keeps_pure ?_
        exact ⟨shape.2, inside, spelledAll_iff.mpr all⟩
      · exact keeps_get_bind fun _ _ => preserves_throw
  | .operation _ _ left right, own => by
    rw [infer]
    refine (infer_yields carries left own.1).bind fun l first => ?_
    refine (expect_yields carries.finds.basic carries.finds.basic.1 first).bind fun l first => ?_
    refine (infer_yields carries right own.2).bind fun r second => ?_
    exact (expect_yields carries.finds.basic carries.finds.basic.1 second).bind fun r second => keeps_pure ⟨first, second⟩
  | .record _ name fields, own => by
    rw [infer]
    refine keeps_read_bind ?_
    cases found : g.struct? name with
    | none => exact preserves_throw
    | some d =>
      have declared := carries.whole.structs d (g.mem_of_struct? found).1
      refine (instantiate_yields _).bind fun sub parts => ?_
      refine (forFields_yields (fun f : FieldInit => f.value.Spelled T) fun f member x given => ?_).bind
        fun fs all => keeps_pure ?_
      · refine (fieldInferences_yields carries fields own _ given).bind fun e inside => ?_
        refine (expect_yields carries.finds.basic ((declared.fields f member).substitute parts) inside).bind fun e inside => ?_
        exact keeps_pure inside
      · exact ⟨declared.name, List.forall_mem_map.mpr parts, fieldsSpelled_iff.mpr all⟩
  | .block _ lets result, own => by
    rw [infer]
    refine (inferLets_yields carries lets own.1).bind fun bs all => ?_
    exact (infer_yields carries result own.2).bind fun e inside =>
      keeps_pure ⟨letsSpelled_iff.mpr all, inside⟩
  | .annotated _ value type, own => by
    rw [infer]
    refine (writtenType_yields carries own.2).bind fun t written => ?_
    exact (infer_yields carries value own.1).bind fun e inside => expect_yields carries.finds.basic written inside
  | .case span scrutinee arms, own => by
    rw [infer]
    exact (infer_yields carries scrutinee own.1).bind fun s inside =>
      inferArms_yields carries span inside arms own.2
  | .cond _ test yes no, own => by
    rw [infer]
    refine (infer_yields carries test own.1).bind fun t first => ?_
    refine (expect_yields carries.finds.basic carries.finds.basic.2 first).bind fun t first => ?_
    refine (infer_yields carries yes own.2.1).bind fun y second => ?_
    refine (infer_yields carries no own.2.2).bind fun n third => ?_
    exact (expect_yields carries.finds.basic (second.type carries.finds.basic) third).bind fun n third => keeps_pure ⟨first, second, third⟩
  | .closure _ params body, own => by
    rw [infer]
    refine (closureParams_yields carries params own.1).bind fun ps all => ?_
    exact (infer_yields carries body own.2).bind fun e inside =>
      keeps_pure ⟨all, inside.captures ps, inside⟩

theorem inferArgs_yields (carries : Carries S T known g) : (es : List Resolved.Expr) →
    Resolved.Expr.SpelledAll S es → ∀ ts : List Ty, (∀ t ∈ ts, t.Spelled T) →
      Yields T g (inferArgs es ts) fun as => ∀ a ∈ as, a.Spelled T
  | [], _, _, _ => keeps_pure (List.forall_mem_nil _)
  | _ :: _, _, [], _ => keeps_pure (List.forall_mem_nil _)
  | e :: rest, own, t :: ts, types => by
    rw [List.forall_mem_cons] at types
    rw [inferArgs]
    refine (infer_yields carries e own.1).bind fun a inside => ?_
    refine (expect_yields carries.finds.basic types.1 inside).bind fun a inside => ?_
    exact (inferArgs_yields carries rest own.2 ts types.2).bind fun as all =>
      keeps_pure (List.forall_mem_cons.mpr ⟨inside, all⟩)

theorem fieldInferences_yields (carries : Carries S T known g) : (fs : List Resolved.FieldInit) →
    Resolved.Expr.FieldsSpelled S fs → ∀ x ∈ fieldInferences fs, Yields T g x.2.2 (·.Spelled T)
  | [], _ => List.forall_mem_nil _
  | ⟨_, _, value⟩ :: rest, own =>
    List.forall_mem_cons.mpr ⟨infer_yields carries value own.1, fieldInferences_yields carries rest own.2⟩

theorem inferLets_yields (carries : Carries S T known g) : (bs : List Resolved.Let) →
    Resolved.Expr.LetsSpelled S bs → Yields T g (inferLets bs) fun bs' =>
      ∀ b ∈ bs', b.pattern.Spelled T ∧ b.value.Spelled T
  | [], _ => keeps_pure (List.forall_mem_nil _)
  | ⟨_, p, value⟩ :: rest, own => by
    rw [inferLets]
    refine (infer_yields carries value own.1).bind fun e inside => ?_
    refine (bindPattern_yields carries p own.2.1 _ (inside.type carries.finds.basic)).bind fun q pattern => ?_
    exact (inferLets_yields carries rest own.2.2).bind fun bs all =>
      keeps_pure (List.forall_mem_cons.mpr ⟨⟨pattern, inside⟩, all⟩)

theorem inferArms_yields (carries : Carries S T known g) (span : Span) {scrutinee : Expr}
    (matched : scrutinee.Spelled T) : (as : List Resolved.Arm) → Resolved.Expr.ArmsSpelled S as →
      Yields T g (inferArms span scrutinee as) (·.Spelled T)
  | [], _ => keeps_pure matched
  | ⟨_, p, body⟩ :: rest, own => by
    rw [inferArms]
    refine (bindPattern_yields carries p own.1 _ (matched.type carries.finds.basic)).bind fun q pattern => ?_
    refine (infer_yields carries body own.2.1).bind fun e inside => ?_
    exact (checkArms_yields carries (matched.type carries.finds.basic) (inside.type carries.finds.basic) rest own.2.2).bind fun _ _ =>
      keeps_pure ⟨letsSpelled_iff.mpr (List.forall_mem_singleton.mpr ⟨pattern, matched⟩), inside⟩

theorem checkArms_yields (carries : Carries S T known g) {scrutinee result : Ty}
    (matched : scrutinee.Spelled T) (wanted : result.Spelled T) : (as : List Resolved.Arm) →
      Resolved.Expr.ArmsSpelled S as → Yields T g (checkArms scrutinee result as) fun _ => True
  | [], _ => keeps_pure trivial
  | ⟨_, p, body⟩ :: rest, own => by
    rw [checkArms]
    refine (bindPattern_yields carries p own.1 _ matched).bind fun _ _ => ?_
    refine (infer_yields carries body own.2.1).bind fun e inside => ?_
    refine (expect_yields carries.finds.basic wanted inside).bind fun _ _ => ?_
    exact checkArms_yields carries matched wanted rest own.2.2

end

end Expressions

section Definitions

variable {S T : Spelling} {known : Tag → Prop} {g : Globals} {arities : Arities}

theorem checkFunction_spelled (carries : Carries S T known g) {f : Resolved.Function}
    {sig : Signature} (own : f.Spelled S) (signature : sig.Spelled T) (named : T.function f.name) (s : Progress) :
    MeetsIn (fun _ => True) (checkFunction f sig) g s fun f' _ => f'.Spelled T := by
  have start : Progress.Spelled T { minted := s.minted } :=
    ⟨List.forall_mem_nil _, fun c t found => by cases found⟩
  rw [checkFunction, meetsIn_modify_bind]
  refine MeetsIn.imp (show MeetsIn _ _ g _ fun f' s' => s'.Spelled T ∧ f'.Spelled T from
    (bindParams_yields carries own.params signature.params).bind (fun ps all => ?_) _ start) fun _ _ => And.right
  refine (infer_yields carries f.body own.body).bind fun e inside => ?_
  refine (expect_yields carries.finds.basic signature.result inside).bind fun e inside => ?_
  refine keeps_get_bind fun s known => ?_
  have keeps : ∀ t : Ty, t.Spelled T → (s.bindings.settle t).Spelled T := fun t spelled =>
    known.bindings.settle spelled
  dsimp only
  split
  · exact preserves_throw
  · refine keeps_pure ⟨named, fun i member => carries.finds.bound i (own.generics i member),
      List.forall_mem_map.mpr fun p member => ?_, signature.result, inside.mapTypes keeps⟩
    exact ⟨(all p member).pattern.mapTypes keeps, (all p member).type⟩

theorem checkFunction_named (f : Resolved.Function) (sig : Signature) (s : Progress) :
    MeetsIn (fun _ => True) (checkFunction f sig) g s fun f' _ => f'.name = f.name := by
  have any : ∀ {α : Type} {m : Check α}, Preserves (fun _ => True) g m fun _ => True := fun _ _ =>
    meets_iff.mpr ⟨fun _ _ _ => ⟨trivial, trivial⟩, fun _ _ _ => trivial⟩
  rw [checkFunction, meetsIn_modify_bind]
  refine MeetsIn.imp (show MeetsIn _ _ g _ fun f' s' => True ∧ f'.name = f.name from
    any.bind (fun ps _ => any.bind fun e _ => any.bind fun e _ => ?_) _ trivial) fun _ _ => And.right
  refine keeps_get_bind fun s _ => ?_
  dsimp only
  split
  · exact preserves_throw
  · exact keeps_pure rfl

theorem structOf_spelled (finds : Finds S T known)
    (listed : ∀ tag n, arities.lookup tag = some n → known tag) {s : Resolved.Struct} {s' : Struct}
    (own : s.Spelled S) (declared : known s.name.tag) (done : structOf arities s = .ok s') :
    s'.name = s.name ∧ s'.Spelled T := by
  rw [structOf, Except.bind_eq_ok] at done
  obtain ⟨types, inner, done⟩ := done
  rw [inDefinition_eq_ok] at inner
  obtain rfl := Except.ok.inj done
  refine ⟨rfl, finds.type _ own.name (Or.inr declared), fun i member => finds.bound i (own.generics i member),
    List.forall_mem_map.mpr fun f pair => ?_⟩
  refine typesOf_spelled finds listed _ (typesSpelled_iff.mpr ?_) inner f.2 (List.of_mem_zip pair).2
  exact List.forall_mem_map.mpr own.fields

theorem signatureOf_spelled (finds : Finds S T known)
    (listed : ∀ tag n, arities.lookup tag = some n → known tag) {f : Resolved.Function} {sig : Signature}
    (own : f.Spelled S) (named : T.function f.name) (done : signatureOf arities f = .ok sig) :
    sig.Spelled T := by
  rw [signatureOf, Except.bind_eq_ok] at done
  obtain ⟨params, inner, done⟩ := done
  rw [inDefinition_eq_ok] at inner
  rw [Except.bind_eq_ok] at done
  obtain ⟨result, innerR, done⟩ := done
  rw [inDefinition_eq_ok] at innerR
  obtain rfl := Except.ok.inj done
  refine ⟨named, typesOf_spelled finds listed _ (typesSpelled_iff.mpr ?_) inner,
    typeOf_spelled finds listed _ own.result innerR⟩
  exact List.forall_mem_map.mpr fun p member => (own.params p member).1

/-- Structs and functions are checked one by one, and bear the names that they were resolved under. -/
theorem check_names {p : Resolved.Program} {p' : Program} (done : check p = .ok p') :
    p'.structs.map (·.name) = p.structs.map (·.name) ∧ p'.functions.map (·.name) = p.functions.map (·.name) := by
  rw [check, Except.bind_eq_ok] at done
  obtain ⟨structs, madeS, done⟩ := done
  rw [Except.bind_eq_ok] at done
  obtain ⟨signatures, madeF, done⟩ := done
  rw [Except.bind_eq_ok] at done
  obtain ⟨checked, each, done⟩ := done
  obtain rfl := Except.ok.inj done
  rw [mapM_eq_ok] at madeS madeF
  refine ⟨map_eq_of_forall₂ madeS fun s s' made => ?_, ?_⟩
  · rw [structOf, Except.bind_eq_ok] at made
    obtain ⟨types, -, made⟩ := made
    obtain rfl := Except.ok.inj made
    rfl
  · have each := checkFunctions_eq_ok each
    have names : checked.map (·.name) = (p.functions.zip signatures).map (·.1.name) := by
      refine map_eq_of_forall₂ each ?_
      rintro f f' ⟨s, s', ended⟩
      exact (meets_iff.mp (checkFunction_named f.1 f.2 s)).1 f' s' ended
    have first : (p.functions.zip signatures).map Prod.fst = p.functions :=
      List.map_fst_zip (madeF.length_eq ▸ Nat.le_refl _)
    rw [names, ← first, List.map_map, first]
    rfl

/-- Checked programs keep their names. -/
theorem check_spelled {p : Resolved.Program} {p' : Program} (finds : Finds S T known) (own : p.Spelled S)
    (listed : ∀ s ∈ p.structs, known s.name.tag) (functions : ∀ f ∈ p.functions, T.function f.name)
    (done : check p = .ok p') : p'.Spelled T := by
  rw [check, Except.bind_eq_ok] at done
  obtain ⟨structs, madeS, done⟩ := done
  rw [Except.bind_eq_ok] at done
  obtain ⟨signatures, madeF, done⟩ := done
  rw [Except.bind_eq_ok] at done
  obtain ⟨checked, each, done⟩ := done
  obtain rfl := Except.ok.inj done
  rw [mapM_eq_ok] at madeS madeF
  have counted : ∀ tag n, (aritiesOf p.structs).lookup tag = some n → known tag := by
    intro tag n found
    obtain ⟨s, member, same⟩ := List.mem_map.mp (mem_of_lookup found)
    obtain ⟨rfl, -⟩ := Prod.mk.inj same
    exact listed s member
  have spelled : ∀ s ∈ structs, known s.name.tag ∧ s.Spelled T := by
    intro s member
    obtain ⟨d, inside, made⟩ := exists_of_forall₂ madeS s member
    obtain ⟨same, own⟩ := structOf_spelled finds counted (own.structs d inside) (listed d inside) made
    exact ⟨same ▸ listed d inside, own⟩
  have carries : Carries S T known ⟨structs, signatures⟩ := by
    refine ⟨finds, ⟨fun s member => (spelled s member).2, fun sig member => ?_⟩, fun s member => (spelled s member).1⟩
    obtain ⟨f, inside, made⟩ := exists_of_forall₂ madeF sig member
    exact signatureOf_spelled finds counted (own.functions f inside) (functions f inside) made
  refine ⟨carries.whole.structs, fun f' member => ?_⟩
  obtain ⟨⟨f, sig⟩, pair, s, s', ended⟩ := exists_of_forall₂ (checkFunctions_eq_ok each) f' member
  obtain ⟨inside, signature⟩ := List.of_mem_zip pair
  exact (meets_iff.mp (checkFunction_spelled carries (own.functions f inside)
    (carries.whole.functions sig signature) (functions f inside) s)).1 f' s' ended

end Definitions

end WitnessLang.Typed
