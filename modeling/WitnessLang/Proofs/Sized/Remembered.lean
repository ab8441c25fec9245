import Mathlib.Data.List.Chain
import WitnessLang.Proofs.Sized.Endless
import WitnessLang.Proofs.Sized.Plain

set_option autoImplicit false

namespace WitnessLang.Sized

open Relation (ReflTransGen TransGen)

/-- A computation that only looks at what there is. -/
def Looks {α : Type} (c : Context) (m : Measure α) (x : State → Except Stop α) : Prop := ∀ s, Runs m c s (x s) s

section Looks

variable {c : Context} {s s' : State} {α β : Type} {m : Measure α} {x : State → Except Stop α}

theorem Looks.of_runs (looks : Looks c m x) {r : Except Stop α} (runs : Runs m c s r s') : r = x s ∧ s' = s :=
  runs.unique (looks s)

theorem looks_pure (a : α) : Looks c (pure a) fun _ => .ok a := fun _ => runs_pure.mpr ⟨rfl, rfl⟩

theorem Looks.bind {f : α → Measure β} {y : α → State → Except Stop β} (first : Looks c m x)
    (next : ∀ a, Looks c (f a) (y a)) : Looks c (m >>= f) fun s => x s >>= fun a => y a s := by
  intro s
  have first := first s
  dsimp only
  cases found : x s with
  | error e =>
    rw [found] at first
    exact runs_bind.mpr (Or.inr ⟨e, first, rfl⟩)
  | ok a =>
    rw [found] at first
    exact runs_bind.mpr (Or.inl ⟨a, s, first, next a s⟩)

theorem lookup_looks (name : Ident) : Looks c (lookup name) fun s => variableOf s.vars name := by
  intro s
  rw [lookup, runs_get_bind]
  dsimp only [variableOf]
  cases s.vars.lookup name.tag with
  | some v => exact runs_pure.mpr ⟨rfl, rfl⟩
  | none => exact runs_throw.mpr ⟨rfl, rfl⟩

mutual

theorem witness_looks : (w : WitnessExpr) → Looks c (witness w) fun s => described s.vars w
  | .var name => by
    simp only [witness, described]
    exact (lookup_looks name).bind fun v => looks_pure _
  | .build constructor args => by
    simp only [witness, described]
    exact (witnesses_looks args).bind fun args => looks_pure _

theorem witnesses_looks : (ws : List WitnessExpr) → Looks c (witnesses ws) fun s => describedAll s.vars ws
  | [] => by
    simp only [witnesses, describedAll]
    exact looks_pure _
  | w :: rest => by
    simp only [witnesses, describedAll]
    exact (witness_looks w).bind fun w => (witnesses_looks rest).bind fun rest => looks_pure _

end

/-- The description of a type. -/
theorem dynamic_looks (w : WitnessExpr) :
    Looks c (Witness.dynamic <$> witness w) fun s => described s.vars w >>= fun w => .ok (.dynamic w) := by
  rw [map_eq_pure_bind]
  exact (witness_looks w).bind fun w => looks_pure _

end Looks

section Runs

variable {c : Context} {s s' : State} {self : Ty → Measure Layout} {t : Ty} {r : Except Stop Layout}

/-- A type of a known struct, applied to as many types as it takes. -/
def IsStruct (c : Context) (t : Ty) : Prop :=
  ∀ vars n, plainLayout c.target c.structs vars (n + 1) t =
    fromParts c.structs vars (plainLayout c.target c.structs vars n) t

/-- What laying a type out does: it looks at what is there, or lays out the parts and puts their layouts together. -/
inductive Computes (c : Context) (self : Ty → Measure Layout) (t : Ty) (s : State) : Except Stop Layout → State → Prop
  | alone {r : Except Stop Layout} (same : ∀ n, plainLayout c.target c.structs s.vars (n + 1) t = r) :
      Computes c self t s r s
  | failed {e : Stop} {s' : State} (struct : IsStruct c t)
      (fields : Runs (fieldsLayout self (parts c.structs t)) c s (.error e) s') : Computes c self t s (.error e) s'
  | undescribed {size : Size} {plain : Bool} {e : Stop} {s' : State} (struct : IsStruct c t)
      (fields : Runs (fieldsLayout self (parts c.structs t)) c s (.ok (size, plain)) s')
      (last : joined s'.vars t size plain = .error e) : Computes c self t s (.error e) s'
  | made {size : Size} {plain : Bool} {l : Layout} {s' : State} {i : Instance} (struct : IsStruct c t)
      (fields : Runs (fieldsLayout self (parts c.structs t)) c s (.ok (size, plain)) s')
      (last : joined s'.vars t size plain = .ok l) (key : i.type.key = t.key) :
      Computes c self t s (.ok l) { s' with instances := s'.instances ++ [i] }

/-- A struct is laid out from its fields. -/
theorem computes_struct {name : Ident} {args : List Ty} (basic : ¬ (name.tag = .float ∨ name.tag = .bool))
    (other : name.tag ≠ .witness) (runs : Runs (structLayout self name args) c s r s') :
    Computes c self (.named name args) s r s' := by
  rw [structLayout, runs_read_bind] at runs
  cases found : c.struct? name.tag with
  | none =>
    rw [found] at runs
    obtain ⟨rfl, rfl⟩ := runs_throw.mp runs
    refine .alone fun n => ?_
    rw [plainLayout, if_neg basic, if_neg other, show c.structs.reverse.find? _ = none from found]
  | some d =>
    rw [found] at runs
    dsimp only at runs
    by_cases arity : d.generics.length = args.length
    swap
    · rw [if_pos arity, runs_throw_bind] at runs
      obtain ⟨rfl, rfl⟩ := runs
      refine .alone fun n => ?_
      rw [plainLayout, if_neg basic, if_neg other, show c.structs.reverse.find? _ = some d from found]
      exact if_pos arity
    have struct : IsStruct c (.named name args) := fun vars n => plainLayout_struct basic other found arity
    have held : parts c.structs (.named name args) = fieldTypes d args := parts_struct basic other found
    have key : (Ty.named d.name args).key = (Ty.named name args).key :=
      (Ty.alike_named.mpr ⟨by simpa using List.find?_some found, rfl⟩ : Ty.Alike _ _).key
    rw [if_neg (not_not.mpr arity), ← fieldTypes, ← held, runs_bind] at runs
    rcases runs with ⟨⟨size, plain⟩, s₁, fields, runs⟩ | ⟨e, fields, rfl⟩
    swap
    · exact .failed struct fields
    cases plain with
    | true =>
      rw [if_pos rfl, runs_pure_bind, runs_modify_bind, runs_pure] at runs
      obtain ⟨rfl, rfl⟩ := runs
      exact .made struct fields rfl key
    | false =>
      rw [if_neg Bool.false_ne_true, runs_bind] at runs
      rcases runs with ⟨w, s₂, described, runs⟩ | ⟨e, described, rfl⟩
      · obtain ⟨found, rfl⟩ := (dynamic_looks _).of_runs described
        rw [runs_modify_bind, runs_pure] at runs
        obtain ⟨rfl, rfl⟩ := runs
        refine .made struct fields ?_ key
        obtain ⟨w', done, same⟩ := Except.bind_eq_ok.mp found.symm
        obtain rfl := Except.ok.inj same
        rw [joined, if_neg Bool.false_ne_true, done]
        rfl
      · obtain ⟨found, rfl⟩ := (dynamic_looks _).of_runs described
        refine .undescribed struct fields ?_
        rw [joined, if_neg Bool.false_ne_true]
        cases done : Sized.described s'.vars (Ty.named name args).witnessExpr with
        | ok w =>
          rw [done] at found
          cases found
        | error e' =>
          rw [done] at found
          cases found
          rfl

theorem computes_of_runs (runs : Runs (computeLayout self t) c s r s') : Computes c self t s r s' := by
  cases t with
  | named name args =>
    rw [computeLayout] at runs
    by_cases basic : name.tag = .float ∨ name.tag = .bool
    · rw [if_pos basic, runs_pure] at runs
      obtain ⟨rfl, rfl⟩ := runs
      exact .alone fun n => by rw [plainLayout, if_pos basic]
    by_cases other : name.tag = .witness
    · rw [if_neg basic, if_pos other, runs_read_bind, runs_pure] at runs
      obtain ⟨rfl, rfl⟩ := runs
      exact .alone fun n => by rw [plainLayout, if_neg basic, if_pos other]
    rw [if_neg basic, if_neg other] at runs
    exact computes_struct basic other runs
  | generic name =>
    have looks : Looks c (computeLayout self (.generic name)) fun s =>
        plainLayout c.target c.structs s.vars 1 (.generic name) :=
      (lookup_looks name).bind fun v => looks_pure _
    obtain ⟨rfl, rfl⟩ := looks.of_runs runs
    exact .alone fun n => rfl
  | func args result =>
    have looks : Looks c (computeLayout self (.func args result)) fun s =>
        plainLayout c.target c.structs s.vars 1 (.func args result) :=
      (witness_looks _).bind fun w => looks_pure (c := c) (Layout.mk (.dynamic w) ⟨c.target.closureSize, []⟩)
    obtain ⟨rfl, rfl⟩ := looks.of_runs runs
    exact .alone fun n => rfl
  | cell cell =>
    obtain ⟨rfl, rfl⟩ := runs_throw.mp runs
    exact .alone fun n => rfl

/-- What happens when the layout of a type is asked for. -/
inductive Steps (c : Context) (self : Ty → Measure Layout) (t : Ty) (s : State) : Except Stop Layout → State → Prop
  | known {l : Layout} (found : s.known.lookup t.key = some l) : Steps c self t s (.ok l) s
  | again {before inner : List OpenType} {o : OpenType} (split : s.opened = before ++ o :: inner) (key : o.key = t.key) :
      Steps c self t s (.error (.fault (.recursive t.render ((o :: inner).map (·.text) ++ [t.render])) {})) s
  | failed {e : Stop} {s' : State} (fresh : ∀ e ∈ s.known, e.1 ≠ t.key) (new : ∀ o ∈ s.opened, o.key ≠ t.key)
      (inner : Computes c self t { s with opened := s.opened ++ [⟨t.key, t.render⟩] } (.error e) s') :
      Steps c self t s (.error e) { s' with opened := s'.opened.dropLast }
  | laid {l : Layout} {s' : State} (fresh : ∀ e ∈ s.known, e.1 ≠ t.key) (new : ∀ o ∈ s.opened, o.key ≠ t.key)
      (inner : Computes c self t { s with opened := s.opened ++ [⟨t.key, t.render⟩] } (.ok l) s') :
      Steps c self t s (.ok l) { s' with opened := s'.opened.dropLast, known := (t.key, l) :: s'.known }

theorem steps_of_runs (runs : Runs (layoutStep self t) c s r s') : Steps c self t s r s' := by
  rw [layoutStep, runs_get_bind] at runs
  cases found : s.known.lookup t.key with
  | some l =>
    rw [found] at runs
    obtain ⟨rfl, rfl⟩ := runs_pure.mp runs
    exact .known found
  | none =>
    rw [found] at runs
    dsimp only at runs
    have fresh : ∀ e ∈ s.known, e.1 ≠ t.key := fun e member same =>
      absurd (List.lookup_eq_none_iff.mp found e member) (by simp [same])
    cases within : s.opened.dropWhile fun o => o.key != t.key with
    | cons o inner =>
      have split := List.takeWhile_append_dropWhile (p := fun o : OpenType => o.key != t.key) (l := s.opened)
      have key := List.head?_dropWhile_not (fun o : OpenType => o.key != t.key) s.opened
      rw [within] at split key
      rw [within, if_pos (by simp), runs_throw_bind] at runs
      obtain ⟨rfl, rfl⟩ := runs
      exact .again split.symm (by simpa using key)
    | nil =>
      rw [within, if_neg (by simp)] at runs
      have new : ∀ o ∈ s.opened, o.key ≠ t.key := by simpa [List.dropWhile_eq_nil_iff] using within
      rw [runs_bind] at runs
      simp only [runs_whileOpen, runs_modify_bind, runs_pure] at runs
      rcases runs with ⟨l, s₁, ⟨s₂, inner, rfl⟩, rfl, rfl⟩ | ⟨e, ⟨s₂, inner, rfl⟩, rfl⟩
      · exact .laid fresh new (computes_of_runs inner)
      · exact .failed fresh new (computes_of_runs inner)

end Runs

/-- No two instances have the same key, all have a layout that is known, and no open type does. -/
structure Distinct (s : State) : Prop where
  once : (s.instances.map (·.type.key)).Nodup
  listed : ∀ i ∈ s.instances, ∃ e ∈ s.known, e.1 = i.type.key
  apart : ∀ e ∈ s.known, ∀ o ∈ s.opened, e.1 ≠ o.key

/-- What has been measured in between, if no variable was defined. -/
structure Leads (s s' : State) : Prop where
  vars : s'.vars = s.vars
  opened : s'.opened = s.opened
  distinct : Distinct s → Distinct s'

theorem Leads.refl (s : State) : Leads s s := ⟨rfl, rfl, id⟩

theorem Leads.trans {s s₁ s₂ : State} (first : Leads s s₁) (second : Leads s₁ s₂) : Leads s s₂ :=
  ⟨second.vars.trans first.vars, second.opened.trans first.opened, fun own => second.distinct (first.distinct own)⟩

section Leads

variable {c : Context} {s s' : State} {self : Ty → Measure Layout} {t : Ty}

theorem fieldsLayout_leads {ts : List Ty} (each : ∀ u ∈ ts, ∀ s r s', Runs (self u) c s r s' → Leads s s') {size : Size}
    {plain : Bool} {r : Except Stop (Size × Bool)} (runs : Runs (fieldsLayout.go self size plain ts) c s r s') :
    Leads s s' := by
  induction ts generalizing size plain s with
  | nil =>
    obtain ⟨-, rfl⟩ := runs_pure.mp runs
    exact .refl _
  | cons u rest ih =>
    rw [List.forall_mem_cons] at each
    rw [fieldsLayout.go, runs_bind] at runs
    rcases runs with ⟨l, s₁, first, later⟩ | ⟨e, first, -⟩
    · exact (each.1 _ _ _ first).trans (ih each.2 later)
    · exact each.1 _ _ _ first

theorem Computes.leads_of_error (each : ∀ u s r s', Runs (self u) c s r s' → Leads s s') {e : Stop}
    (computes : Computes c self t s (.error e) s') : Leads s s' := by
  cases computes with
  | alone => exact .refl s
  | failed _ fields => exact fieldsLayout_leads (fun u _ => each u) fields
  | undescribed _ fields => exact fieldsLayout_leads (fun u _ => each u) fields

/-- Where a layout is found, it may be that of a new instance. -/
theorem Computes.leads_of_ok (each : ∀ u s r s', Runs (self u) c s r s' → Leads s s') {l : Layout}
    (computes : Computes c self t s (.ok l) s') : ∃ s₁ new, Leads s s₁ ∧
      s' = { s₁ with instances := s₁.instances ++ new } ∧ (new = [] ∨ ∃ i, new = [i] ∧ i.type.key = t.key) := by
  cases computes with
  | alone => exact ⟨s, [], .refl s, by rw [List.append_nil], Or.inl rfl⟩
  | made _ fields _ key => exact ⟨_, _, fieldsLayout_leads (fun u _ => each u) fields, rfl, Or.inr ⟨_, rfl, key⟩⟩

/-- One more type is open. -/
theorem Distinct.push (distinct : Distinct s) {o : OpenType} (fresh : ∀ e ∈ s.known, e.1 ≠ o.key) :
    Distinct { s with opened := s.opened ++ [o] } where
  once := distinct.once
  listed := distinct.listed
  apart e known := List.forall_mem_append.mpr ⟨distinct.apart e known, List.forall_mem_singleton.mpr (fresh e known)⟩

/-- Fewer types are open. -/
theorem Distinct.close (distinct : Distinct s) {opened : List OpenType} (fewer : opened ⊆ s.opened) :
    Distinct { s with opened := opened } where
  once := distinct.once
  listed := distinct.listed
  apart e known o member := distinct.apart e known o (fewer member)

/-- One more layout is known, that of a new instance at most. -/
theorem Distinct.learn (distinct : Distinct s) {key : String} {new : List Instance}
    (own : new = [] ∨ ∃ i, new = [i] ∧ i.type.key = key) (fresh : ∀ e ∈ s.known, e.1 ≠ key)
    (closed : ∀ o ∈ s.opened, o.key ≠ key) (l : Layout) :
    Distinct { s with instances := s.instances ++ new, known := (key, l) :: s.known } where
  once := by
    rcases own with rfl | ⟨i, rfl, same⟩
    · simpa using distinct.once
    · rw [List.map_append, List.nodup_append']
      refine ⟨distinct.once, List.nodup_singleton _, fun k old new => ?_⟩
      obtain ⟨j, member, rfl⟩ := List.mem_map.mp old
      obtain ⟨e, known, equal⟩ := distinct.listed j member
      exact fresh e known (equal.trans ((List.mem_singleton.mp new).trans same))
  listed := by
    refine List.forall_mem_append.mpr ⟨fun i member => ?_, fun i member => ?_⟩
    · obtain ⟨e, known, same⟩ := distinct.listed i member
      exact ⟨e, List.mem_cons_of_mem _ known, same⟩
    · rcases own with rfl | ⟨j, rfl, same⟩
      · cases member
      · obtain rfl := List.mem_singleton.mp member
        exact ⟨(key, l), List.mem_cons_self, same.symm⟩
  apart := List.forall_mem_cons.mpr ⟨fun o member => (closed o member).symm, distinct.apart⟩

theorem layoutStep_leads (each : ∀ u s r s', Runs (self u) c s r s' → Leads s s') {r : Except Stop Layout}
    (runs : Runs (layoutStep self t) c s r s') : Leads s s' := by
  cases steps_of_runs runs with
  | known => exact .refl s
  | again => exact .refl s
  | @failed e s₁ fresh new inner =>
    have leads := inner.leads_of_error each
    have opened : s₁.opened.dropLast = s.opened := by rw [leads.opened, List.dropLast_concat]
    exact ⟨leads.vars, opened, fun distinct =>
      (leads.distinct (distinct.push fresh)).close (List.dropLast_subset _)⟩
  | laid fresh new inner =>
    obtain ⟨s₁, made, leads, rfl, own⟩ := inner.leads_of_ok each
    have opened : s₁.opened.dropLast = s.opened := by rw [leads.opened, List.dropLast_concat]
    refine ⟨leads.vars, opened, fun distinct => ?_⟩
    have after := leads.distinct (distinct.push fresh)
    have unknown : ∀ e ∈ s₁.known, e.1 ≠ t.key := fun e known =>
      after.apart e known ⟨t.key, t.render⟩ (by rw [leads.opened]; exact List.mem_concat_self)
    exact (after.close (List.dropLast_subset _)).learn own unknown (fun o member => new o (opened ▸ member)) _

theorem layoutWithin_leads (n : Nat) {r : Except Stop Layout} (runs : Runs (layoutWithin n t) c s r s') : Leads s s' := by
  induction n generalizing t s r s' with
  | zero =>
    obtain ⟨-, rfl⟩ := runs_throw.mp runs
    exact .refl _
  | succ n ih => exact layoutStep_leads (fun _ _ _ _ => ih) runs

end Leads

/-- Types each of which holds the next, where the last is the first again. -/
structure Cycle (structs : List Explicit.Struct) (us : List Ty) (t : Ty) : Prop where
  holds : (us ++ [t]).IsChain (HasPart structs)
  again : ∃ first rest, us = first :: rest ∧ first.key = t.key

/-- What an answer may be, where `spec` tells what is right if the search goes deep enough: it agrees with that, or
types that are `near` hold themselves. -/
inductive Answers {α β : Type} (structs : List Explicit.Struct) (near : Ty → Prop) (agree : α → β → Prop)
    (spec : Nat → Except Stop β) : Except Stop α → Prop
  | found {n : Nat} {a : α} {b : β} (plain : spec n = .ok b) (same : agree a b) : Answers structs near agree spec (.ok a)
  | failed {n : Nat} {e : Stop} (plain : spec n = .error e) (other : e ≠ .endless) :
      Answers structs near agree spec (.error e)
  | looped {us : List Ty} {t : Ty} (cycle : Cycle structs us t) (inside : ∀ u ∈ us ++ [t], near u) :
      Answers structs near agree spec (.error (.fault (.recursive t.render ((us ++ [t]).map Ty.render)) {}))
  | endless : Answers structs near agree spec (.error .endless)

section Answers

variable {α β : Type} {structs : List Explicit.Struct} {near near' : Ty → Prop} {agree : α → β → Prop}
  {spec : Nat → Except Stop β} {r : Except Stop α}

theorem Answers.of_error {n : Nat} {e : Stop} (plain : spec n = .error e) : Answers structs near agree spec (.error e) := by
  by_cases gaveUp : e = .endless
  · exact gaveUp ▸ .endless
  · exact .failed plain gaveUp

theorem Answers.imp (answers : Answers structs near agree spec r) (wider : ∀ u, near u → near' u) :
    Answers structs near' agree spec r := by
  cases answers with
  | found plain same => exact .found plain same
  | failed plain other => exact .failed plain other
  | looped cycle inside => exact .looped cycle fun u member => wider u (inside u member)
  | endless => exact .endless

/-- A failure of a part is one of the whole. -/
theorem Answers.error_of_part {α' β' : Type} {agree' : α' → β' → Prop} {spec' : Nat → Except Stop β'} {e : Stop}
    (part : Answers structs near agree spec (.error e)) (wider : ∀ u, near u → near' u)
    (fails : ∀ n, spec n = .error e → ∃ m, spec' m = .error e) : Answers structs near' agree' spec' (.error e) := by
  cases part with
  | failed plain other =>
    obtain ⟨m, whole⟩ := fails _ plain
    exact .failed whole other
  | looped cycle inside => exact .looped cycle fun u member => wider u (inside u member)
  | endless => exact .endless

end Answers

structure Told (names : Ident → Prop) (t : Ty) : Prop where
  closed : t.cells = []
  spelled : t.Spelled (typeNames names)

/-- Structs whose fields have finished types with some names. -/
def Settled (structs : List Explicit.Struct) (names : Ident → Prop) : Prop :=
  ∀ d ∈ structs, ∀ x ∈ d.fields, Told names x.type

section Told

variable {structs : List Explicit.Struct} {names : Ident → Prop} {t u : Ty}

theorem Settled.spelled (settled : Settled structs names) : Names structs names := fun d member x field =>
  (settled d member x field).spelled

/-- Only structs hold anything: what their fields have, with the types filled in. -/
theorem HasPart.exists_field (part : HasPart structs t u) :
    ∃ name args, t = .named name args ∧ ∃ d ∈ structs, u ∈ fieldTypes d args := by
  cases t with
  | named name args =>
    rw [HasPart, parts] at part
    split at part
    · cases part
    split at part
    · rename_i d found
      exact ⟨name, args, rfl, d, mem_of_findLast? found, part⟩
    · cases part
  | _ => cases part

theorem HasPart.spelled {S : Spelling} (whole : ∀ d ∈ structs, ∀ x ∈ d.fields, x.type.Spelled S)
    (part : HasPart structs t u) (spelled : t.Spelled S) : u.Spelled S := by
  obtain ⟨name, args, rfl, d, member, field⟩ := part.exists_field
  exact spelled_fieldTypes whole member (Ty.spelled_named.mp spelled).2 u field

theorem Told.part (settled : Settled structs names) (told : Told names t) (part : HasPart structs t u) :
    Told names u := by
  refine ⟨?_, part.spelled settled.spelled told.spelled⟩
  obtain ⟨name, args, rfl, d, member, field⟩ := part.exists_field
  obtain ⟨x, inside, rfl⟩ := List.mem_map.mp field
  have closed := told.closed
  rw [Ty.cells_named, List.flatMap_eq_nil_iff] at closed
  refine List.eq_nil_iff_forall_not_mem.mpr fun cell known => ?_
  rcases Ty.mem_cells_substitute known with own | ⟨q, -, v, found, known⟩
  · rw [(settled d member x inside).closed] at own
    cases own
  · rw [closed v (List.of_mem_zip (mem_of_lookup found)).2] at known
    cases known

end Told

/-- A layout that is known under a key: that of a type with this key. -/
def Recalls (c : Context) (names : Ident → Prop) (f : Ident → Ident) (vars : List (Tag × Variable)) (key : String)
    (l : Layout) : Prop :=
  ∃ t n l', Told names t ∧ t.key = key ∧ plainLayout c.target c.structs vars n t = .ok l' ∧ l.respell f = l'.respell f

/-- The variables, the open types, and that all layouts that are known are right. -/
structure Fits (c : Context) (names : Ident → Prop) (f : Ident → Ident) (vars : List (Tag × Variable)) (ws : List Ty)
    (s : State) : Prop where
  same : s.vars = vars
  opened : s.opened = ws.map fun w => ⟨w.key, w.render⟩
  known : ∀ e ∈ s.known, Recalls c names f vars e.1 e.2

section Search

variable {c : Context} {names : Ident → Prop} {f : Ident → Ident} {vars : List (Tag × Variable)} {ws : List Ty}
  {s s' : State} {self : Ty → Measure Layout} {near : Ty → Ty → Prop}

/-- A way of laying out types while some are open, `near` which there may be types that hold themselves. -/
def Right (c : Context) (names : Ident → Prop) (f : Ident → Ident) (vars : List (Tag × Variable)) (ws : List Ty)
    (near : Ty → Ty → Prop) (self : Ty → Measure Layout) (t : Ty) : Prop :=
  ∀ s r s', Fits c names f vars ws s → Runs (self t) c s r s' → Fits c names f vars ws s' ∧
    Answers c.structs (near t) (fun l l' => Layout.respell f l = Layout.respell f l')
      (fun n => plainLayout c.target c.structs vars n t) r

theorem layout_parts_eq {l l' : Layout} (same : l.respell f = l'.respell f) :
    l.size = l'.size ∧ l.witness.isTrivial = l'.witness.isTrivial := by
  refine ⟨show (l.respell f).size = (l'.respell f).size by rw [same], ?_⟩
  rw [← l.isTrivial_respell f, same, l'.isTrivial_respell f]

theorem fieldsLayout_answers {ts : List Ty} (each : ∀ t ∈ ts, Right c names f vars ws near self t)
    (fits : Fits c names f vars ws s) {size : Size} {plain : Bool} {r : Except Stop (Size × Bool)}
    (runs : Runs (fieldsLayout.go self size plain ts) c s r s') : Fits c names f vars ws s' ∧
      Answers c.structs (fun v => ∃ t ∈ ts, near t v)
        (fun a ls => a = ((ls.map (·.size)).foldl Size.add size, plain && ls.all (·.witness.isTrivial)))
        (fun n => ts.mapM (plainLayout c.target c.structs vars n)) r := by
  induction ts generalizing size plain s with
  | nil =>
    obtain ⟨rfl, rfl⟩ := runs_pure.mp runs
    exact ⟨fits, .found (n := 0) (b := []) rfl (by simp)⟩
  | cons t rest ih =>
    rw [List.forall_mem_cons] at each
    rw [fieldsLayout.go, runs_bind] at runs
    rcases runs with ⟨l, s₁, first, later⟩ | ⟨e, first, rfl⟩
    · obtain ⟨fits₁, answer⟩ := each.1 _ _ _ fits first
      cases answer with | found found same => ?_
      rename_i n l'
      obtain ⟨fits', answers⟩ := ih each.2 fits₁ later
      refine ⟨fits', ?_⟩
      have both : ∀ m r, rest.mapM (plainLayout c.target c.structs vars m) = r → r ≠ .error .endless →
          ∃ k, (t :: rest).mapM (plainLayout c.target c.structs vars k) = r >>= fun ls => .ok (l' :: ls) := by
        intro m r others ended
        refine ⟨max n m, ?_⟩
        have deeper : ∀ {k}, k ≤ max n m → ∀ t, Completes (plainLayout c.target c.structs vars k t)
            (plainLayout c.target c.structs vars (max n m) t) := fun within t => plainLayout_completes within t
        have first := deeper (Nat.le_max_left n m) t (by rw [found]; exact fun wrong => by cases wrong)
        have later := Completes.mapM (deeper (Nat.le_max_right n m)) rest (by rw [others]; exact ended)
        rw [List.mapM_cons, first, later, found, others]
        rfl
      cases r with
      | ok a =>
        cases answers with | found others total => ?_
        obtain ⟨k, whole⟩ := both _ _ others fun wrong => by cases wrong
        refine .found whole ?_
        obtain ⟨sizes, plains⟩ := layout_parts_eq same
        rw [total, sizes, plains, List.map_cons, List.foldl_cons, List.all_cons, Bool.and_assoc]
      | error e =>
        by_cases gaveUp : e = .endless
        · exact gaveUp ▸ .endless
        refine answers.error_of_part (fun v => List.exists_mem_cons_of_exists) fun m failed => ?_
        obtain ⟨k, whole⟩ := both m _ failed fun wrong => gaveUp (by cases wrong; rfl)
        exact ⟨k, whole⟩
    · obtain ⟨fits', answer⟩ := each.1 _ _ _ fits first
      refine ⟨fits', answer.error_of_part (fun v here => ⟨t, List.mem_cons_self, here⟩) fun n failed => ⟨n, ?_⟩⟩
      rw [List.mapM_cons, failed]
      rfl

/-- A layout of a struct is put together from those of its fields, one after the other. -/
theorem computes_answers {t : Ty} (each : ∀ u ∈ parts c.structs t, Right c names f vars ws near self u)
    (fits : Fits c names f vars ws s) {r : Except Stop Layout} (computes : Computes c self t s r s') :
    Fits c names f vars ws s' ∧ Answers c.structs (fun v => ∃ u ∈ parts c.structs t, near u v)
      (fun l l' => Layout.respell f l = Layout.respell f l') (fun n => plainLayout c.target c.structs vars n t) r := by
  cases computes with
  | alone same =>
    rw [fits.same] at same
    refine ⟨fits, ?_⟩
    cases r with
    | ok l => exact .found (same 0) rfl
    | error e => exact .of_error (same 0)
  | failed struct fields =>
    obtain ⟨fits', answers⟩ := fieldsLayout_answers each fits fields
    refine ⟨fits', answers.error_of_part (fun v here => here) fun n failed => ⟨n + 1, ?_⟩⟩
    rw [struct, fromParts, failed]
    rfl
  | undescribed struct fields last =>
    obtain ⟨fits', answers⟩ := fieldsLayout_answers each fits fields
    cases answers with | found others total => ?_
    rename_i n ls
    obtain ⟨rfl, rfl⟩ := Prod.mk.inj total
    refine ⟨fits', .of_error (n := n + 1) ?_⟩
    rw [struct, fromParts, others, ← fits'.same]
    exact last
  | made struct fields last =>
    obtain ⟨fits', answers⟩ := fieldsLayout_answers each fits fields
    cases answers with | found others total => ?_
    rename_i n ls
    obtain ⟨rfl, rfl⟩ := Prod.mk.inj total
    refine ⟨⟨fits'.same, fits'.opened, fits'.known⟩, .found (n := n + 1) ?_ rfl⟩
    rw [struct, fromParts, others, ← fits'.same]
    exact last

def Near (c : Context) (ws : List Ty) (t u : Ty) : Prop := u ∈ ws ∨ ReflTransGen (HasPart c.structs) t u

theorem layoutWithin_answers (reads : ReadsTags names f) (settled : Settled c.structs names) (m : Nat) {t : Ty}
    (told : Told names t) (chain : (ws ++ [t]).IsChain (HasPart c.structs)) :
    Right c names f vars ws (Near c ws) (layoutWithin m) t := by
  induction m generalizing ws t with
  | zero =>
    intro s r s' fits runs
    obtain ⟨rfl, rfl⟩ := runs_throw.mp runs
    exact ⟨fits, .endless⟩
  | succ m ih =>
    intro s r s' fits runs
    have inner : ∀ {s₁ : State}, Computes c (layoutWithin m) t { s with opened := s.opened ++ [⟨t.key, t.render⟩] } r s₁ →
        Fits c names f vars ws { s₁ with opened := s₁.opened.dropLast } ∧
          Answers c.structs (Near c ws t) (fun l l' => Layout.respell f l = Layout.respell f l')
            (fun n => plainLayout c.target c.structs vars n t) r := by
      intro s₁ computes
      have fits₀ : Fits c names f vars (ws ++ [t]) { s with opened := s.opened ++ [⟨t.key, t.render⟩] } :=
        ⟨fits.same, by rw [List.map_append, fits.opened]; rfl, fits.known⟩
      have each : ∀ u ∈ parts c.structs t, Right c names f vars (ws ++ [t]) (Near c (ws ++ [t])) (layoutWithin m) u :=
        fun u part => ih (told.part settled part)
          (List.isChain_append.mpr ⟨chain, .singleton u, by simpa [HasPart] using part⟩)
      obtain ⟨fits₁, answers⟩ := computes_answers each fits₀ computes
      refine ⟨⟨fits₁.same, ?_, fits₁.known⟩, ?_⟩
      · change s₁.opened.dropLast = _
        rw [fits₁.opened, List.map_append, List.map_singleton, List.dropLast_concat]
      refine answers.imp ?_
      rintro v ⟨u, part, outer | inside⟩
      · rcases List.mem_append.mp outer with before | own
        · exact Or.inl before
        · exact Or.inr (List.mem_singleton.mp own ▸ .refl)
      · exact Or.inr (inside.head part)
    cases steps_of_runs runs with
    | known found =>
      obtain ⟨u, n, l', told', key, plain, same⟩ := fits.known _ (mem_of_lookup found)
      have alike : u.Alike t := Ty.alike_of_key told'.closed told.closed key
      obtain ⟨l'', plain', equal⟩ := plainLayout_alike reads (fun _ _ => id) settled.spelled (Nat.le_refl n) alike
        told'.spelled told.spelled plain
      exact ⟨fits, .found plain' (same.trans equal.symm)⟩
    | again split key =>
      rename_i before rest o
      rw [fits.opened] at split
      obtain ⟨ws₁, ws₂, rfl, -, later⟩ := List.map_eq_append_iff.mp split
      obtain ⟨w, ws₃, rfl, rfl, rfl⟩ := List.map_eq_cons_iff.mp later
      have cycle : Cycle c.structs (w :: ws₃) t :=
        ⟨(List.append_assoc ws₁ _ _ ▸ chain).right_of_append, w, ws₃, rfl, key⟩
      have texts : (OpenType.mk w.key w.render :: ws₃.map fun w => ⟨w.key, w.render⟩).map (·.text) ++ [t.render] =
          ((w :: ws₃) ++ [t]).map Ty.render := by
        rw [List.map_cons, List.map_map, List.map_append]
        rfl
      refine ⟨fits, ?_⟩
      rw [texts]
      refine .looped cycle fun u member => ?_
      rcases List.mem_append.mp member with opened | own
      · exact Or.inl (List.mem_append_right _ opened)
      · exact Or.inr (List.mem_singleton.mp own ▸ .refl)
    | failed fresh new computes => exact inner computes
    | laid fresh new computes =>
      obtain ⟨fits', answers⟩ := inner computes
      refine ⟨⟨fits'.same, fits'.opened, List.forall_mem_cons.mpr ⟨?_, fits'.known⟩⟩, answers⟩
      cases answers with | found plain same => ?_
      exact ⟨t, _, _, told, rfl, plain, same⟩

end Search

end WitnessLang.Sized
