import WitnessLang.Proofs.Ir.Builder

set_option autoImplicit false

namespace WitnessLang.Ir

open Ownership

/-- What is known of a value is built with definitions only. -/
def Naming.Lays (N : Naming) (s : Sized.Shape) : Prop := N.Describes s.layout.witness.constructors

section Covers

variable (N : Naming)

mutual

/-- An expression that names definitions and declared variables only. -/
def Naming.Covers : Sized.Expr → Prop
  | .var shape _ | .number shape _ _ | .bool shape _ => N.Lays shape
  | .callDirect shape function args witnesses => N.Lays shape ∧ N.defined function.mangled ∧
      CoversAll args ∧ N.Describes (WitnessExpr.constructorsAll witnesses)
  | .callClosure shape callee args => N.Lays shape ∧ Covers callee ∧ CoversAll args
  | .primitive shape _ left right => N.Lays shape ∧ Covers left ∧ Covers right
  | .block shape lets result => N.Lays shape ∧ CoversLets lets ∧ Covers result
  | .pack shape name fields => N.Lays shape ∧ N.defined name.mangled ∧ CoversFields fields
  | .unpack shape value _ => N.Lays shape ∧ Covers value
  | .cond shape test yes no => N.Lays shape ∧ Covers test ∧ Covers yes ∧ Covers no
  | .closure shape params generics captures env envShape body => N.Lays shape ∧ N.Lays envShape ∧
      N.defined env.mangled ∧
      (∀ v ∈ params ++ (generics ++ captures), N.declared v.name ∧ N.Lays v.shape) ∧ Covers body

def Naming.CoversAll : List Sized.Expr → Prop
  | [] => True
  | e :: rest => Covers e ∧ CoversAll rest

def Naming.CoversFields : List Sized.PackField → Prop
  | [] => True
  | ⟨_, value⟩ :: rest => Covers value ∧ CoversFields rest

def Naming.CoversLets : List Sized.Let → Prop
  | [] => True
  | ⟨v, value⟩ :: rest => (N.declared v.name ∧ N.Lays v.shape) ∧ Covers value ∧ CoversLets rest

end

theorem Naming.Covers.shape {N : Naming} {e : Sized.Expr} (covers : N.Covers e) : N.Lays e.shape := by
  cases e with
  | var | number | bool => exact covers
  | callDirect | callClosure | primitive | block | pack | unpack | cond | closure => exact covers.1

end Covers

/-- Where something is lowered: what it mentions can be read, and what it binds is new. -/
structure Spot (generics vars binders : List Tag) (live known : Set VarId) (s : Lowering) : Prop where
  sound : s.draft.Sound live known
  scope : s.draft.Scope generics vars live
  once : binders.Nodup
  apart : binders.Disjoint (generics ++ vars)

structure Held (live : Set VarId) (d : Draft) (v : VarId) : Prop where
  there : v ∈ live
  inside : v < d.vars.size
  value : isWitness d.vars v = false

section Spots

variable {N : Naming} {generics vars binders bound part : List Tag} {writable live known live' known' : Set VarId}
  {s s' : Lowering} {is : Block}

theorem Spot.sublist (spot : Spot generics vars binders live known s) (within : List.Sublist part binders) :
    Spot generics vars part live known s :=
  { spot with
    once := spot.once.sublist within
    apart := fun _ left right => spot.apart (within.subset left) right }

/-- Behind something else that binds other variables, the same can be read. -/
theorem Spot.later (spot : Spot generics vars binders live known s)
    (work : Work N bound writable ∅ live known s is live' known' s')
    (apart : bound.Disjoint (generics ++ vars)) : Spot generics vars binders live' known' s' :=
  { spot with
    sound := work.sound
    scope := spot.scope.later spot.sound.held work apart }

theorem Spot.behind (spot : Spot generics vars (part ++ binders) live known s)
    (work : Work N part writable ∅ live known s is live' known' s') :
    Spot generics vars binders live' known' s' :=
  (spot.sublist (List.sublist_append_right _ _)).later work fun _ left right =>
    spot.apart (List.mem_append_left _ left) right

theorem Spot.front (spot : Spot generics vars (part ++ binders) live known s) :
    Spot generics vars part live known s := spot.sublist (List.sublist_append_left _ _)

theorem Held.later {v : VarId} (held : Held live s.draft v) (sound : s.draft.Sound live known)
    (work : Work N bound writable ∅ live known s is live' known' s') : Held live' s'.draft v where
  there := work.keeps sound.held held.there held.inside
  inside := Nat.lt_of_lt_of_le held.inside work.vars.size
  value := by rw [work.vars.isWitness held.inside, held.value]

/-- A place stays open while something is prepared. -/
theorem Draft.Open.past {dst : VarId} (place : s.draft.Open live known dst) (sound : s.draft.Sound live known)
    (work : Work N bound ∅ ∅ live known s is live' known' s') : s'.draft.Open live' known' dst :=
  place.later sound.located sound.held work (Set.notMem_empty dst)

/-- A place stays open beside variables that hold values from the start. -/
theorem Draft.Open.beside {dst : VarId} {extra : Set VarId} (place : s.draft.Open live known dst)
    (sound : s.draft.Sound live known)
    (work : Work N bound ∅ ∅ (live ∪ extra) (known ∪ extra) s is live' known' s')
    (new : ∀ v ∈ extra, s.draft.vars.size ≤ v) : s'.draft.Open live' known' dst := by
  have wider : s.draft.Open (live ∪ extra) (known ∪ extra) dst := by
    refine ⟨place.inside, ?_, fun w found => Or.inl (place.described w found)⟩
    rintro (old | beside)
    · exact place.fresh old
    · exact absurd place.inside (Nat.not_lt.mpr (new dst beside))
  exact wider.later sound.located (Set.union_subset_union_left _ sound.held) work (Set.notMem_empty dst)

/-- A variable in scope is held. -/
theorem lookup_held (allowed : LowerFailure → Prop) {name : Ident}
    (spot : Spot generics vars binders live known s) (member : name.tag ∈ vars) :
    ∃ v, Held live s.draft v ∧ Meets allowed (lookup name) s fun v' s' => v' = v ∧ s' = s := by
  obtain ⟨v, found, there, inside, value⟩ := spot.scope.vars _ member
  exact ⟨v, ⟨there, inside, value⟩, lookup_meets found⟩

end Spots

section Filling

variable (N : Naming) (c : Sized.Context)

/-- An expression is lowered into any place: the place is filled, and nothing old is taken away
but, at the end of a function, what may be taken. -/
def Fills (e : Sized.Expr) : Prop :=
  ∀ (generics vars : List Tag) (live known movable : Set VarId) (s : Lowering) (dst : VarId) (tail : Bool),
    e.Scoped c generics vars → N.Covers e → Spot generics vars e.binders live known s →
    s.draft.Open live known dst → dst ∉ movable → (tail = true → ∀ v ∈ s.draft.locals, v ∈ movable) →
    Leads LowerFailure.Declared N e.binders {dst} movable live known (into tail e dst) s
      fun live' _ _ _ => dst ∈ live'

end Filling

section Operands

variable {N : Naming} {c : Sized.Context} {generics vars : List Tag} {live known : Set VarId} {s : Lowering}

theorem operand_eq (e : Sized.Expr) (write : VarId → Lower Unit) :
    (∃ shape name, e = .var shape name) ∨
      operand e write = temporary e.shape >>= fun t => write t >>= fun _ => pure t := by
  cases e with
  | var shape name => exact Or.inl ⟨shape, name, rfl⟩
  | number | bool | callDirect | callClosure | primitive | block | pack | unpack | cond | closure =>
    exact Or.inr rfl

theorem fieldValue_eq (e : Sized.Expr) (write : VarId → Lower Unit) :
    (∃ shape name, e = .var shape name) ∨
      fieldValue e write = temporary e.shape >>= fun t => write t >>= fun _ => pure ⟨.move, t⟩ := by
  cases e with
  | var shape name => exact Or.inl ⟨shape, name, rfl⟩
  | number | bool | callDirect | callClosure | primitive | block | pack | unpack | cond | closure =>
    exact Or.inr rfl

theorem scoped_shape {e : Sized.Expr} (inside : e.Scoped c generics vars) : e.shape.Scoped c generics := by
  cases e with
  | number | bool => exact inside
  | var | callDirect | callClosure | primitive | block | pack | unpack | cond | closure => exact inside.1

/-- An expression is evaluated into a temporary of its own. -/
theorem filled_leads {α : Type} {e : Sized.Expr} (fills : Fills N c e) (inside : e.Scoped c generics vars)
    (covers : N.Covers e) (spot : Spot generics vars e.binders live known s) (make : VarId → α) :
    Leads LowerFailure.Declared N e.binders ∅ ∅ live known
      (temporary e.shape >>= fun t => into false e t >>= fun _ => pure (make t)) s
      fun live' _ a s' => ∃ v, a = make v ∧ Held live' s'.draft v ∧ s.draft.vars.size ≤ v := by
  refine (Leads.bind [] _ ∅ ∅ {v | s.draft.vars.size ≤ v} ∅
    (temporary_leads spot.sound spot.scope (scoped_shape inside).layout.names covers.shape)
    fun v s₁ is live₁ known₁ work post => ?_) (fun v member => ?_) fun v member => ?_
  · obtain ⟨name, fresh⟩ := post
    have spot₁ := spot.later work (List.disjoint_nil_left _)
    have filled := fills generics vars live₁ known₁ ∅ s₁ v false inside covers spot₁ fresh.place
      (Set.notMem_empty v) (by simp)
    refine (Leads.seq _ [] filled fun _ s₂ js live₂ known₂ work₂ there => ?_).mono (by simp) ?_
      fun _ member => Or.inr member
    · refine leads_pure work₂.sound ⟨v, rfl, ⟨there, Nat.lt_of_lt_of_le fresh.place.inside work₂.vars.size, ?_⟩,
        fresh.new⟩
      rw [work₂.vars.isWitness fresh.place.inside, ← Bool.not_eq_true, fresh.type]
      exact (scoped_shape inside).layout.value
    · rintro w rfl
      exact Or.inr fresh.new
  · exact member.elim (absurd · (Set.notMem_empty _)) Or.inl
  · exact member.elim (absurd · (Set.notMem_empty _)) (absurd · (Set.notMem_empty _))

theorem operand_leads {e : Sized.Expr} (fills : Fills N c e) (inside : e.Scoped c generics vars)
    (covers : N.Covers e) (spot : Spot generics vars e.binders live known s) :
    Leads LowerFailure.Declared N e.binders ∅ ∅ live known (operand e (into false e)) s
      fun live' _ v s' => Held live' s'.draft v := by
  rcases operand_eq e (into false e) with ⟨shape, name, rfl⟩ | same
  · obtain ⟨v, held, found⟩ := lookup_held LowerFailure.Declared spot inside.2
    refine Meets.imp found fun v' s' post => ?_
    obtain ⟨rfl, rfl⟩ := post
    exact ⟨[], live, known, Work.refl _ _ spot.sound, held⟩
  · rw [same]
    refine (filled_leads fills inside covers spot id).imp fun live' known' v s' post => ?_
    obtain ⟨_, rfl, held, -⟩ := post
    exact held

/-- A field value that can be taken: a declared variable keeps its value, a temporary gives it
away. -/
structure Taken (size : Nat) (live : Set VarId) (d : Draft) (v : Value) : Prop where
  held : Held live d v.var
  moved : v.mode = .move → size ≤ v.var

theorem fieldValue_leads {e : Sized.Expr} (fills : Fills N c e) (inside : e.Scoped c generics vars)
    (covers : N.Covers e) (spot : Spot generics vars e.binders live known s) :
    Leads LowerFailure.Declared N e.binders ∅ ∅ live known (fieldValue e (into false e)) s
      fun live' _ v s' => Taken s.draft.vars.size live' s'.draft v := by
  rcases fieldValue_eq e (into false e) with ⟨shape, name, rfl⟩ | same
  · obtain ⟨v, held, found⟩ := lookup_held LowerFailure.Declared spot inside.2
    rw [fieldValue, Leads]
    refine Meets.bind found fun v' s' post => ?_
    obtain ⟨rfl, rfl⟩ := post
    exact ⟨[], live, known, Work.refl _ _ spot.sound, held, fun impossible => by cases impossible⟩
  · rw [same]
    refine (filled_leads fills inside covers spot _).imp fun live' known' v s' post => ?_
    obtain ⟨t, rfl, held, new⟩ := post
    exact ⟨held, fun _ => new⟩

theorem operands_lead {es : List Sized.Expr} (fills : ∀ e ∈ es, Fills N c e)
    (inside : Sized.Expr.ScopedAll c generics vars es) (covers : N.CoversAll es)
    (spot : Spot generics vars (Sized.Expr.bindersAll es) live known s) :
    Leads LowerFailure.Declared N (Sized.Expr.bindersAll es) ∅ ∅ live known (operands es) s
      fun live' _ vs s' => ∀ v ∈ vs, Held live' s'.draft v := by
  induction es generalizing live known s with
  | nil =>
    rw [operands]
    exact leads_pure spot.sound (by simp)
  | cons e rest ih =>
    rw [List.forall_mem_cons] at fills
    rw [Sized.Expr.bindersAll] at spot ⊢
    rw [operands]
    refine Leads.seq _ _ (operand_leads fills.1 inside.1 covers.1 spot.front)
      fun v s₁ is live₁ known₁ work held => ?_
    refine (Leads.seq _ [] (ih fills.2 inside.2 covers.2 (spot.behind work))
      fun vs s₂ js live₂ known₂ work₂ others => ?_).mono (by simp) (fun _ => Or.inr) fun _ => Or.inr
    exact leads_pure work₂.sound (List.forall_mem_cons.mpr ⟨held.later work.sound work₂, others⟩)

theorem Taken.later {size : Nat} {v : Value} {bound : List Tag} {writable live' known' : Set VarId}
    {s' : Lowering} {is : Block} (taken : Taken size live s.draft v) (sound : s.draft.Sound live known)
    (work : Work N bound writable ∅ live known s is live' known' s') : Taken size live' s'.draft v :=
  ⟨taken.held.later sound work, taken.moved⟩

structure AllTaken (size : Nat) (live : Set VarId) (d : Draft) (vs : List Value) : Prop where
  each : ∀ v ∈ vs, Taken size live d v
  once : (given vs).Nodup

theorem mem_given {vs : List Value} {v : VarId} : v ∈ given vs ↔ ⟨.move, v⟩ ∈ vs := by
  simp only [given, List.mem_map, List.mem_filter, beq_iff_eq]
  constructor
  · rintro ⟨⟨mode, _⟩, ⟨member, rfl⟩, rfl⟩
    exact member
  · exact fun member => ⟨_, ⟨member, rfl⟩, rfl⟩

theorem mem_kept {vs : List Value} {v : VarId} : v ∈ kept vs ↔ ⟨.copy, v⟩ ∈ vs := by
  simp only [kept, List.mem_map, List.mem_filter, beq_iff_eq]
  constructor
  · rintro ⟨⟨mode, _⟩, ⟨member, rfl⟩, rfl⟩
    exact member
  · exact fun member => ⟨_, ⟨member, rfl⟩, rfl⟩

/-- What is taken first was there when the rest was lowered. -/
theorem AllTaken.cons {size later : Nat} {d : Draft} {v : Value} {vs : List Value}
    (first : Taken size live d v) (before : v.var < later) (rest : AllTaken later live d vs)
    (order : size ≤ later) : AllTaken size live d (v :: vs) where
  each := List.forall_mem_cons.mpr ⟨first, fun w member =>
    ⟨(rest.each w member).held, fun moved => Nat.le_trans order ((rest.each w member).moved moved)⟩⟩
  once := by
    obtain ⟨mode, var⟩ := v
    cases mode with
    | copy => exact rest.once
    | move =>
      refine List.nodup_cons.mpr ⟨fun member => ?_, rest.once⟩
      exact absurd before (Nat.not_lt.mpr ((rest.each _ (mem_given.mp member)).moved rfl))

theorem packFields_lead {fs : List Sized.PackField} (fills : ∀ f ∈ fs, Fills N c f.value)
    (inside : Sized.Expr.FieldsScoped c generics vars fs) (covers : N.CoversFields fs)
    (spot : Spot generics vars (Sized.Expr.fieldBinders fs) live known s) :
    Leads LowerFailure.Declared N (Sized.Expr.fieldBinders fs) ∅ ∅ live known (packFields fs) s
      fun live' _ vs s' => AllTaken s.draft.vars.size live' s'.draft (vs.map (·.value)) := by
  induction fs generalizing live known s with
  | nil =>
    rw [packFields]
    exact leads_pure spot.sound ⟨by simp, by simp [given]⟩
  | cons f rest ih =>
    obtain ⟨name, value⟩ := f
    rw [List.forall_mem_cons] at fills
    rw [Sized.Expr.fieldBinders] at spot ⊢
    rw [packFields]
    refine Leads.seq _ _ (fieldValue_leads fills.1 inside.1 covers.1 spot.front)
      fun v s₁ is live₁ known₁ work taken => ?_
    refine (Leads.seq _ [] (ih fills.2 inside.2 covers.2 (spot.behind work))
      fun vs s₂ js live₂ known₂ work₂ others => ?_).mono (by simp) (fun _ => Or.inr) fun _ => Or.inr
    exact leads_pure work₂.sound
      (.cons (taken.later work.sound work₂) taken.held.inside others work.vars.size)

/-- A declared variable becomes a local before anything is done to it. -/
theorem own_leads {β : Type} {allowed : LowerFailure → Prop} (bound : List Tag) (places : Set VarId)
    {writable movable : Set VarId} {x : Sized.Variable} {f : VarId → Lower β}
    {post : Set VarId → Set VarId → β → Lowering → Prop} (sound : s.draft.Sound live known)
    (scope : s.draft.Scope generics vars live) (inside : ∀ y ∈ x.shape.layout.names, y.tag ∈ generics)
    (declared : N.declared x.name) (lays : N.Lays x.shape)
    (next : ∀ v s' is live' known', Work N [x.name.tag] ∅ ∅ live known s is live' known' s' →
      Fresh s.draft.vars.size x.name.mangled x.shape live' known' v s' →
      s'.draft.scope.lookup x.name.tag = some v →
      Leads allowed N bound places movable live' known' (f v) s' post)
    (filled : Within s.draft.vars.size places writable) :
    Leads allowed N (x.name.tag :: bound) writable movable live known
      (define x >>= fun v => addLocal v >>= fun _ => f v) s post := by
  refine Meets.bind (define_leads sound scope inside lays) fun v s₁ post => ?_
  obtain ⟨is, live₁, known₁, work, fresh, found, _⟩ := post
  have owned := work.own fresh.new fresh.place.inside
    (Or.inr ⟨x.name, declared, List.mem_singleton_self _, fresh.name⟩)
  have place : (s₁.owning v).draft.Open live₁ known₁ v :=
    ⟨fresh.place.inside, fresh.place.fresh, fresh.place.described⟩
  rw [meets_bind, meets_addLocal]
  have rest := next v _ is live₁ known₁ owned ⟨fresh.new, place, fresh.name, fresh.type⟩ found
  exact rest.after places movable
    (owned.mono (fun _ => id) (within_empty _ _)
      (within_empty _ _)) filled fun _ => Or.inr

/-- Bindings are filled in order, each in the scope of those before it. -/
theorem lets_lead {bs : List Sized.Let} (fills : ∀ b ∈ bs, Fills N c b.value)
    (inside : Sized.Expr.LetsScoped c generics vars bs) (covers : N.CoversLets bs)
    (spot : Spot generics vars (Sized.Expr.letBinders bs) live known s) :
    Leads LowerFailure.Declared N (Sized.Expr.letBinders bs) ∅ ∅ live known (lets bs) s
      fun live' _ _ s' => s'.draft.Scope generics (Sized.letTags bs vars) live' := by
  induction bs generalizing vars live known s with
  | nil =>
    rw [lets]
    exact leads_pure spot.sound spot.scope
  | cons b rest ih =>
    obtain ⟨x, value⟩ := b
    rw [List.forall_mem_cons] at fills
    obtain ⟨shape, insideV, insideR⟩ := inside
    obtain ⟨⟨declared, lays⟩, coversV, coversR⟩ := covers
    rw [Sized.Expr.letBinders] at spot ⊢
    obtain ⟨-, onceR, apartV⟩ := List.nodup_append'.mp spot.once
    have newV : x.name.tag ∉ value.binders := fun member => apartV member List.mem_cons_self
    have newX : x.name.tag ∉ generics ++ vars := fun member => spot.apart (by simp) member
    rw [lets]
    refine (own_leads (value.binders ++ Sized.Expr.letBinders rest) {v | s.draft.vars.size ≤ v} spot.sound spot.scope shape.layout.names declared lays
      (fun v s₁ is live₁ known₁ work fresh found => ?_) fun _ => Or.inl).mono ?_ (fun _ => Or.inr)
      fun _ => Or.inr
    · have spotV := spot.front.later work (List.singleton_disjoint.mpr newX)
      have filled := fills.1 generics vars live₁ known₁ ∅ s₁ v false insideV coversV spotV fresh.place
        (Set.notMem_empty v) (by simp)
      refine Leads.bind _ _ _ _ ∅ ∅ filled (fun _ s₂ js live₂ known₂ work₂ there => ?_)
        ?_ ?_
      · have scope₂ := spotV.scope.later spotV.sound.held work₂ fun _ left right =>
          spotV.apart left right
        refine ih fills.2 insideR coversR ⟨work₂.sound, ⟨scope₂.generics, List.forall_mem_cons.mpr
          ⟨⟨v, ?_, there, Nat.lt_of_lt_of_le fresh.place.inside work₂.vars.size, ?_⟩, scope₂.vars⟩⟩,
          (List.nodup_cons.mp onceR).2, fun t left right => ?_⟩
        · rw [work₂.scope _ newV, found]
        · rw [work₂.vars.isWitness fresh.place.inside, ← Bool.not_eq_true, fresh.type]
          exact shape.layout.value
        · rcases List.mem_append.mp right with generic | var
          · exact spot.apart (by simp [left]) (List.mem_append_left _ generic)
          · rcases List.mem_cons.mp var with rfl | var
            · exact (List.nodup_cons.mp onceR).1 left
            · exact spot.apart (by simp [left]) (List.mem_append_right _ var)
      · rintro w (rfl | impossible)
        · exact Or.inr fresh.new
        · exact absurd impossible (Set.notMem_empty _)
      · rintro w (impossible | impossible)
        · exact absurd impossible (Set.notMem_empty _)
        · exact absurd impossible (Set.notMem_empty _)
    · intro t member
      simp only [List.mem_cons, List.mem_append] at member ⊢
      tauto

end Operands

end WitnessLang.Ir
