import WitnessLang.Proofs.Typed.Program
import WitnessLang.Proofs.Typed.Reads

set_option autoImplicit false

namespace WitnessLang.Typed

mutual

/-- An expression and all expressions inside it. -/
def Expr.parts (e : Expr) : List Expr :=
  e :: match e with
    | .number _ _ _ | .bool _ _ | .var _ _ _ => []
    | .callDirect _ _ _ _ args => partsAll args
    | .callClosure _ _ callee args => callee.parts ++ partsAll args
    | .operation _ _ left right => left.parts ++ right.parts
    | .record _ _ _ fields => fieldParts fields
    | .block _ lets result => letParts lets ++ result.parts
    | .cond _ test yes no => test.parts ++ (yes.parts ++ no.parts)
    | .closure _ _ _ body => body.parts

def Expr.partsAll : List Expr → List Expr
  | [] => []
  | e :: rest => e.parts ++ partsAll rest

def Expr.fieldParts : List FieldInit → List Expr
  | [] => []
  | ⟨_, value⟩ :: rest => value.parts ++ fieldParts rest

def Expr.letParts : List Let → List Expr
  | [] => []
  | ⟨_, value⟩ :: rest => value.parts ++ letParts rest

end

mutual

/-- The variables that an expression reads, closures entered, in the order in which the tree
is walked, repetitions included. -/
def Expr.deepReads : Expr → List Capture
  | .number _ _ _ | .bool _ _ => []
  | .var _ name t => [⟨name, t⟩]
  | .callDirect _ _ _ _ args => deepReadsAll args
  | .callClosure _ _ callee args => callee.deepReads ++ deepReadsAll args
  | .operation _ _ left right => left.deepReads ++ right.deepReads
  | .record _ _ _ fields => fieldDeepReads fields
  | .block _ lets result => letDeepReads lets ++ result.deepReads
  | .cond _ test yes no => test.deepReads ++ (yes.deepReads ++ no.deepReads)
  | .closure _ _ _ body => body.deepReads

def Expr.deepReadsAll : List Expr → List Capture
  | [] => []
  | e :: rest => e.deepReads ++ deepReadsAll rest

def Expr.fieldDeepReads : List FieldInit → List Capture
  | [] => []
  | ⟨_, value⟩ :: rest => value.deepReads ++ fieldDeepReads rest

def Expr.letDeepReads : List Let → List Capture
  | [] => []
  | ⟨_, value⟩ :: rest => value.deepReads ++ letDeepReads rest

end

mutual

/-- What an expression reads from around it, where `bound` is bound around it but not to be
counted: a block binds for what comes behind a binding, a closure for its body. -/
def Expr.free (bound : List Tag) : Expr → List Capture
  | .number _ _ _ | .bool _ _ => []
  | .var _ name t => if bound.contains name.tag then [] else [⟨name, t⟩]
  | .callDirect _ _ _ _ args => freeAll bound args
  | .callClosure _ _ callee args => callee.free bound ++ freeAll bound args
  | .operation _ _ left right => left.free bound ++ right.free bound
  | .record _ _ _ fields => fieldFree bound fields
  | .block _ lets result =>
    letFree bound lets ++
      result.free (bound ++ lets.flatMap fun b => b.pattern.names.map (·.tag))
  | .cond _ test yes no => test.free bound ++ (yes.free bound ++ no.free bound)
  | .closure _ params _ body => body.free (bound ++ paramTags params)

def Expr.freeAll (bound : List Tag) : List Expr → List Capture
  | [] => []
  | e :: rest => e.free bound ++ freeAll bound rest

def Expr.fieldFree (bound : List Tag) : List FieldInit → List Capture
  | [] => []
  | ⟨_, value⟩ :: rest => value.free bound ++ fieldFree bound rest

/-- The same for bindings, each of which is bound behind it. -/
def Expr.letFree (bound : List Tag) : List Let → List Capture
  | [] => []
  | ⟨p, value⟩ :: rest => value.free bound ++ letFree (bound ++ p.names.map (·.tag)) rest

end

def firstOfEach (cs : List Capture) : List Capture :=
  cs.eraseDupsBy fun c d => c.name.tag == d.name.tag

section Children

/-- The values of bindings, each with what is bound before it, from `own` on. -/
def letScopes (own : List Tag) : List Let → List (List Tag × Expr)
  | [] => []
  | ⟨p, value⟩ :: rest => (own, value) :: letScopes (own ++ p.names.map (·.tag)) rest

/-- The expressions right inside an expression, each with what the expression binds for it. -/
def Expr.scopes : Expr → List (List Tag × Expr)
  | .number _ _ _ | .bool _ _ | .var _ _ _ => []
  | .callDirect _ _ _ _ args => args.map ([], ·)
  | .callClosure _ _ callee args => ([], callee) :: args.map ([], ·)
  | .operation _ _ left right => [([], left), ([], right)]
  | .record _ _ _ fields => fields.map fun i => ([], i.value)
  | .block _ lets result =>
    letScopes [] lets ++ [(lets.flatMap fun b => b.pattern.names.map (·.tag), result)]
  | .cond _ test yes no => [([], test), ([], yes), ([], no)]
  | .closure _ params _ body => [(paramTags params, body)]

variable {bs : List Let} {own : List Tag}

theorem map_letScopes : (letScopes own bs).map (·.2) = bs.map (·.value) := by
  induction bs generalizing own with
  | nil => rfl
  | cons b rest ih =>
    obtain ⟨p, value⟩ := b
    rw [letScopes, List.map_cons, List.map_cons, ih]

theorem flatMap_letScopes {α : Type} (f : Expr → List α) :
    (letScopes own bs).flatMap (fun s => f s.2) = bs.flatMap fun b => f b.value := by
  have same := congrArg (List.flatMap f) (@map_letScopes bs own)
  rwa [List.flatMap_map, List.flatMap_map] at same

namespace Expr

theorem partsAll_eq_flatMap (es : List Expr) : partsAll es = es.flatMap parts := by
  induction es with
  | nil => rfl
  | cons e rest ih => rw [partsAll, ih, List.flatMap_cons]

theorem fieldParts_eq_flatMap (fs : List FieldInit) : fieldParts fs = fs.flatMap (·.value.parts) := by
  induction fs with
  | nil => rfl
  | cons i rest ih =>
    obtain ⟨name, value⟩ := i
    rw [fieldParts, ih, List.flatMap_cons]

theorem letParts_eq_flatMap (bs : List Let) : letParts bs = bs.flatMap (·.value.parts) := by
  induction bs with
  | nil => rfl
  | cons b rest ih =>
    obtain ⟨p, value⟩ := b
    rw [letParts, ih, List.flatMap_cons]

theorem deepReadsAll_eq_flatMap (es : List Expr) : deepReadsAll es = es.flatMap deepReads := by
  induction es with
  | nil => rfl
  | cons e rest ih => rw [deepReadsAll, ih, List.flatMap_cons]

theorem fieldDeepReads_eq_flatMap (fs : List FieldInit) :
    fieldDeepReads fs = fs.flatMap (·.value.deepReads) := by
  induction fs with
  | nil => rfl
  | cons i rest ih =>
    obtain ⟨name, value⟩ := i
    rw [fieldDeepReads, ih, List.flatMap_cons]

theorem letDeepReads_eq_flatMap (bs : List Let) : letDeepReads bs = bs.flatMap (·.value.deepReads) := by
  induction bs with
  | nil => rfl
  | cons b rest ih =>
    obtain ⟨p, value⟩ := b
    rw [letDeepReads, ih, List.flatMap_cons]

theorem freeAll_eq_flatMap (bound : List Tag) (es : List Expr) :
    freeAll bound es = es.flatMap (free bound) := by
  induction es with
  | nil => rfl
  | cons e rest ih => rw [freeAll, ih, List.flatMap_cons]

theorem fieldFree_eq_flatMap (bound : List Tag) (fs : List FieldInit) :
    fieldFree bound fs = fs.flatMap (·.value.free bound) := by
  induction fs with
  | nil => rfl
  | cons i rest ih =>
    obtain ⟨name, value⟩ := i
    rw [fieldFree, ih, List.flatMap_cons]

theorem letFree_eq_flatMap (bound : List Tag) (bs : List Let) :
    letFree (bound ++ own) bs = (letScopes own bs).flatMap fun s => s.2.free (bound ++ s.1) := by
  induction bs generalizing own with
  | nil => rfl
  | cons b rest ih =>
    obtain ⟨p, value⟩ := b
    rw [letFree, letScopes, List.flatMap_cons, List.append_assoc, ih]

/-- What holds of an expression if it holds of those right inside it, holds of every one. -/
theorem induct_scopes {motive : Expr → Prop} (node : ∀ e, (∀ s ∈ e.scopes, motive s.2) → motive e)
    (e : Expr) : motive e := by
  induction e with
  | number | bool | var => exact node _ (List.forall_mem_nil _)
  | callDirect span type function generics args ih =>
    exact node _ (List.forall_mem_map.mpr ih)
  | callClosure span type callee args ihCallee ih =>
    exact node _ (List.forall_mem_cons.mpr ⟨ihCallee, List.forall_mem_map.mpr ih⟩)
  | operation span op left right ihLeft ihRight => exact node _ (by simp [scopes, ihLeft, ihRight])
  | record span name args fields ih => exact node _ (List.forall_mem_map.mpr ih)
  | block span lets result ih ihResult =>
    refine node _ (List.forall_mem_append.mpr ⟨?_, List.forall_mem_singleton.mpr ihResult⟩)
    have values := List.forall_mem_map.mpr ih
    rw [← map_letScopes] at values
    exact List.forall_mem_map.mp values
  | cond span test yes no ihTest ihYes ihNo => exact node _ (by simp [scopes, ihTest, ihYes, ihNo])
  | closure span params captures body ih => exact node _ (List.forall_mem_singleton.mpr ih)

theorem parts_eq (e : Expr) : e.parts = e :: e.scopes.flatMap (·.2.parts) := by
  cases e <;> simp [parts, scopes, partsAll_eq_flatMap, fieldParts_eq_flatMap, letParts_eq_flatMap,
    flatMap_letScopes, List.flatMap_map]

theorem deepReads_eq {e : Expr} (other : ∀ span name t, e ≠ .var span name t) :
    e.deepReads = e.scopes.flatMap (·.2.deepReads) := by
  cases e with
  | var => exact absurd rfl (other _ _ _)
  | _ => simp [deepReads, scopes, deepReadsAll_eq_flatMap, fieldDeepReads_eq_flatMap,
      letDeepReads_eq_flatMap, flatMap_letScopes, List.flatMap_map]

theorem free_eq {e : Expr} (bound : List Tag) (other : ∀ span name t, e ≠ .var span name t) :
    e.free bound = e.scopes.flatMap fun s => s.2.free (bound ++ s.1) := by
  have lets (bs : List Let) := @letFree_eq_flatMap [] bound bs
  cases e with
  | var => exact absurd rfl (other _ _ _)
  | _ => simp_all [free, scopes, freeAll_eq_flatMap, fieldFree_eq_flatMap, List.flatMap_map]

theorem reads_eq {e : Expr} (other : ∀ span name t, e ≠ .var span name t)
    (plain : ∀ span params captured body, e ≠ .closure span params captured body) :
    e.reads = e.scopes.flatMap (·.2.reads) := by
  cases e with
  | var => exact absurd rfl (other _ _ _)
  | closure => exact absurd rfl (plain _ _ _ _)
  | _ => simp [reads, scopes, flatMap_letScopes, List.flatMap_map]

end Expr

end Children

section Firsts

/-- Those of some captures that are none of the given variables. -/
def outside (tags : List Tag) (cs : List Capture) : List Capture :=
  cs.filter fun c => !tags.contains c.name.tag

variable {bound bound' : List Tag} {cs : List Capture}

theorem outside_congr (same : ∀ c ∈ cs, (c.name.tag ∈ bound ↔ c.name.tag ∈ bound')) :
    outside bound cs = outside bound' cs := by
  refine List.filter_congr fun c member => ?_
  simp [same c member]

theorem outside_flatMap {α : Type} (f : α → List Capture) (as : List α) :
    outside bound (as.flatMap f) = as.flatMap fun a => outside bound (f a) :=
  List.filter_flatMap

theorem outside_cons_tag (tag : Tag) :
    outside (tag :: bound) cs = (outside bound cs).filter fun c => (c.name.tag == tag) = false := by
  rw [outside, outside, List.filter_filter]
  refine List.filter_congr fun c _ => ?_
  simp

theorem firstReads_cons_of_mem {c : Capture} (old : c.name.tag ∈ bound) :
    firstReads bound (c :: cs) = firstReads bound cs := by
  rw [firstReads, if_pos (List.contains_iff_mem.mpr old)]

theorem firstReads_cons_of_not_mem {c : Capture} (new : c.name.tag ∉ bound) :
    firstReads bound (c :: cs) = c :: firstReads (c.name.tag :: bound) cs := by
  rw [firstReads, if_neg (mt List.contains_iff_mem.mp new)]

theorem firstReads_eq (bound : List Tag) (cs : List Capture) :
    firstReads bound cs = firstOfEach (outside bound cs) := by
  induction cs generalizing bound with
  | nil => rfl
  | cons c rest ih =>
    by_cases old : c.name.tag ∈ bound
    · rw [firstReads_cons_of_mem old, ih, outside, outside, List.filter_cons_of_neg (by simpa using old)]
    · rw [firstReads_cons_of_not_mem old, ih, outside_cons_tag, firstOfEach, firstOfEach, outside,
        outside, List.filter_cons_of_pos (by simpa using old), List.eraseDupsBy_cons]

theorem firstReads_congr (same : ∀ c ∈ cs, (c.name.tag ∈ bound ↔ c.name.tag ∈ bound')) :
    firstReads bound cs = firstReads bound' cs := by
  rw [firstReads_eq, firstReads_eq, outside_congr same]

theorem firstReads_append (bound : List Tag) (cs ds : List Capture) :
    firstReads bound (cs ++ ds) =
      firstReads bound cs ++ firstReads (captureTags (firstReads bound cs) ++ bound) ds := by
  induction cs generalizing bound with
  | nil => rfl
  | cons c rest ih =>
    rw [List.cons_append]
    by_cases old : c.name.tag ∈ bound
    · rw [firstReads_cons_of_mem old, firstReads_cons_of_mem old, ih]
    · rw [firstReads_cons_of_not_mem old, firstReads_cons_of_not_mem old, ih, List.cons_append]
      refine congrArg _ (congrArg _ (firstReads_congr fun d _ => ?_))
      simp only [captureTags, List.map_cons, List.mem_append, List.mem_cons]
      tauto

theorem firstReads_firstReads (bound bound' : List Tag) (cs : List Capture) :
    firstReads bound (firstReads bound' cs) = firstReads (bound' ++ bound) cs := by
  induction cs generalizing bound bound' with
  | nil => rfl
  | cons c rest ih =>
    by_cases own : c.name.tag ∈ bound'
    · rw [firstReads_cons_of_mem own, firstReads_cons_of_mem (List.mem_append_left _ own), ih]
    rw [firstReads_cons_of_not_mem own]
    by_cases known : c.name.tag ∈ bound
    · rw [firstReads_cons_of_mem known, firstReads_cons_of_mem (List.mem_append_right _ known), ih]
      refine firstReads_congr fun d _ => ?_
      rw [List.cons_append, List.mem_cons]
      exact or_iff_right_of_imp fun same => List.mem_append_right _ (same ▸ known)
    · rw [firstReads_cons_of_not_mem known, firstReads_cons_of_not_mem (by simp [own, known]), ih]
      refine congrArg _ (firstReads_congr fun d _ => ?_)
      simp only [List.cons_append, List.mem_cons, List.mem_append]
      tauto

/-- First readings in several pieces agree if they agree in every piece, whatever is left out
in addition. -/
theorem firstReads_flatMap {α : Type} {f f' : α → List Capture} {as : List α}
    (each : ∀ a ∈ as, ∀ more, bound ⊆ more → firstReads more (f a) = firstReads more (f' a)) :
    firstReads bound (as.flatMap f) = firstReads bound (as.flatMap f') := by
  induction as generalizing bound with
  | nil => rfl
  | cons a rest ih =>
    rw [List.forall_mem_cons] at each
    rw [List.flatMap_cons, List.flatMap_cons, firstReads_append, firstReads_append,
      each.1 bound (List.Subset.refl _)]
    exact congrArg _ (ih fun a member more within => each.2 a member more
      (List.Subset.trans (List.subset_append_right _ _) within))

end Firsts

section Scoped

variable {g : Globals} {env : Env} {e : Expr}

/-- An expression that follows the rules where it stands, and binds each variable under a tag
of its own, known neither inside it nor around it. -/
structure Expr.Settled (g : Globals) (env : Env) (e : Expr) : Prop where
  typed : e.WellTyped g env
  once : e.binders.Nodup
  apart : e.binders.Disjoint env.tags

theorem letScopes_settled {bs : List Let} {own : List Tag} (typed : Expr.LetsTyped g env bs)
    (once : (Expr.letBinders bs).Nodup) (apart : (Expr.letBinders bs).Disjoint env.tags)
    (outer : Env) (around : ∀ t, t ∈ env.tags ↔ t ∈ own ∨ t ∈ outer.tags) :
    ∀ s ∈ letScopes own bs, ∃ env', s.2.Settled g env' ∧ ∀ t, t ∈ env'.tags ↔ t ∈ s.1 ∨ t ∈ outer.tags := by
  induction bs generalizing env own with
  | nil => exact List.forall_mem_nil _
  | cons b rest ih =>
    obtain ⟨p, value⟩ := b
    obtain ⟨typedV, -, typedR⟩ := typed
    simp only [Expr.letBinders, List.nodup_append', List.disjoint_append_left,
      List.disjoint_append_right] at once apart
    refine List.forall_mem_cons.mpr ⟨⟨env, ⟨typedV, once.1, apart.1⟩, around⟩, ?_⟩
    refine ih typedR once.2.1.2.1 (fun t left right => ?_) fun t => ?_
    · exact (mem_tags_scope.mp right).elim (fun own => once.2.1.2.2 own left)
        fun outer => apart.2.2 left outer
    · rw [mem_tags_scope, around, List.mem_append]
      tauto

/-- The expressions right inside one that is settled are settled where they stand. -/
theorem Expr.Settled.scopes (settled : e.Settled g env) :
    ∀ s ∈ e.scopes, ∃ env', s.2.Settled g env' ∧ ∀ t, t ∈ env'.tags ↔ t ∈ s.1 ∨ t ∈ env.tags := by
  obtain ⟨typed, once, apart⟩ := settled
  have here {a : Expr} (typed : a.WellTyped g env) (once : a.binders.Nodup)
      (apart : a.binders.Disjoint env.tags) :
      ∃ env', a.Settled g env' ∧ ∀ t, t ∈ env'.tags ↔ t ∈ ([] : List Tag) ∨ t ∈ env.tags :=
    ⟨env, ⟨typed, once, apart⟩, by simp⟩
  cases e with
  | number | bool | var => exact List.forall_mem_nil _
  | callDirect span type function generics args =>
    obtain ⟨f, -, -, -, typed⟩ := typed
    simp only [binders, bindersAll_eq_flatMap] at once apart
    exact List.forall_mem_map.mpr fun a member => here (wellTyped_of_args typed a member)
      ((List.nodup_flatMap.mp once).1 a member)
      fun t own seen => apart (List.mem_flatMap.mpr ⟨a, member, own⟩) seen
  | callClosure span type callee args =>
    obtain ⟨typedC, params, -, typed⟩ := typed
    simp only [binders, bindersAll_eq_flatMap, List.nodup_append', List.disjoint_append_left]
      at once apart
    refine List.forall_mem_cons.mpr ⟨here typedC once.1 apart.1, ?_⟩
    exact List.forall_mem_map.mpr fun a member => here (wellTyped_of_args typed a member)
      ((List.nodup_flatMap.mp once.2.1).1 a member)
      fun t own seen => apart.2 (List.mem_flatMap.mpr ⟨a, member, own⟩) seen
  | operation span op left right =>
    simp only [binders, List.nodup_append', List.disjoint_append_left] at once apart
    exact List.forall_mem_cons.mpr ⟨here typed.1 once.1 apart.1,
      List.forall_mem_singleton.mpr (here typed.2.1 once.2.1 apart.2)⟩
  | record span name args fields =>
    obtain ⟨d, -, -, typed⟩ := typed
    simp only [binders, fieldBinders_eq_flatMap] at once apart
    exact List.forall_mem_map.mpr fun i member => here (wellTyped_of_fields typed i member)
      ((List.nodup_flatMap.mp once).1 i member)
      fun t own seen => apart (List.mem_flatMap.mpr ⟨i, member, own⟩) seen
  | block span lets result =>
    simp only [binders, List.nodup_append', List.disjoint_append_left] at once apart
    refine List.forall_mem_append.mpr ⟨letScopes_settled typed.1 once.1 apart.1 env (by simp),
      List.forall_mem_singleton.mpr ⟨_, ⟨typed.2, once.2.1, fun t left right => ?_⟩,
        fun t => mem_tags_letScope⟩⟩
    refine (mem_tags_letScope.mp right).elim (fun own => ?_) fun outer => apart.2 left outer
    obtain ⟨b, member, own⟩ := List.mem_flatMap.mp own
    refine once.2.2 ?_ left
    rw [letBinders_eq_flatMap]
    exact List.mem_flatMap.mpr ⟨b, member, List.mem_append_right _ own⟩
  | cond span test yes no =>
    simp only [binders, List.nodup_append', List.disjoint_append_left] at once apart
    exact List.forall_mem_cons.mpr ⟨here typed.1 once.1 apart.1,
      List.forall_mem_cons.mpr ⟨here typed.2.1 once.2.1.1 apart.2.1,
        List.forall_mem_singleton.mpr (here typed.2.2.1 once.2.1.2.1 apart.2.2)⟩⟩
  | closure span params captured body =>
    obtain ⟨-, typed, -⟩ := typed
    simp only [binders, List.nodup_append', List.disjoint_append_left] at once apart
    refine List.forall_mem_singleton.mpr ⟨_, ⟨typed, once.2.1, fun t left right => ?_⟩,
      fun t => mem_tags_paramScope⟩
    exact (mem_tags_paramScope.mp right).elim (fun own => once.2.2 own left)
      fun outer => apart.2 left outer

theorem letScopes_binders {bs : List Let} {own : List Tag} : ∀ s ∈ letScopes own bs,
    s.1 ⊆ own ++ Expr.letBinders bs ∧ s.2.binders ⊆ Expr.letBinders bs := by
  induction bs generalizing own with
  | nil => exact List.forall_mem_nil _
  | cons b rest ih =>
    obtain ⟨p, value⟩ := b
    rw [letScopes, Expr.letBinders]
    refine List.forall_mem_cons.mpr ⟨⟨List.subset_append_left _ _, List.subset_append_left _ _⟩, ?_⟩
    intro s member
    obtain ⟨before, inside⟩ := ih s member
    refine ⟨fun t known => ?_, fun t bound =>
      List.mem_append_right _ (List.mem_append_right _ (inside bound))⟩
    have known := before known
    simp only [List.mem_append] at known ⊢
    tauto

theorem Expr.scopes_binders (e : Expr) :
    ∀ s ∈ e.scopes, s.1 ⊆ e.binders ∧ s.2.binders ⊆ e.binders := by
  cases e with
  | number | bool | var => exact List.forall_mem_nil _
  | callDirect span type function generics args =>
    refine List.forall_mem_map.mpr fun a member => ⟨List.nil_subset _, fun t own => ?_⟩
    rw [binders, bindersAll_eq_flatMap]
    exact List.mem_flatMap.mpr ⟨a, member, own⟩
  | callClosure span type callee args =>
    refine List.forall_mem_cons.mpr ⟨⟨List.nil_subset _, List.subset_append_left _ _⟩, ?_⟩
    refine List.forall_mem_map.mpr fun a member => ⟨List.nil_subset _, fun t own => ?_⟩
    rw [binders, bindersAll_eq_flatMap]
    exact List.mem_append_right _ (List.mem_flatMap.mpr ⟨a, member, own⟩)
  | operation span op left right => simp [scopes, binders]
  | record span name args fields =>
    refine List.forall_mem_map.mpr fun i member => ⟨List.nil_subset _, fun t own => ?_⟩
    rw [binders, fieldBinders_eq_flatMap]
    exact List.mem_flatMap.mpr ⟨i, member, own⟩
  | block span lets result =>
    refine List.forall_mem_append.mpr ⟨fun s member => ?_, List.forall_mem_singleton.mpr
      ⟨fun t own => ?_, List.subset_append_right _ _⟩⟩
    · exact ⟨List.Subset.trans (letScopes_binders s member).1 (List.subset_append_left _ _),
        List.Subset.trans (letScopes_binders s member).2 (List.subset_append_left _ _)⟩
    · obtain ⟨b, member, own⟩ := List.mem_flatMap.mp own
      rw [binders, letBinders_eq_flatMap]
      exact List.mem_append_left _ (List.mem_flatMap.mpr ⟨b, member, List.mem_append_right _ own⟩)
  | cond span test yes no => simp [scopes, binders]
  | closure span params captured body =>
    exact List.forall_mem_singleton.mpr ⟨List.subset_append_left _ _, List.subset_append_right _ _⟩

/-- All that is read at any depth is known around an expression, or bound in it. -/
theorem Expr.Settled.deepReads_known (settled : e.Settled g env) :
    ∀ c ∈ e.deepReads, c.name.tag ∈ env.tags ∨ c.name.tag ∈ e.binders := by
  induction e using Expr.induct_scopes generalizing env with
  | node e ih =>
    by_cases leaf : ∃ span name t, e = .var span name t
    · obtain ⟨span, name, t, rfl⟩ := leaf
      exact List.forall_mem_singleton.mpr (Or.inl (mem_tags_of_lookup settled.typed))
    push Not at leaf
    rw [deepReads_eq leaf, List.forall_mem_flatMap]
    intro s member c read
    obtain ⟨env', inner, around⟩ := settled.scopes s member
    obtain ⟨own, below⟩ := e.scopes_binders s member
    rcases ih s member inner c read with known | bound
    · exact ((around _).mp known).elim (fun here => Or.inr (own here)) Or.inl
    · exact Or.inr (below bound)

/-- What is free by lexical scope is what is read and not bound anywhere inside: a variable
that is read in a part of an expression is not bound in another part. -/
theorem Expr.Settled.free_eq_outside (settled : e.Settled g env) (bound : List Tag) :
    e.free bound = outside (bound ++ e.binders) e.deepReads := by
  induction e using Expr.induct_scopes generalizing env bound with
  | node e ih =>
    by_cases leaf : ∃ span name t, e = .var span name t
    · obtain ⟨span, name, t, rfl⟩ := leaf
      by_cases known : name.tag ∈ bound <;> simp [free, deepReads, outside, binders, known]
    push Not at leaf
    rw [free_eq bound leaf, deepReads_eq leaf, outside_flatMap]
    refine List.flatMap_congr fun s member => ?_
    obtain ⟨env', inner, around⟩ := settled.scopes s member
    obtain ⟨own, below⟩ := e.scopes_binders s member
    rw [ih s member inner]
    refine outside_congr fun c read => ?_
    simp only [List.mem_append, or_assoc]
    refine or_congr Iff.rfl ⟨fun here => here.elim (own ·) (below ·), fun here => ?_⟩
    rcases inner.deepReads_known c read with known | bound
    · exact ((around _).mp known).imp id fun outer => absurd outer (settled.apart here)
    · exact Or.inr bound

/-- To enter nested closures instead of reading what they capture finds the same variables
first, where nothing that is bound inside counts. -/
theorem Expr.Settled.firstReads_reads (settled : e.Settled g env) {bound : List Tag}
    (within : e.binders ⊆ bound) : firstReads bound e.reads = firstReads bound e.deepReads := by
  induction e using Expr.induct_scopes generalizing env bound with
  | node e ih =>
    have inner (s) (member : s ∈ e.scopes) (more : List Tag) (wider : bound ⊆ more) :
        firstReads more s.2.reads = firstReads more s.2.deepReads := by
      obtain ⟨env', inner, -⟩ := settled.scopes s member
      exact ih s member inner (List.Subset.trans (List.Subset.trans (e.scopes_binders s member).2 within) wider)
    by_cases leaf : ∃ span name t, e = .var span name t
    · obtain ⟨span, name, t, rfl⟩ := leaf
      rfl
    by_cases nested : ∃ span params captured body, e = .closure span params captured body
    · obtain ⟨span, params, captured, body, rfl⟩ := nested
      obtain ⟨-, -, rfl⟩ := settled.typed
      rw [reads, deepReads, captures, firstReads_firstReads,
        ← inner (paramTags params, body) (List.mem_singleton.mpr rfl) bound (List.Subset.refl _)]
      refine firstReads_congr fun c _ => ?_
      rw [List.mem_append, List.map_append, List.mem_append, List.map_flatMap]
      refine or_iff_right_of_imp fun own => within (List.mem_append.mpr ?_)
      exact own.imp id (body.bound_subset_binders ·)
    push Not at leaf nested
    rw [reads_eq leaf nested, deepReads_eq leaf]
    exact firstReads_flatMap inner

/-- All expressions inside a settled one are settled where they stand. -/
theorem Expr.Settled.parts (settled : e.Settled g env) : ∀ a ∈ e.parts, ∃ env', a.Settled g env' := by
  induction e using Expr.induct_scopes generalizing env with
  | node e ih =>
    rw [parts_eq, List.forall_mem_cons, List.forall_mem_flatMap]
    refine ⟨⟨env, settled⟩, fun s member => ?_⟩
    obtain ⟨env', inner, -⟩ := settled.scopes s member
    exact ih s member inner

variable {span : Span} {params : List Param} {captured : List Capture} {body : Expr}

/-- What a closure captures is what its body reads, at any depth, and the closure does not
bind, at any depth, each variable where it is read first. -/
theorem Expr.Settled.captured_eq (settled : (Expr.closure span params captured body).Settled g env) :
    captured = firstReads (paramTags params ++ body.binders) body.deepReads := by
  obtain ⟨env', inner, around⟩ := settled.scopes _ (List.mem_singleton.mpr rfl)
  obtain ⟨-, typed, rfl⟩ := settled.typed
  rw [← inner.firstReads_reads (List.subset_append_right _ _), captures]
  refine firstReads_congr fun c read => ?_
  rw [List.map_append, List.mem_append, List.mem_append, List.map_flatMap]
  refine or_congr Iff.rfl ⟨(body.bound_subset_binders ·), fun bound => ?_⟩
  refine (body.reads_known typed c read).resolve_left fun known => inner.apart bound ?_
  exact (around _).mpr (mem_tags_paramScope.mp (mem_tags_of_lookup known))

end Scoped

/-- The body of a function of a program that follows the rules is settled. -/
theorem Program.WellTyped.settled {p : Program} (typed : p.WellTyped) {f : Function}
    (member : f ∈ p.functions) : f.body.Settled p.globals (paramScope f.params []) := by
  have once : f.binders.Nodup :=
    (List.nodup_flatMap.mp (List.nodup_append'.mp typed.once).2.1).1 f member
  rw [Function.binders, List.nodup_append', List.nodup_append'] at once
  refine ⟨(typed.functions f member).body, once.2.1.2.1, fun t inside known => ?_⟩
  exact (mem_tags_paramScope.mp known).elim (fun own => once.2.1.2.2 own inside) (by simp [Env.tags])

/-- Captures are right: every closure of an accepted file, at any depth, captures the
variables that are free in it by lexical scope, each once and in the order in which they are
first read. Those are the variables that the body reads, nested closures entered, but for the
parameters and what is bound in the body or in closures nested there. -/
theorem accepted_captures {file : Surface.File} {names : List String} {unit : Nat}
    {p : Resolved.Program} {table : SymbolTable} {p' : Program} (own : unit ≠ Tag.builtinUnit)
    (resolved : Resolved.resolve file (names.foldl SymbolTable.intern .start) unit = (.ok p, table))
    (accepted : check p = .ok p') {f : Function} (function : f ∈ p'.functions)
    {span : Span} {params : List Param} {captured : List Capture} {body : Expr}
    (inside : .closure span params captured body ∈ f.body.parts) :
    captured = firstOfEach (body.free (paramTags params)) ∧ (captureTags captured).Nodup ∧
      ∀ tag, tag ∈ captureTags captured ↔
        tag ∈ captureTags body.deepReads ∧ tag ∉ paramTags params ∧ tag ∉ body.binders := by
  obtain ⟨declared, rfl⟩ := Resolved.resolve_scoped own resolved
  obtain ⟨typed, -⟩ := check_sound declared own accepted
  obtain ⟨env, settled⟩ := (typed.settled function).parts _ inside
  obtain ⟨env', inner, -⟩ := settled.scopes _ (List.mem_singleton.mpr rfl)
  rw [settled.captured_eq]
  refine ⟨?_, nodup_captureTags _ _, fun tag => ⟨fun first => ?_, ?_⟩⟩
  · rw [firstReads_eq, inner.free_eq_outside]
  · obtain ⟨c, listed, rfl⟩ := List.mem_map.mp first
    obtain ⟨read, free⟩ := mem_of_firstReads listed
    rw [List.mem_append, not_or] at free
    exact ⟨List.mem_map_of_mem read, free⟩
  · rintro ⟨read, unbound, free⟩
    obtain ⟨c, listed, rfl⟩ := List.mem_map.mp read
    exact mem_captureTags listed (by simp [unbound, free])

/-- A file with a closure in a closure: the outer one binds an `n` of its own for the inner
one, which reads the `m` from around both. -/
def nestFile : Surface.File :=
  let float : Surface.TypeExpr := .named {} "F64"
  let sum (x y : Surface.Expr) : Surface.Expr := .operation {} .add x y
  ⟨{}, [.func ⟨{}, "nest", {}, [], [⟨{}, .var {} "n", float⟩, ⟨{}, .var {} "m", float⟩], float,
    .block {}
      [⟨{}, .var {} "f", .closure {} [⟨{}, .var {} "x", float⟩]
        (.block {}
          [⟨{}, .var {} "n", sum (.var {} "x") (.number {} "1" 0)⟩,
            ⟨{}, .var {} "g", .closure {} [⟨{}, .var {} "y", float⟩]
              (sum (.var {} "n") (sum (.var {} "y") (.var {} "m")))⟩]
          (.call {} (.var {} "g") [.var {} "x"]))⟩]
      (.call {} (.var {} "f") [.var {} "n"])⟩]⟩

/-- Whether an expression is a closure that captures variables of the given names. -/
def Expr.capturesNamed (names : List String) : Expr → Bool
  | .closure _ _ captured _ => captured.map (·.name.name) == names
  | _ => false

theorem resolved_of_accepted? {file : Surface.File} {unit : Nat} {p' : Program}
    (taken : accepted? file unit = some p') :
    ∃ p table, Resolved.resolve file .start unit = (.ok p, table) ∧ check p = .ok p' := by
  rw [accepted?] at taken
  split at taken
  · rename_i p table resolved
    refine ⟨p, table, resolved, ?_⟩
    cases run : check p with
    | ok q => rw [run] at taken; rw [Option.some.inj taken]
    | error e => rw [run] at taken; cases taken
  · cases taken

theorem nestFile_captures : ∃ p f span params captured body, accepted? nestFile 1 = some p ∧
    f ∈ p.functions ∧ .closure span params captured body ∈ f.body.parts ∧
    captured.map (·.name.name) = ["n", "m"] ∧
    captured = firstOfEach (body.free (paramTags params)) := by
  have taken : (accepted? nestFile 1).any (fun p => p.functions.any fun f =>
      f.body.parts.any (·.capturesNamed ["n", "m"])) = true := by decide +kernel
  obtain ⟨p', same, taken⟩ := (Option.any_eq_true _ _).mp taken
  simp only [List.any_eq_true] at taken
  obtain ⟨f, function, e, inside, named⟩ := taken
  obtain ⟨p, table, resolved, accepted⟩ := resolved_of_accepted? same
  rw [Expr.capturesNamed.eq_def] at named
  split at named
  · have right := @accepted_captures _ [] _ _ _ _ (by decide) resolved accepted _ function _ _ _ _ inside
    exact ⟨p', f, _, _, _, _, same, function, inside, eq_of_beq named, right.1⟩
  · cases named

end WitnessLang.Typed
