import WitnessLang.Proofs.Typed.Program

set_option autoImplicit false

namespace WitnessLang.Typed

def captureTags (cs : List Capture) : List Tag := cs.map (·.name.tag)

def captureEnv (cs : List Capture) : Env := cs.map fun c => (c.name.tag, c.type)

def paramTags (ps : List Param) : List Tag := ps.flatMap fun p => p.pattern.names.map (·.tag)

section Environments

def Env.tags (env : Env) : List Tag := env.map (·.1)

theorem mem_tags_of_lookup {env : Env} {tag : Tag} {t : Ty} (found : env.lookup tag = some t) :
    tag ∈ env.tags := by
  obtain ⟨before, behind, split, -⟩ := List.lookup_eq_some_iff.mp found
  simp [Env.tags, split]

theorem mem_tags_scope {p : Pattern} {env : Env} {tag : Tag} :
    tag ∈ (p.scope env).tags ↔ tag ∈ p.names.map (·.tag) ∨ tag ∈ env.tags := by
  obtain ⟨own, tags, -, added⟩ := p.exists_scope
  rw [added, Env.tags, List.map_append, tags, List.mem_append, List.mem_reverse]
  rfl

theorem mem_tags_paramScope {ps : List Param} {env : Env} {tag : Tag} :
    tag ∈ (paramScope ps env).tags ↔ tag ∈ paramTags ps ∨ tag ∈ env.tags := by
  induction ps generalizing env with
  | nil => simp [paramScope, paramTags]
  | cons p rest ih =>
    rw [paramScope, ih, mem_tags_scope, paramTags, paramTags, List.flatMap_cons, List.mem_append]
    tauto

theorem mem_tags_letScope {bs : List Let} {env : Env} {tag : Tag} :
    tag ∈ (letScope bs env).tags ↔
      tag ∈ bs.flatMap (fun b => b.pattern.names.map (·.tag)) ∨ tag ∈ env.tags := by
  induction bs generalizing env with
  | nil => simp [letScope]
  | cons b rest ih =>
    obtain ⟨p, value⟩ := b
    rw [letScope, ih, mem_tags_scope, List.flatMap_cons, List.mem_append]
    tauto

theorem Pattern.scope_mono (p : Pattern) {env env' : Env} (more : env ⊆ env') :
    p.scope env ⊆ p.scope env' := by
  obtain ⟨own, -, -, added⟩ := p.exists_scope
  rw [added, added]
  exact List.append_subset.mpr ⟨List.subset_append_left _ _, fun e member =>
    List.mem_append_right _ (more member)⟩

theorem Pattern.fieldScope_mono (fs : List FieldPattern) {env env' : Env} (more : env ⊆ env') :
    fieldScope fs env ⊆ fieldScope fs env' := by
  induction fs generalizing env env' with
  | nil => exact more
  | cons f rest ih =>
    cases f
    exact ih (scope_mono _ more)

theorem paramScope_mono (ps : List Param) {env env' : Env} (more : env ⊆ env') :
    paramScope ps env ⊆ paramScope ps env' := by
  induction ps generalizing env env' with
  | nil => exact more
  | cons p rest ih => exact ih (p.pattern.scope_mono more)

theorem lookup_scope_of_not_mem {p : Pattern} {env : Env} {tag : Tag}
    (other : tag ∉ p.names.map (·.tag)) : (p.scope env).lookup tag = env.lookup tag := by
  obtain ⟨own, tags, -, added⟩ := p.exists_scope
  have absent : own.lookup tag = none := by
    rw [List.lookup_eq_none_iff]
    intro e member
    have inside : e.1 ∈ own.map (·.1) := List.mem_map_of_mem member
    rw [tags, List.mem_reverse] at inside
    simpa using fun same : tag = e.1 => other (same ▸ inside)
  rw [added, List.lookup_append, absent, Option.none_or]

/-- What a pattern binds does not depend on what is around. -/
theorem lookup_scope_congr {p : Pattern} {env env' : Env} {tag : Tag}
    (same : tag ∉ p.names.map (·.tag) → env.lookup tag = env'.lookup tag) :
    (p.scope env).lookup tag = (p.scope env').lookup tag := by
  by_cases own : tag ∈ p.names.map (·.tag)
  · obtain ⟨bound, tags, -, added⟩ := p.exists_scope
    rw [← List.mem_reverse, ← tags] at own
    obtain ⟨e, member, rfl⟩ := List.mem_map.mp own
    obtain ⟨t, found⟩ : ∃ t, bound.lookup e.1 = some t := by
      rw [← Option.isSome_iff_exists, List.lookup_isSome_iff]
      exact ⟨e, member, beq_self_eq_true _⟩
    rw [added, added, List.lookup_append, List.lookup_append, found, Option.some_or, Option.some_or]
  · rw [lookup_scope_of_not_mem own, lookup_scope_of_not_mem own, same own]

theorem lookup_paramScope_congr {ps : List Param} {env env' : Env} {tag : Tag}
    (same : tag ∉ paramTags ps → env.lookup tag = env'.lookup tag) :
    (paramScope ps env).lookup tag = (paramScope ps env').lookup tag := by
  induction ps generalizing env env' with
  | nil => exact same (by simp [paramTags])
  | cons p rest ih =>
    refine ih fun other => lookup_scope_congr fun own => same ?_
    simpa [paramTags, own] using other

theorem lookup_paramScope_of_not_mem {ps : List Param} {env : Env} {tag : Tag}
    (other : tag ∉ paramTags ps) : (paramScope ps env).lookup tag = env.lookup tag := by
  induction ps generalizing env with
  | nil => rfl
  | cons p rest ih =>
    rw [paramTags, List.flatMap_cons, List.mem_append, not_or] at other
    rw [paramScope, ih other.2, lookup_scope_of_not_mem other.1]

theorem lookup_letScope_congr {bs : List Let} {env env' : Env} {tag : Tag}
    (same : tag ∉ bs.flatMap (fun b => b.pattern.names.map (·.tag)) →
      env.lookup tag = env'.lookup tag) :
    (letScope bs env).lookup tag = (letScope bs env').lookup tag := by
  induction bs generalizing env env' with
  | nil => exact same (by simp)
  | cons b rest ih =>
    obtain ⟨p, value⟩ := b
    refine ih fun other => lookup_scope_congr fun own => same ?_
    rw [List.flatMap_cons, List.mem_append, not_or]
    exact ⟨own, other⟩

theorem lookup_letScope_of_not_mem {bs : List Let} {env : Env} {tag : Tag}
    (other : tag ∉ bs.flatMap fun b => b.pattern.names.map (·.tag)) :
    (letScope bs env).lookup tag = env.lookup tag := by
  induction bs generalizing env with
  | nil => rfl
  | cons b rest ih =>
    obtain ⟨p, value⟩ := b
    rw [List.flatMap_cons, List.mem_append, not_or] at other
    rw [letScope, ih other.2, lookup_scope_of_not_mem other.1]

end Environments

section Lists

variable {g : Globals} {env : Env}

theorem Pattern.Fits.type {p : Pattern} {t : Ty} (fits : p.Fits g t) : p.type = t := by
  cases p with
  | var span name type => exact fits
  | record span name type fields =>
    rw [Pattern.Fits] at fits
    exact fits.1

theorem wellTyped_of_args {es : List Expr} {ts : List Ty} (typed : Expr.ArgsTyped g env es ts) :
    ∀ e ∈ es, e.WellTyped g env := by
  induction es generalizing ts with
  | nil => simp
  | cons e rest ih =>
    cases ts with
    | nil => exact absurd typed (by simp [Expr.ArgsTyped])
    | cons t ts => exact List.forall_mem_cons.mpr ⟨typed.1, ih typed.2.2⟩

theorem wellTyped_of_fields {sub : Substitution} {is : List FieldInit} {fs : List Field}
    (typed : Expr.FieldsTyped g env sub is fs) : ∀ i ∈ is, i.value.WellTyped g env := by
  induction is generalizing fs with
  | nil => simp
  | cons i rest ih =>
    obtain ⟨name, value⟩ := i
    cases fs with
    | nil => exact absurd typed (by simp [Expr.FieldsTyped])
    | cons f fs => exact List.forall_mem_cons.mpr ⟨typed.2.1, ih typed.2.2.2⟩

theorem argsTyped_imp {env' : Env} {es : List Expr} {ts : List Ty}
    (typed : Expr.ArgsTyped g env es ts)
    (each : ∀ e ∈ es, e.WellTyped g env → e.WellTyped g env') : Expr.ArgsTyped g env' es ts := by
  induction es generalizing ts with
  | nil => exact typed
  | cons e rest ih =>
    cases ts with
    | nil => exact absurd typed (by simp [Expr.ArgsTyped])
    | cons t ts =>
      rw [List.forall_mem_cons] at each
      exact ⟨each.1 typed.1, typed.2.1, ih typed.2.2 each.2⟩

theorem fieldsTyped_imp {env' : Env} {sub : Substitution} {is : List FieldInit} {fs : List Field}
    (typed : Expr.FieldsTyped g env sub is fs)
    (each : ∀ i ∈ is, i.value.WellTyped g env → i.value.WellTyped g env') :
    Expr.FieldsTyped g env' sub is fs := by
  induction is generalizing fs with
  | nil => exact typed
  | cons i rest ih =>
    obtain ⟨name, value⟩ := i
    cases fs with
    | nil => exact absurd typed (by simp [Expr.FieldsTyped])
    | cons f fs =>
      rw [List.forall_mem_cons] at each
      exact ⟨typed.1, each.1 typed.2.1, typed.2.2.1, ih typed.2.2.2 each.2⟩

end Lists

/-- What a block binds is among all that an expression binds. -/
theorem Expr.bound_subset_binders (e : Expr) : e.bound.map (·.tag) ⊆ e.binders := by
  induction e with
  | number | bool | var | closure => simp [bound]
  | callDirect span type function generics args ih =>
    intro t
    simp only [bound, binders, boundAll_eq_flatMap, bindersAll_eq_flatMap, List.map_flatMap,
      List.mem_flatMap]
    rintro ⟨a, member, inside⟩
    exact ⟨a, member, ih a member inside⟩
  | callClosure span type callee args ihCallee ih =>
    intro t
    simp only [bound, binders, boundAll_eq_flatMap, bindersAll_eq_flatMap, List.map_append,
      List.map_flatMap, List.mem_append, List.mem_flatMap]
    rintro (inside | ⟨a, member, inside⟩)
    · exact Or.inl (ihCallee inside)
    · exact Or.inr ⟨a, member, ih a member inside⟩
  | operation span op left right ihLeft ihRight =>
    intro t
    simp only [bound, binders, List.map_append, List.mem_append]
    exact Or.imp (fun inside => ihLeft inside) fun inside => ihRight inside
  | record span name args fields ih =>
    intro t
    simp only [bound, binders, fieldBound_eq_flatMap, fieldBinders_eq_flatMap, List.map_flatMap,
      List.mem_flatMap]
    rintro ⟨i, member, inside⟩
    exact ⟨i, member, ih i member inside⟩
  | block span lets result ih ihResult =>
    intro t
    simp only [bound, binders, letBound_eq_flatMap, letBinders_eq_flatMap, List.map_append,
      List.map_flatMap, List.mem_append, List.mem_flatMap]
    rintro (⟨b, member, inside⟩ | inside)
    · exact Or.inl ⟨b, member, inside.elim Or.inr fun inside => Or.inl (ih b member inside)⟩
    · exact Or.inr (ihResult inside)
  | cond span test yes no ihTest ihYes ihNo =>
    intro t
    simp only [bound, binders, List.map_append, List.mem_append]
    rintro ((inside | inside) | inside)
    · exact Or.inl (ihTest inside)
    · exact Or.inr (Or.inl (ihYes inside))
    · exact Or.inr (Or.inr (ihNo inside))

/-- Every variable that is read and not bound inside is captured. -/
theorem mem_captureTags {bound : List Tag} {reads : List Capture} {c : Capture} (read : c ∈ reads)
    (free : c.name.tag ∉ bound) : c.name.tag ∈ captureTags (firstReads bound reads) := by
  induction reads generalizing bound with
  | nil => simp at read
  | cons d rest ih =>
    rw [firstReads]
    split
    · rename_i old
      rcases List.mem_cons.mp read with rfl | later
      · exact absurd (by simpa using old) free
      · exact ih later free
    · rcases List.mem_cons.mp read with rfl | later
      · simp [captureTags]
      · by_cases same : c.name.tag = d.name.tag
        · simp [captureTags, same]
        · refine List.mem_cons_of_mem _ (ih later ?_)
          simpa [same] using free

/-- What a closure captures, each variable once. -/
theorem nodup_captureTags (bound : List Tag) (reads : List Capture) :
    (captureTags (firstReads bound reads)).Nodup := by
  induction reads generalizing bound with
  | nil => simp [firstReads, captureTags]
  | cons c rest ih =>
    rw [firstReads]
    split
    · exact ih bound
    · refine List.nodup_cons.mpr ⟨fun again => ?_, ih _⟩
      obtain ⟨d, later, same⟩ := List.mem_map.mp again
      exact (mem_of_firstReads later).2 (same ▸ List.mem_cons_self)

theorem lookup_captureEnv {cs : List Capture} (once : (captureTags cs).Nodup) {c : Capture}
    (member : c ∈ cs) : (captureEnv cs).lookup c.name.tag = some c.type := by
  refine lookup_of_nodup ?_ (List.mem_map_of_mem member)
  rw [captureEnv, List.map_map]
  exact once

theorem mem_captures {params : List Param} {body : Expr} {c : Capture} (read : c ∈ body.reads)
    (unbound : c.name.tag ∉ paramTags params) (free : c.name.tag ∉ body.bound.map (·.tag)) :
    c.name.tag ∈ captureTags (captures params body) := by
  refine mem_captureTags read ?_
  rw [List.map_append, List.mem_append, not_or, List.map_flatMap]
  exact ⟨unbound, free⟩

section Reads

variable {g : Globals}

/-- Bindings, one after the other, read what is in scope or bound before. -/
theorem letReads_known {bs : List Let} {env : Env} (typed : Expr.LetsTyped g env bs)
    (each : ∀ b ∈ bs, ∀ env, b.value.WellTyped g env → ∀ c ∈ b.value.reads,
      env.lookup c.name.tag = some c.type ∨ c.name.tag ∈ b.value.bound.map (·.tag)) :
    ∀ b ∈ bs, ∀ c ∈ b.value.reads,
      env.lookup c.name.tag = some c.type ∨ c.name.tag ∈ (Expr.letBound bs).map (·.tag) := by
  induction bs generalizing env with
  | nil => simp
  | cons b rest ih =>
    obtain ⟨p, value⟩ := b
    obtain ⟨typedV, -, typedR⟩ := typed
    rw [List.forall_mem_cons] at each
    simp only [Expr.letBound, List.map_append, List.mem_append]
    refine List.forall_mem_cons.mpr ⟨fun c read => ?_, fun b member c read => ?_⟩
    · exact (each.1 env typedV c read).imp id fun own => Or.inl (Or.inr own)
    · rcases ih typedR each.2 b member c read with known | bound
      · by_cases own : c.name.tag ∈ p.names.map (·.tag)
        · exact Or.inr (Or.inl (Or.inl own))
        · exact Or.inl (lookup_scope_of_not_mem own ▸ known)
      · exact Or.inr (Or.inr bound)

/-- What an expression reads is in scope at that type, or bound by a block inside it. -/
theorem Expr.reads_known {e : Expr} {env : Env} (typed : e.WellTyped g env) :
    ∀ c ∈ e.reads,
      env.lookup c.name.tag = some c.type ∨ c.name.tag ∈ e.bound.map (·.tag) := by
  induction e generalizing env with
  | number | bool => simp [reads]
  | var span name type =>
    intro c read
    simp only [reads, List.mem_singleton] at read
    exact Or.inl (read ▸ typed)
  | callDirect span type function generics args ih =>
    obtain ⟨f, -, -, -, typed⟩ := typed
    intro c
    simp only [reads, bound, readsAll_eq_flatMap, boundAll_eq_flatMap, List.map_flatMap,
      List.mem_flatMap]
    rintro ⟨a, member, read⟩
    exact (ih a member (wellTyped_of_args typed a member) c read).imp id fun own => ⟨a, member, own⟩
  | callClosure span type callee args ihCallee ih =>
    obtain ⟨typedC, params, -, typed⟩ := typed
    intro c
    simp only [reads, bound, readsAll_eq_flatMap, boundAll_eq_flatMap, List.map_append,
      List.map_flatMap, List.mem_append, List.mem_flatMap]
    rintro (read | ⟨a, member, read⟩)
    · exact (ihCallee typedC c read).imp id Or.inl
    · exact (ih a member (wellTyped_of_args typed a member) c read).imp id fun own =>
        Or.inr ⟨a, member, own⟩
  | operation span op left right ihLeft ihRight =>
    intro c
    simp only [reads, bound, List.map_append, List.mem_append]
    rintro (read | read)
    · exact (ihLeft typed.1 c read).imp id Or.inl
    · exact (ihRight typed.2.1 c read).imp id Or.inr
  | record span name args fields ih =>
    obtain ⟨d, -, -, typed⟩ := typed
    intro c
    simp only [reads, bound, fieldReads_eq_flatMap, fieldBound_eq_flatMap, List.map_flatMap,
      List.mem_flatMap]
    rintro ⟨i, member, read⟩
    exact (ih i member (wellTyped_of_fields typed i member) c read).imp id fun own =>
      ⟨i, member, own⟩
  | block span lets result ih ihResult =>
    intro c
    simp only [reads, bound, letReads_eq_flatMap, List.map_append, List.mem_append,
      List.mem_flatMap]
    rintro (⟨b, member, read⟩ | read)
    · exact (letReads_known typed.1 (fun b member env typed => ih b member typed) b member c read).imp
        id Or.inl
    · rcases ihResult typed.2 c read with known | own
      · by_cases bound : c.name.tag ∈ lets.flatMap fun b => b.pattern.names.map (·.tag)
        · obtain ⟨b, member, own⟩ := List.mem_flatMap.mp bound
          refine Or.inr (Or.inl ?_)
          simp only [letBound_eq_flatMap, List.map_flatMap, List.map_append, List.mem_flatMap,
            List.mem_append]
          exact ⟨b, member, Or.inl own⟩
        · exact Or.inl (lookup_letScope_of_not_mem bound ▸ known)
      · exact Or.inr (Or.inr own)
  | cond span test yes no ihTest ihYes ihNo =>
    intro c
    simp only [reads, bound, List.map_append, List.mem_append]
    rintro ((read | read) | read)
    · exact (ihTest typed.1 c read).imp id fun own => Or.inl (Or.inl own)
    · exact (ihYes typed.2.1 c read).imp id fun own => Or.inl (Or.inr own)
    · exact (ihNo typed.2.2.1 c read).imp id Or.inr
  | closure span params captured body ih =>
    obtain ⟨-, typed, rfl⟩ := typed
    intro c read
    obtain ⟨inside, free⟩ := mem_of_firstReads read
    rw [List.map_append, List.mem_append, not_or] at free
    rcases ih typed c inside with known | own
    · refine Or.inl ?_
      rwa [lookup_paramScope_of_not_mem] at known
      rw [paramTags, ← List.map_flatMap]
      exact free.1
    · exact absurd own free.2

/-- Bindings follow the rules wherever they find what they read. -/
theorem letsTyped_restrict {bs : List Let} {env env' : Env} (typed : Expr.LetsTyped g env bs)
    (once : (Expr.letBinders bs).Nodup) (apart : (Expr.letBinders bs).Disjoint env.tags)
    (each : ∀ b ∈ bs, ∀ env env' : Env, b.value.WellTyped g env → b.value.binders.Nodup →
      b.value.binders.Disjoint env.tags → (∀ c ∈ b.value.reads, c.name.tag ∈ env.tags →
        env.lookup c.name.tag = env'.lookup c.name.tag) → b.value.WellTyped g env')
    (agree : ∀ b ∈ bs, ∀ c ∈ b.value.reads, c.name.tag ∈ env.tags →
      env.lookup c.name.tag = env'.lookup c.name.tag) : Expr.LetsTyped g env' bs := by
  induction bs generalizing env env' with
  | nil => trivial
  | cons b rest ih =>
    obtain ⟨p, value⟩ := b
    obtain ⟨typedV, fits, typedR⟩ := typed
    rw [List.forall_mem_cons] at each agree
    rw [Expr.letBinders] at once apart
    simp only [List.nodup_append', List.disjoint_append_left, List.disjoint_append_right] at once apart
    refine ⟨each.1 env env' typedV once.1 apart.1 agree.1, fits, ?_⟩
    refine ih typedR once.2.1.2.1 (fun t left right => ?_) each.2 fun b member c read seen => ?_
    · exact (mem_tags_scope.mp right).elim (fun own => once.2.1.2.2 own left)
        fun outer => apart.2.2 left outer
    · refine lookup_scope_congr fun other => agree.2 b member c read ?_
      exact (mem_tags_scope.mp seen).resolve_left other

/-- An expression follows the rules wherever it finds what it reads from around. -/
theorem Expr.WellTyped.restrict {e : Expr} {env env' : Env} (typed : e.WellTyped g env)
    (once : e.binders.Nodup) (apart : e.binders.Disjoint env.tags)
    (agree : ∀ c ∈ e.reads, c.name.tag ∈ env.tags →
      env.lookup c.name.tag = env'.lookup c.name.tag) : e.WellTyped g env' := by
  induction e generalizing env env' with
  | number | bool => trivial
  | var span name type =>
    have same := agree ⟨name, type⟩ (by simp [reads]) (mem_tags_of_lookup typed)
    exact same.symm.trans typed
  | callDirect span type function generics args ih =>
    obtain ⟨f, found, length, same, typed⟩ := typed
    simp only [binders, bindersAll_eq_flatMap] at once apart
    simp only [reads, readsAll_eq_flatMap, List.mem_flatMap] at agree
    refine ⟨f, found, length, same, argsTyped_imp typed fun a member typed => ih a member typed
      ((List.nodup_flatMap.mp once).1 a member) (fun t own seen => ?_) fun c read =>
        agree c ⟨a, member, read⟩⟩
    exact apart (List.mem_flatMap.mpr ⟨a, member, own⟩) seen
  | callClosure span type callee args ihCallee ih =>
    obtain ⟨typedC, params, alike, typed⟩ := typed
    simp only [binders, bindersAll_eq_flatMap, List.nodup_append', List.disjoint_append_left]
      at once apart
    simp only [reads, readsAll_eq_flatMap, List.mem_append, List.mem_flatMap] at agree
    refine ⟨ihCallee typedC once.1 apart.1 fun c read => agree c (Or.inl read), params, alike,
      argsTyped_imp typed fun a member typed => ih a member typed
      ((List.nodup_flatMap.mp once.2.1).1 a member) (fun t own seen => ?_) fun c read =>
        agree c (Or.inr ⟨a, member, read⟩)⟩
    exact apart.2 (List.mem_flatMap.mpr ⟨a, member, own⟩) seen
  | operation span op left right ihLeft ihRight =>
    simp only [binders, List.nodup_append', List.disjoint_append_left] at once apart
    simp only [reads, List.mem_append] at agree
    exact ⟨ihLeft typed.1 once.1 apart.1 fun c read => agree c (Or.inl read),
      ihRight typed.2.1 once.2.1 apart.2 fun c read => agree c (Or.inr read), typed.2.2⟩
  | record span name args fields ih =>
    obtain ⟨d, found, length, typed⟩ := typed
    simp only [binders, fieldBinders_eq_flatMap] at once apart
    simp only [reads, fieldReads_eq_flatMap, List.mem_flatMap] at agree
    refine ⟨d, found, length, fieldsTyped_imp typed fun i member typed => ih i member typed
      ((List.nodup_flatMap.mp once).1 i member) (fun t own seen => ?_) fun c read =>
        agree c ⟨i, member, read⟩⟩
    exact apart (List.mem_flatMap.mpr ⟨i, member, own⟩) seen
  | block span lets result ih ihResult =>
    simp only [binders, List.nodup_append', List.disjoint_append_left] at once apart
    simp only [reads, letReads_eq_flatMap, List.mem_append, List.mem_flatMap] at agree
    refine ⟨letsTyped_restrict typed.1 once.1 apart.1 (fun b member env env' => ih b member)
      fun b member c read => agree c (Or.inl ⟨b, member, read⟩), ?_⟩
    refine ihResult typed.2 once.2.1 (fun t left right => ?_) fun c read seen => ?_
    · refine (mem_tags_letScope.mp right).elim (fun own => ?_) fun outer => apart.2 left outer
      obtain ⟨b, member, own⟩ := List.mem_flatMap.mp own
      refine once.2.2 ?_ left
      rw [letBinders_eq_flatMap]
      exact List.mem_flatMap.mpr ⟨b, member, List.mem_append_right _ own⟩
    · exact lookup_letScope_congr fun other =>
        agree c (Or.inr read) ((mem_tags_letScope.mp seen).resolve_left other)
  | cond span test yes no ihTest ihYes ihNo =>
    simp only [binders, List.nodup_append', List.disjoint_append_left] at once apart
    simp only [reads, List.mem_append] at agree
    exact ⟨ihTest typed.1 once.1 apart.1 fun c read => agree c (Or.inl (Or.inl read)),
      ihYes typed.2.1 once.2.1.1 apart.2.1 fun c read => agree c (Or.inl (Or.inr read)),
      ihNo typed.2.2.1 once.2.1.2.1 apart.2.2 (fun c read => agree c (Or.inr read)), typed.2.2.2⟩
  | closure span params captured body ih =>
    obtain ⟨fits, typed, rfl⟩ := typed
    simp only [binders, List.nodup_append', List.disjoint_append_left] at once apart
    refine ⟨fits, ih typed once.2.1 (fun t left right => ?_) fun c read seen => ?_, rfl⟩
    · exact (mem_tags_paramScope.mp right).elim (fun own => once.2.2 own left)
        fun outer => apart.2 left outer
    · refine lookup_paramScope_congr fun other => ?_
      have around := (mem_tags_paramScope.mp seen).resolve_left other
      obtain ⟨d, captured, same⟩ := List.mem_map.mp (mem_captures read other fun bound =>
        apart.2 (bound_subset_binders body bound) around)
      rw [← same]
      exact agree d captured (same ▸ around)

/-- The body of a closure finds all it reads among its parameters and what it captures. -/
theorem closureBody_typed {params : List Param} {body : Expr} {env : Env}
    (typed : body.WellTyped g (paramScope params env)) (once : body.binders.Nodup)
    (apart : body.binders.Disjoint (paramTags params)) (outside : body.binders.Disjoint env.tags) :
    body.WellTyped g (paramScope params (captureEnv (captures params body))) := by
  refine typed.restrict once (fun t left right => ?_) fun c read seen => ?_
  · exact (mem_tags_paramScope.mp right).elim (fun own => apart left own)
      fun outer => outside left outer
  · refine lookup_paramScope_congr fun other => ?_
    have around := (mem_tags_paramScope.mp seen).resolve_left other
    have free : c.name.tag ∉ body.bound.map (·.tag) := fun bound =>
      outside (body.bound_subset_binders bound) around
    obtain ⟨d, captured, same⟩ := List.mem_map.mp (mem_captures read other free)
    have known := (body.reads_known typed d (mem_of_firstReads captured).1).resolve_right
      (same ▸ free)
    rw [same, lookup_paramScope_of_not_mem other] at known
    rw [known, ← same]
    exact (lookup_captureEnv (nodup_captureTags _ _) captured).symm

/-- What a closure captures is in scope where it stands. -/
theorem captures_known {params : List Param} {body : Expr} {env : Env}
    (typed : body.WellTyped g (paramScope params env)) {c : Capture}
    (captured : c ∈ captures params body) : env.lookup c.name.tag = some c.type := by
  obtain ⟨read, free⟩ := mem_of_firstReads captured
  rw [List.map_append, List.mem_append, not_or, List.map_flatMap] at free
  have known := (body.reads_known typed c read).resolve_right free.2
  rwa [lookup_paramScope_of_not_mem free.1] at known

end Reads

end WitnessLang.Typed
