import WitnessLang.Proofs.Ir.Coded

set_option autoImplicit false

namespace WitnessLang.Ir

open Ownership (isWitness directUsage branches flattenAll_cons flatten_plain flatten_cond)
open Sized (Roster)

/-- The instructions that write a variable themselves. -/
def writers (code : List Instr) (v : VarId) : List Instr := code.filter fun i => v ∈ (directUsage i).writes

section Spelling

variable (vs : Variables) (locals : List VarId) (code : List Instr)

mutual

/-- A variable holds the description that is computed so. That of a type parameter is in the parameter's own
variable. Any other one is in a local that one call alone writes, with the descriptions of the arguments. -/
def SpellsOut : WitnessExpr → VarId → Prop
  | .var name, v => Entered vs v name.mangled Ty.witness
  | .build constructor args, v => v ∈ locals ∧ isWitness vs v = true ∧
      ∃ parts, writers code v = [.callDirect constructor.mangled (callArgs v parts)] ∧ SpellsOutAll args parts

/-- The same for several variables, in order. -/
def SpellsOutAll : List WitnessExpr → List VarId → Prop
  | [], [] => True
  | w :: ws, v :: rest => SpellsOut w v ∧ SpellsOutAll ws rest
  | _, _ => False

end

/-- Wherever values are copied and destroyed as a variable says, this variable holds the description of their type. -/
def Described : Prop := ∀ (v : VarId) (x : Variable) (l : VarId), vs[v]? = some x → x.witness = .dynamic l →
  ∃ t w, x.type = some t ∧ t.finishedWitness = .ok w ∧ SpellsOut vs locals code w l

end Spelling

/-- A function all of whose variables are described by the variables that they name. -/
def Function.Described (f : Function) : Prop := Ir.Described f.vars f.locals (Instr.flattenAll f.body)

section Later

variable {vs vs' : Variables} {locals locals' : List VarId} {code new : List Instr}

theorem writers_append (v : VarId) : writers (code ++ new) v = writers code v ++ writers new v := List.filter_append ..

theorem writers_eq_nil {v : VarId} (unwritten : ∀ i ∈ code, v ∉ (directUsage i).writes) : writers code v = [] :=
  List.filter_eq_nil_iff.mpr fun i member => by simpa using unwritten i member

theorem Entered.later {v : VarId} {name : String} {type : Ty} (entered : Entered vs v name type) (vars : Extends vs vs') :
    Entered vs' v name type := by
  obtain ⟨x, found, named⟩ := entered
  exact ⟨x, by rw [vars.get (Array.getElem?_eq_some_iff.mp found).1, found], named⟩

mutual

/-- Descriptions stay where they are, as long as no description is written twice. -/
theorem SpellsOut.later (vars : Extends vs vs') (more : locals ⊆ locals')
    (once : ∀ i ∈ new, ∀ v ∈ (directUsage i).writes, isWitness vs' v = true → ∀ j ∈ code, v ∉ (directUsage j).writes) :
    (w : WitnessExpr) → ∀ {v : VarId}, SpellsOut vs locals code w v → SpellsOut vs' locals' (code ++ new) w v
  | .var _, _, entered => Entered.later entered vars
  | .build constructor args, v, ⟨own, kind, parts, written, all⟩ => by
    have kind' : isWitness vs' v = true := by rwa [vars.isWitness (lt_of_isWitness kind)]
    have call : Instr.callDirect constructor.mangled (callArgs v parts) ∈ code := by
      have member : Instr.callDirect constructor.mangled (callArgs v parts) ∈ writers code v := by
        rw [written]
        exact List.mem_singleton_self _
      exact (List.mem_filter.mp member).1
    have silent : writers new v = [] := writers_eq_nil fun i member again =>
      once i member v again kind' _ call (by simp)
    refine ⟨more own, kind', parts, ?_, SpellsOutAll.later vars more once args all⟩
    rw [writers_append, written, silent, List.append_nil]

theorem SpellsOutAll.later (vars : Extends vs vs') (more : locals ⊆ locals')
    (once : ∀ i ∈ new, ∀ v ∈ (directUsage i).writes, isWitness vs' v = true → ∀ j ∈ code, v ∉ (directUsage j).writes) :
    (ws : List WitnessExpr) → ∀ {xs : List VarId}, SpellsOutAll vs locals code ws xs → SpellsOutAll vs' locals' (code ++ new) ws xs
  | [], [], _ => trivial
  | w :: ws, _ :: _, ⟨first, others⟩ => ⟨SpellsOut.later vars more once w first, SpellsOutAll.later vars more once ws others⟩

end

end Later

/-- What is known of a function under construction for which some code was written: its names are those of a
roster, and all descriptions that are in use or remembered are where they are looked for. -/
structure Draft.Told (R : Roster) (c : Sized.Context) (code : List Instr) (d : Draft) : Prop where
  written : ∀ i ∈ code, ∀ v ∈ (directUsage i).writes, v < d.vars.size
  listed : ∀ e ∈ d.scope, ∃ i t, i.tag = e.1 ∧ R.named i ∧ R.typed e.1 t ∧ Entered d.vars e.2 i.mangled t
  cached : ∀ e ∈ d.witnesses, ∃ t own, R.Knows c own t ∧ t.key = e.1 ∧ SpellsOut d.vars d.locals code t.witnessExpr e.2
  described : Described d.vars d.locals code

/-- The functions that were lifted are described, and so is the one under construction. -/
structure Lowering.Told (R : Roster) (c : Sized.Context) (code : List Instr) (s : Lowering) : Prop where
  draft : s.draft.Told R c code
  lifted : ∀ f ∈ s.lifted, f.Described

/-- A piece of lowering writes some code, which fills only new variables for descriptions. -/
structure Writes (R : Roster) (c : Sized.Context) (s : Lowering) (new : List Instr) (s' : Lowering) : Prop where
  vars : Extends s.draft.vars s'.draft.vars
  locals : s.draft.locals ⊆ s'.draft.locals
  fresh : ∀ i ∈ new, ∀ v ∈ (directUsage i).writes, isWitness s'.draft.vars v = true → s.draft.vars.size ≤ v
  keeps : ∀ code, s.Told R c code → s'.Told R c (code ++ new)

/-- A piece of lowering appends what it writes, and something is known of all code that was written then. -/
def Appends (R : Roster) (c : Sized.Context) (s s' : Lowering) (post : List Instr → Prop) : Prop :=
  ∃ is, s'.draft.instrs.toList = s.draft.instrs.toList ++ is ∧ Writes R c s (Instr.flattenAll is) s' ∧
    ∀ code, s.Told R c code → post (code ++ Instr.flattenAll is)

section Pieces

variable {R : Roster} {c : Sized.Context} {s s' s'' : Lowering} {new new' : List Instr}

theorem Lowering.Told.described (told : s.Told R c new) : Described s.draft.vars s.draft.locals new := told.draft.described

/-- Code of one piece writes no description that was written before. -/
theorem Writes.once (writes : Writes R c s new s') {code : List Instr} (told : s.Told R c code) :
    ∀ i ∈ new, ∀ v ∈ (directUsage i).writes, isWitness s'.draft.vars v = true → ∀ j ∈ code, v ∉ (directUsage j).writes :=
  fun i member v written kind j earlier again =>
    absurd (told.draft.written j earlier v again) (Nat.not_lt.mpr (writes.fresh i member v written kind))

theorem Writes.spells (writes : Writes R c s new s') {code : List Instr} (told : s.Told R c code) {w : WitnessExpr} {v : VarId}
    (spells : SpellsOut s.draft.vars s.draft.locals code w v) :
    SpellsOut s'.draft.vars s'.draft.locals (code ++ new) w v :=
  SpellsOut.later writes.vars writes.locals (writes.once told) w spells

theorem Writes.refl (s : Lowering) : Writes R c s [] s :=
  ⟨.refl _, List.Subset.refl _, List.forall_mem_nil _, fun code told => by rwa [List.append_nil]⟩

/-- In a larger table, too, the code fills only new variables for descriptions. -/
theorem Writes.fresh_later (writes : Writes R c s new s') {vs : Variables} (vars : Extends s'.draft.vars vs) :
    ∀ i ∈ new, ∀ v ∈ (directUsage i).writes, isWitness vs v = true → s.draft.vars.size ≤ v := by
  intro i member v written kind
  by_cases old : v < s'.draft.vars.size
  · exact writes.fresh i member v written (by rwa [← vars.isWitness old])
  · exact Nat.le_trans writes.vars.size (Nat.not_lt.mp old)

theorem Writes.trans (first : Writes R c s new s') (second : Writes R c s' new' s'') : Writes R c s (new ++ new') s'' where
  vars := first.vars.trans second.vars
  locals := List.Subset.trans first.locals second.locals
  fresh := by
    rw [List.forall_mem_append]
    exact ⟨first.fresh_later second.vars, fun i member v written kind =>
      Nat.le_trans first.vars.size (second.fresh i member v written kind)⟩
  keeps code told := by
    rw [← List.append_assoc]
    exact second.keeps _ (first.keeps code told)

/-- Whatever else changes has to be told. -/
theorem Writes.extend (writes : Writes R c s new s') (vars : Extends s'.draft.vars s''.draft.vars)
    (locals : s'.draft.locals ⊆ s''.draft.locals) (keeps : ∀ code, s.Told R c code → s''.Told R c (code ++ new)) :
    Writes R c s new s'' where
  vars := writes.vars.trans vars
  locals := List.Subset.trans writes.locals locals
  fresh := writes.fresh_later vars
  keeps := keeps

/-- Only what nothing is known of changes. -/
theorem Writes.quiet (vars : s'.draft.vars = s.draft.vars) (locals : s'.draft.locals = s.draft.locals)
    (scope : s'.draft.scope = s.draft.scope) (witnesses : s'.draft.witnesses = s.draft.witnesses)
    (lifted : s'.lifted = s.lifted) : Writes R c s [] s' where
  vars := vars ▸ .refl _
  locals := locals ▸ List.Subset.refl _
  fresh := List.forall_mem_nil _
  keeps code told := by
    rw [List.append_nil]
    refine ⟨⟨?_, ?_, ?_, ?_⟩, lifted ▸ told.lifted⟩
    · rw [vars]
      exact told.draft.written
    · rw [vars, scope]
      exact told.draft.listed
    · rw [vars, locals, witnesses]
      exact told.draft.cached
    · rw [vars, locals]
      exact told.draft.described

/-- One more instruction, which fills variables for values, or descriptions that were not written before. -/
theorem Writes.mention {i : Instr} (writes : Writes R c s new s')
    (inside : ∀ v ∈ (directUsage i).writes, v < s'.draft.vars.size)
    (late : ∀ v ∈ (directUsage i).writes, isWitness s'.draft.vars v = true → s.draft.vars.size ≤ v)
    (unwritten : ∀ code, s.Told R c code → ∀ v ∈ (directUsage i).writes, isWitness s'.draft.vars v = true →
      ∀ j ∈ code ++ new, v ∉ (directUsage j).writes) : Writes R c s (new ++ [i]) s' where
  vars := writes.vars
  locals := writes.locals
  fresh := List.forall_mem_append.mpr ⟨writes.fresh, List.forall_mem_singleton.mpr late⟩
  keeps code told := by
    have told' := writes.keeps code told
    have stays : ∀ {w : WitnessExpr} {v : VarId}, SpellsOut s'.draft.vars s'.draft.locals (code ++ new) w v →
        SpellsOut s'.draft.vars s'.draft.locals (code ++ new ++ [i]) w v := fun {w v} =>
      SpellsOut.later (.refl _) (List.Subset.refl _) (List.forall_mem_singleton.mpr (unwritten code told)) w
    rw [← List.append_assoc]
    refine ⟨⟨?_, told'.draft.listed, fun e member => ?_, fun v x l found dynamic => ?_⟩, told'.lifted⟩
    · exact List.forall_mem_append.mpr ⟨told'.draft.written, List.forall_mem_singleton.mpr inside⟩
    · obtain ⟨t, own, knows, key, spells⟩ := told'.draft.cached e member
      exact ⟨t, own, knows, key, stays spells⟩
    · obtain ⟨t, w, type, finished, spells⟩ := told'.draft.described v x l found dynamic
      exact ⟨t, w, type, finished, stays spells⟩

/-- A variable is added whose description is there. -/
theorem Lowering.Told.adding {code : List Instr} (told : s.Told R c code) {x : Variable} (own : ∀ l, x.witness = .dynamic l →
    ∃ t w, x.type = some t ∧ t.finishedWitness = .ok w ∧ SpellsOut s.draft.vars s.draft.locals code w l) :
    (s.adding x).Told R c code := by
  have vars : Extends s.draft.vars (s.adding x).draft.vars := extends_push _ x
  have stays : ∀ {w : WitnessExpr} {v : VarId}, SpellsOut s.draft.vars s.draft.locals code w v →
      SpellsOut (s.adding x).draft.vars s.draft.locals code w v := fun {w v} spells => by
    simpa using SpellsOut.later vars (List.Subset.refl _) (List.forall_mem_nil _) w spells
  refine ⟨⟨?_, fun e member => ?_, fun e member => ?_, fun v y l found dynamic => ?_⟩, told.lifted⟩
  · exact fun i member v written => Nat.lt_of_lt_of_le (told.draft.written i member v written) vars.size
  · obtain ⟨i, t, tag, named, typed, entered⟩ := told.draft.listed e member
    exact ⟨i, t, tag, named, typed, entered.later vars⟩
  · obtain ⟨t, own, knows, key, spells⟩ := told.draft.cached e member
    exact ⟨t, own, knows, key, stays spells⟩
  · have split : (s.draft.vars.push x)[v]? = some y := found
    rw [Array.getElem?_push] at split
    split at split
    · obtain rfl := Option.some.inj split
      obtain ⟨t, w, type, finished, spells⟩ := own l dynamic
      exact ⟨t, w, type, finished, stays spells⟩
    · obtain ⟨t, w, type, finished, spells⟩ := told.draft.described v y l split dynamic
      exact ⟨t, w, type, finished, stays spells⟩

theorem Writes.owning (v : VarId) : Writes R c s [] (s.owning v) where
  vars := .refl _
  locals := List.subset_append_left _ _
  fresh := List.forall_mem_nil _
  keeps code told := by
    have stays : ∀ {w : WitnessExpr} {u : VarId}, SpellsOut s.draft.vars s.draft.locals code w u →
        SpellsOut s.draft.vars (s.draft.locals ++ [v]) (code ++ []) w u := fun {w u} =>
      SpellsOut.later (.refl _) (List.subset_append_left _ _) (List.forall_mem_nil _) w
    refine ⟨⟨?_, told.draft.listed, fun e member => ?_, fun u x l found dynamic => ?_⟩, told.lifted⟩
    · rw [List.append_nil]
      exact told.draft.written
    · obtain ⟨t, own, knows, key, spells⟩ := told.draft.cached e member
      exact ⟨t, own, knows, key, stays spells⟩
    · obtain ⟨t, w, type, finished, spells⟩ := told.draft.described u x l found dynamic
      exact ⟨t, w, type, finished, stays spells⟩

/-- The variable of a declared name goes with the roster. -/
theorem Writes.declaring {v : Sized.Variable} {x : VarId} (lists : R.Lists c v)
    (entered : Entered s.draft.vars x v.name.mangled v.shape.type) :
    Writes R c s [] { s with draft := { s.draft with scope := (v.name.tag, x) :: s.draft.scope } } where
  vars := .refl _
  locals := List.Subset.refl _
  fresh := List.forall_mem_nil _
  keeps code told := by
    rw [List.append_nil]
    refine ⟨⟨told.draft.written, ?_, told.draft.cached, told.draft.described⟩, told.lifted⟩
    exact List.forall_mem_cons.mpr ⟨⟨v.name, _, rfl, lists.named, lists.typed, entered⟩, told.draft.listed⟩

end Pieces

structure Draft.Place (d : Draft) (v : VarId) : Prop where
  inside : v < d.vars.size
  value : isWitness d.vars v = false

section Appending

variable {R : Roster} {c : Sized.Context} {s s' s'' : Lowering} {post post' : List Instr → Prop}

theorem Appends.refl (done : ∀ code, s.Told R c code → post code) : Appends R c s s post := by
  refine ⟨[], (List.append_nil _).symm, .refl s, fun code told => ?_⟩
  rw [Instr.flattenAll, List.append_nil]
  exact done code told

theorem Appends.imp (appends : Appends R c s s' post) (weaker : ∀ code, s'.Told R c code → post code → post' code) :
    Appends R c s s' post' := by
  obtain ⟨is, appended, writes, own⟩ := appends
  exact ⟨is, appended, writes, fun code told => weaker _ (writes.keeps code told) (own code told)⟩

theorem Appends.writes (appends : Appends R c s s' post) : ∃ new, Writes R c s new s' := by
  obtain ⟨is, -, writes, -⟩ := appends
  exact ⟨_, writes⟩

theorem Appends.vars (appends : Appends R c s s' post) : Extends s.draft.vars s'.draft.vars := by
  obtain ⟨new, writes⟩ := appends.writes
  exact writes.vars

/-- What is lowered later is appended behind. -/
theorem Appends.then (first : Appends R c s s' post) (second : Appends R c s' s'' post') :
    Appends R c s s'' fun all => ∃ code new, all = code ++ new ∧ s'.Told R c code ∧ post code ∧
      Writes R c s' new s'' ∧ post' all := by
  obtain ⟨is, appended, writes, own⟩ := first
  obtain ⟨js, appended', writes', own'⟩ := second
  refine ⟨is ++ js, by rw [appended', appended, List.append_assoc], ?_, fun code told => ?_⟩
  · rw [flattenAll_append]
    exact writes.trans writes'
  · have told' := writes.keeps code told
    rw [flattenAll_append, ← List.append_assoc]
    exact ⟨_, _, rfl, told', own code told, writes', own' _ told'⟩

/-- The state changes, but no instruction is appended. -/
theorem Appends.along (appends : Appends R c s s' post) (writes : Writes R c s' [] s'')
    (same : s''.draft.instrs = s'.draft.instrs) : Appends R c s s'' post := by
  obtain ⟨is, appended, before, own⟩ := appends
  refine ⟨is, by rw [same, appended], ?_, own⟩
  have both := before.trans writes
  rwa [List.append_nil] at both

/-- One more instruction is appended. -/
theorem Appends.emit (appends : Appends R c s s' post) {i : Instr} (plain : branches i = false)
    (inside : ∀ v ∈ (directUsage i).writes, v < s'.draft.vars.size)
    (late : ∀ v ∈ (directUsage i).writes, isWitness s'.draft.vars v = true → s.draft.vars.size ≤ v)
    (unwritten : ∀ code, post code → ∀ v ∈ (directUsage i).writes, isWitness s'.draft.vars v = true →
      ∀ j ∈ code, v ∉ (directUsage j).writes) :
    Appends R c s (s'.appended i) fun all => ∃ code, all = code ++ [i] ∧ s'.Told R c code ∧ post code := by
  obtain ⟨is, appended, writes, own⟩ := appends
  have flat : Instr.flattenAll (is ++ [i]) = Instr.flattenAll is ++ [i] := by
    rw [flattenAll_append, flattenAll_cons, flatten_plain plain]
    rfl
  refine ⟨is ++ [i], ?_, ?_, fun code told => ?_⟩
  · rw [Lowering.appended, Array.toList_push, appended, List.append_assoc]
  · have all := (writes.mention inside late fun code told => unwritten _ (own code told)).trans
      (.quiet rfl rfl rfl rfl rfl : Writes R c s' [] (s'.appended i))
    rwa [List.append_nil, ← flat] at all
  · rw [flat, ← List.append_assoc]
    exact ⟨_, rfl, writes.keeps code told, own code told⟩

/-- A variable is added whose description is there. -/
theorem Appends.adding (appends : Appends R c s s' post) {x : Variable} (own : ∀ code, post code → ∀ l, x.witness = .dynamic l →
    ∃ t w, x.type = some t ∧ t.finishedWitness = .ok w ∧ SpellsOut s'.draft.vars s'.draft.locals code w l) :
    Appends R c s (s'.adding x) post := by
  obtain ⟨is, appended, writes, done⟩ := appends
  refine ⟨is, appended, writes.extend (extends_push _ x) (List.Subset.refl _) fun code told => ?_, done⟩
  exact (writes.keeps code told).adding (own _ (done code told))

/-- A description is remembered for its type. -/
theorem Appends.remember (appends : Appends R c s s' post) {t : Ty} {own : List Tag} (knows : R.Knows c own t) {v : VarId}
    (spells : ∀ code, post code → SpellsOut s'.draft.vars s'.draft.locals code t.witnessExpr v) :
    Appends R c s { s' with draft := { s'.draft with witnesses := (t.key, v) :: s'.draft.witnesses } } post := by
  obtain ⟨is, appended, writes, done⟩ := appends
  refine ⟨is, appended, writes.extend (.refl _) (List.Subset.refl _) fun code told => ?_, done⟩
  have told' := writes.keeps code told
  exact ⟨{ told'.draft with
    cached := List.forall_mem_cons.mpr ⟨⟨t, own, knows, rfl, spells _ (done code told)⟩, told'.draft.cached⟩ }, told'.lifted⟩

/-- An instruction is appended that fills a place for values. -/
theorem Appends.fill (appends : Appends R c s s' post) {i : Instr} {dst : VarId} (plain : branches i = false)
    (own : (directUsage i).writes = [dst]) (place : s'.draft.Place dst) :
    Appends R c s (s'.appended i) fun _ => True := by
  have only : ∀ v ∈ (directUsage i).writes, v = dst := by
    rw [own]
    exact fun v member => List.mem_singleton.mp member
  have never : ∀ v ∈ (directUsage i).writes, isWitness s'.draft.vars v ≠ true := fun v member => by
    rw [only v member, place.value]
    exact Bool.false_ne_true
  exact (appends.emit plain (fun v member => only v member ▸ place.inside) (fun v member kind => absurd kind (never v member))
    fun _ _ v member kind => absurd kind (never v member)).imp fun _ _ _ => trivial

end Appending

section Descriptions

variable {R : Roster} {c : Sized.Context} {s s' : Lowering}

/-- What is found under the tag of a type parameter is the variable of its description. -/
theorem Lowering.Told.parameter (apart : R.Apart) {code : List Instr} (told : s.Told R c code) {name : Ident} {v : VarId}
    (found : s.draft.scope.lookup name.tag = some v) (named : R.named name) (typed : R.typed name.tag Ty.witness) :
    Entered s.draft.vars v name.mangled Ty.witness := by
  obtain ⟨i, t, tag, known, type, entered⟩ := told.draft.listed _ (mem_of_lookup found)
  rwa [apart.names i name known named tag, apart.types _ _ _ type typed] at entered

mutual

/-- A description is computed into a variable that holds it, where its names are those of type parameters. -/
theorem witnessOperand_appends (apart : R.Apart) : (w : WitnessExpr) → ∀ {s s' : Lowering} {v : VarId},
    Ends (witnessOperand w) s (.ok v) s' → Appends R c s s' fun code =>
      (∀ x ∈ w.names, R.named x ∧ R.typed x.tag Ty.witness) → SpellsOut s'.draft.vars s'.draft.locals code w v
  | .var name, s, s', v, ran => by
    rw [witnessOperand] at ran
    obtain ⟨found, rfl⟩ := ends_lookup.mp ran
    refine .refl fun code told known => ?_
    obtain ⟨named, typed⟩ := known name List.mem_cons_self
    exact told.parameter apart found named typed
  | .build constructor args, s, s', v, ran => by
    rw [witnessOperand, ends_bind_ok] at ran
    obtain ⟨name, s₁, first, ran⟩ := ran
    obtain ⟨-, rfl⟩ := ends_freshName.mp first
    rw [ends_get_bind, ends_bind_ok] at ran
    obtain ⟨dst, s₂, added, ran⟩ := ran
    obtain ⟨rfl, rfl⟩ := ends_addVariable.mp added
    rw [ends_bind_ok] at ran
    obtain ⟨_, s₃, owned, ran⟩ := ran
    obtain ⟨-, rfl⟩ := ends_addLocal.mp owned
    rw [ends_bind_ok] at ran
    obtain ⟨xs, s₄, given, ran⟩ := ran
    rw [ends_bind_ok] at ran
    obtain ⟨_, s₅, emitted, ran⟩ := ran
    obtain ⟨-, rfl⟩ := ends_emit.mp emitted
    obtain ⟨same, rfl⟩ := ends_pure.mp ran
    obtain rfl := Except.ok.inj same
    generalize placeIs : s.named.draft.vars.size = dst at given ⊢
    have place : s.draft.vars.size = dst := placeIs
    generalize variableIs : Variable.mk name (some Ty.witness) .type _ = x at given
    have type : x.witness = .type := by rw [← variableIs]
    have start : Appends R c s ((s.named.adding x).owning dst) fun code => ∀ j ∈ code, dst ∉ (directUsage j).writes := by
      refine (((Appends.refl fun code told j member again => ?_).along (.quiet rfl rfl rfl rfl rfl : Writes R c s [] s.named)
        rfl).adding fun _ _ l dynamic => ?_).along (.owning dst) rfl
      · exact absurd (told.draft.written j member dst again) (Nat.not_lt.mpr place.le)
      · rw [type] at dynamic
        cases dynamic
    have here : ((s.named.adding x).owning dst).draft.vars[dst]? = some x := place ▸ get_push _ _
    have inner := witnessOperands_appends apart args given
    obtain ⟨new, computed⟩ := inner.writes
    have inside : dst < s₄.draft.vars.size :=
      Nat.lt_of_lt_of_le (Array.getElem?_eq_some_iff.mp here).1 computed.vars.size
    have kind : isWitness s₄.draft.vars dst = true := by
      rw [computed.vars.isWitness (Array.getElem?_eq_some_iff.mp here).1]
      exact isWitness_of_type here type
    -- The arguments are computed into variables behind the one that is kept for the description.
    have result : (directUsage (.callDirect constructor.mangled (callArgs dst xs))).writes = [dst] := by simp
    have before : Appends R c s s₄ fun all => (∀ j ∈ all, dst ∉ (directUsage j).writes) ∧
        ((∀ x ∈ WitnessExpr.namesAll args, R.named x ∧ R.typed x.tag Ty.witness) →
          SpellsOutAll s₄.draft.vars s₄.draft.locals all args xs) := by
      refine (start.then inner).imp fun all told written => ?_
      obtain ⟨code, new, rfl, -, unwritten, after, spells⟩ := written
      refine ⟨List.forall_mem_append.mpr ⟨unwritten, fun j member again => ?_⟩, spells⟩
      exact absurd (Array.getElem?_eq_some_iff.mp here).1 (Nat.not_lt.mpr (after.fresh j member dst again kind))
    refine (before.emit (i := .callDirect constructor.mangled (callArgs dst xs)) rfl ?_ ?_ ?_).imp
      fun all told written known => ?_
    · rw [result, List.forall_mem_singleton]
      exact inside
    · rw [result, List.forall_mem_singleton]
      exact fun _ => place.le
    · rw [result]
      exact fun code written => List.forall_mem_singleton.mpr fun _ => written.1
    · obtain ⟨code, rfl, told', unwritten, spells⟩ := written
      refine ⟨computed.locals (List.mem_append_right _ (List.mem_singleton_self dst)), kind, xs, ?_, ?_⟩
      · rw [writers_append, writers_eq_nil unwritten, List.nil_append, writers, List.filter_singleton, result]
        simp
      · refine SpellsOutAll.later (.refl _) (List.Subset.refl _) ?_ args (spells known)
        rw [List.forall_mem_singleton, result]
        exact List.forall_mem_singleton.mpr fun _ => unwritten

/-- So are several ones, in order. -/
theorem witnessOperands_appends (apart : R.Apart) : (ws : List WitnessExpr) → ∀ {s s' : Lowering} {xs : List VarId},
    Ends (witnessOperands ws) s (.ok xs) s' → Appends R c s s' fun code =>
      (∀ x ∈ WitnessExpr.namesAll ws, R.named x ∧ R.typed x.tag Ty.witness) →
        SpellsOutAll s'.draft.vars s'.draft.locals code ws xs
  | [], s, s', xs, ran => by
    obtain ⟨same, rfl⟩ := ends_pure.mp ran
    obtain rfl := Except.ok.inj same
    exact .refl fun _ _ _ => trivial
  | w :: rest, s, s', xs, ran => by
    rw [witnessOperands, ends_bind_ok] at ran
    obtain ⟨v, s₁, first, ran⟩ := ran
    rw [ends_bind_ok] at ran
    obtain ⟨vs, s₂, others, ran⟩ := ran
    obtain ⟨same, rfl⟩ := ends_pure.mp ran
    obtain rfl := Except.ok.inj same
    refine ((witnessOperand_appends apart w first).then (witnessOperands_appends apart rest others)).imp
      fun all told written known => ?_
    obtain ⟨code, new, rfl, told', spells, after, more⟩ := written
    rw [WitnessExpr.namesAll, List.forall_mem_append] at known
    exact ⟨after.spells told' (spells known.1), more known.2⟩

end

/-- The description of a type is computed, or taken from where it was computed before. -/
theorem lowerWitness_appends (apart : R.Apart) {shape : Sized.Shape} (describes : R.Describes c shape) {w : Witness}
    (ran : Ends (lowerWitness shape.type shape.layout.witness) s (.ok w) s') :
    (w = .type ↔ shape.layout.witness = .type) ∧ Appends R c s s' fun code =>
      ∀ l, w = .dynamic l → SpellsOut s'.draft.vars s'.draft.locals code shape.type.witnessExpr l := by
  cases kind : shape.layout.witness with
  | trivial size =>
    rw [kind] at ran
    obtain ⟨same, rfl⟩ := ends_pure.mp ran
    obtain rfl := Except.ok.inj same
    exact ⟨by simp, .refl fun _ _ _ dynamic => by cases dynamic⟩
  | type =>
    rw [kind] at ran
    obtain ⟨same, rfl⟩ := ends_pure.mp ran
    obtain rfl := Except.ok.inj same
    exact ⟨by simp, .refl fun _ _ _ dynamic => by cases dynamic⟩
  | dynamic value =>
    obtain ⟨own, knows⟩ := describes.knows
    rw [kind, describes.layout.description value kind, lowerWitness, ends_get_bind] at ran
    split at ran
    · rename_i v found
      obtain ⟨same, rfl⟩ := ends_pure.mp ran
      obtain rfl := Except.ok.inj same
      refine ⟨by simp, .refl fun code told l dynamic => ?_⟩
      obtain rfl := Witness.dynamic.inj dynamic
      obtain ⟨t, own', knows', key, spells⟩ := told.draft.cached _ (mem_of_lookup found)
      exact knows.eq_of_key apart knows' key.symm ▸ spells
    · rw [ends_bind_ok] at ran
      obtain ⟨v, s₁, first, ran⟩ := ran
      rw [modifyDraft, ends_modify_bind] at ran
      obtain ⟨same, rfl⟩ := ends_pure.mp ran
      obtain rfl := Except.ok.inj same
      have computed := (witnessOperand_appends apart _ first).imp (c := c) fun code _ spells => spells fun x member =>
        knows.parameter apart (Ty.names_witnessExpr knows.formed.closed ▸ member)
      refine ⟨by simp, (computed.remember knows fun _ => id).imp fun code _ spells l dynamic => ?_⟩
      exact Witness.dynamic.inj dynamic ▸ spells

end Descriptions

section Variables

variable {R : Roster} {c : Sized.Context} {s s' s'' : Lowering} {name : String} {shape : Sized.Shape} {v : VarId}

structure Gains (s s' : Lowering) (name : String) (shape : Sized.Shape) (v : VarId) : Prop where
  new : s.draft.vars.size ≤ v
  inside : v < s'.draft.vars.size
  entered : Entered s'.draft.vars v name shape.type
  kind : isWitness s'.draft.vars v = true ↔ shape.layout.witness = .type

/-- A variable is added behind what computes the description of its type. -/
theorem newVariable_appends (apart : R.Apart) (describes : R.Describes c shape)
    (ran : Ends (newVariable name shape) s (.ok v) s') :
    Gains s s' name shape v ∧ Appends R c s s' fun code => ∀ j ∈ code, v ∉ (directUsage j).writes := by
  rw [newVariable, ends_bind_ok] at ran
  obtain ⟨witness, s₁, first, ran⟩ := ran
  rw [ends_bind_ok] at ran
  obtain ⟨size, s₂, second, ran⟩ := ran
  rw [lowerSize, ends_bind_ok] at second
  obtain ⟨dynamic, s₃, looked, second⟩ := second
  obtain ⟨-, rfl⟩ := ends_pure.mp second
  obtain rfl := ends_lookups looked
  obtain ⟨rfl, rfl⟩ := ends_addVariable.mp ran
  obtain ⟨kind, computed⟩ := lowerWitness_appends apart describes first
  have here : (s₂.adding ⟨name, some shape.type, witness, size⟩).draft.vars[s₂.draft.vars.size]? = some _ := get_push _ _
  refine ⟨⟨computed.vars.size, by simp [Lowering.adding], ⟨_, here, rfl, rfl⟩, (isWitness_iff here).trans kind⟩, ?_⟩
  have told : Appends R c s s₂ fun code => (∀ j ∈ code, s₂.draft.vars.size ∉ (directUsage j).writes) ∧
      ∀ l, witness = .dynamic l → SpellsOut s₂.draft.vars s₂.draft.locals code shape.type.witnessExpr l :=
    computed.imp fun code told spells => ⟨fun j member again =>
      absurd (told.draft.written j member _ again) (Nat.lt_irrefl _), spells⟩
  obtain ⟨own, knows⟩ := describes.knows
  exact (told.adding fun code known l dynamic =>
    ⟨shape.type, _, rfl, knows.formed.finishedWitness, known.2 l dynamic⟩).imp fun code _ known => known.1

/-- The variable of a declared name. -/
theorem define_appends (apart : R.Apart) {v : Sized.Variable} {x : VarId} (lists : R.Lists c v)
    (ran : Ends (define v) s (.ok x) s') : Gains s s' v.name.mangled v.shape x ∧
      Appends R c s s' fun code => ∀ j ∈ code, x ∉ (directUsage j).writes := by
  rw [define, ends_bind_ok] at ran
  obtain ⟨x', s₁, first, ran⟩ := ran
  rw [modifyDraft, ends_modify_bind] at ran
  obtain ⟨same, rfl⟩ := ends_pure.mp ran
  obtain rfl := Except.ok.inj same
  obtain ⟨adds, added⟩ := newVariable_appends apart lists.describes first
  exact ⟨⟨adds.new, adds.inside, adds.entered, adds.kind⟩, added.along (.declaring lists adds.entered) rfl⟩

/-- A variable for the value of an expression, which the function owns. -/
theorem temporary_appends (apart : R.Apart) (describes : R.Describes c shape) (ran : Ends (temporary shape) s (.ok v) s') :
    (v < s'.draft.vars.size ∧ (isWitness s'.draft.vars v = true ↔ shape.layout.witness = .type)) ∧
      Appends R c s s' fun _ => True := by
  rw [temporary, ends_bind_ok] at ran
  obtain ⟨name, s₁, named, ran⟩ := ran
  obtain ⟨-, rfl⟩ := ends_freshName.mp named
  rw [ends_bind_ok] at ran
  obtain ⟨v, s₂, first, ran⟩ := ran
  rw [ends_bind_ok] at ran
  obtain ⟨_, s₃, owned, ran⟩ := ran
  obtain ⟨-, rfl⟩ := ends_addLocal.mp owned
  obtain ⟨same, rfl⟩ := ends_pure.mp ran
  obtain rfl := Except.ok.inj same
  obtain ⟨adds, added⟩ := newVariable_appends apart describes first
  refine ⟨⟨adds.inside, adds.kind⟩, ?_⟩
  have start : Appends R c s s.named fun _ => True :=
    (Appends.refl fun _ _ => trivial).along (.quiet rfl rfl rfl rfl rfl) rfl
  exact ((start.then added).along (.owning v) rfl).imp fun _ _ _ => trivial

end Variables

section Blocks

variable {R : Roster} {c : Sized.Context} {s s' t t' : Lowering} {post post' : List Instr → Prop} {dst : VarId}

theorem Draft.Place.later {d d' : Draft} (place : d.Place dst) (vars : Extends d.vars d'.vars) : d'.Place dst :=
  ⟨Nat.lt_of_lt_of_le place.inside vars.size, by rw [vars.isWitness place.inside, place.value]⟩

theorem Gains.place {name : String} {shape : Sized.Shape} (gains : Gains s s' name shape dst)
    (value : shape.layout.witness ≠ .type) : s'.draft.Place dst :=
  ⟨gains.inside, by rwa [← Bool.not_eq_true, gains.kind]⟩

theorem Appends.next (first : Appends R c s s' post) (second : Appends R c s' t post') :
    Appends R c s t fun _ => True := (first.then second).imp fun _ _ _ => trivial

theorem Appends.nothing (s : Lowering) : Appends R c s s fun _ => True := .refl fun _ _ => trivial

/-- Instructions in a block of their own are not appended, but returned; what was remembered there is forgotten. -/
theorem inBlock_writes {m : Lower Unit} {block : Block}
    (inner : ∀ {s'}, Ends m s.cleared (.ok ()) s' → Appends R c s.cleared s' fun _ => True)
    (ran : Ends (inBlock m) s (.ok block) s') :
    s'.draft.instrs = s.draft.instrs ∧ Writes R c s (Instr.flattenAll block) s' := by
  rw [inBlock, ends_get_bind, modifyDraft, ends_modify_bind, ends_bind_ok] at ran
  obtain ⟨_, s₁, first, ran⟩ := ran
  rw [ends_get_bind, modifyDraft, ends_modify_bind] at ran
  obtain ⟨same, rfl⟩ := ends_pure.mp ran
  obtain rfl := Except.ok.inj same
  obtain ⟨is, appended, writes, -⟩ := inner first
  have whole : s₁.draft.instrs.toList = is := appended
  have inside : Writes R c s (Instr.flattenAll s₁.draft.instrs.toList) s₁ :=
    whole ▸ (Writes.quiet rfl rfl rfl rfl rfl : Writes R c s [] s.cleared).trans writes
  refine ⟨rfl, inside.extend (.refl _) (List.Subset.refl _) fun code told => ?_⟩
  have told' := inside.keeps code told
  refine ⟨{ told'.draft with cached := fun e member => ?_ }, told'.lifted⟩
  obtain ⟨t, own, knows, key, spells⟩ := told.draft.cached e member
  exact ⟨t, own, knows, key, inside.spells told spells⟩

/-- An instruction with two blocks is appended. -/
theorem Appends.cond (appends : Appends R c s s' post) (place : s'.draft.Place dst) {test : VarId} {yes no : Block}
    (first : t.draft.instrs = s'.draft.instrs ∧ Writes R c s' (Instr.flattenAll yes) t)
    (second : t'.draft.instrs = t.draft.instrs ∧ Writes R c t (Instr.flattenAll no) t') :
    Appends R c s (t'.appended (.cond dst test yes no)) fun _ => True := by
  obtain ⟨is, appended, writes, -⟩ := appends
  have never : ∀ v ∈ (directUsage (.cond dst test yes no)).writes, isWitness s'.draft.vars v ≠ true := by
    refine List.forall_mem_singleton.mpr ?_
    rw [place.value]
    exact Bool.false_ne_true
  have own : Writes R c s (Instr.flattenAll is ++ [.cond dst test yes no]) s' :=
    writes.mention (List.forall_mem_singleton.mpr place.inside) (fun v member kind => absurd kind (never v member))
      fun _ _ v member kind => absurd kind (never v member)
  refine ⟨is ++ [.cond dst test yes no], ?_, ?_, fun _ _ => trivial⟩
  · rw [Lowering.appended, Array.toList_push, second.1, first.1, appended, List.append_assoc]
  · have all := ((own.trans first.2).trans second.2).trans
      (.quiet rfl rfl rfl rfl rfl : Writes R c t' [] (t'.appended (.cond dst test yes no)))
    rw [flattenAll_append, flattenAll_cons, flatten_cond]
    simpa [Instr.flattenAll] using all

/-- A function that was built from nothing is described when it is finished. -/
theorem Appends.finish (appends : Appends R c s s' post) (empty : s.draft = {}) (lifted : ∀ f ∈ s.lifted, f.Described)
    {name : String} {arguments : List Argument} {span : Span} {isClosure : Bool} {f : Function}
    (ran : Ends (finish name arguments span isClosure) s' (.ok f) t) : f.Described ∧ ∀ g ∈ t.lifted, g.Described := by
  obtain ⟨rfl, -, -, vars, locals, body⟩ := ends_finish ran
  obtain ⟨is, appended, writes, -⟩ := appends
  have start : s.Told R c [] := by
    refine ⟨⟨List.forall_mem_nil _, ?_, ?_, ?_⟩, lifted⟩
    · rw [empty]
      exact List.forall_mem_nil _
    · rw [empty]
      exact List.forall_mem_nil _
    · rw [empty]
      intro v x l found
      simp at found
  have told := writes.keeps [] start
  refine ⟨?_, told.lifted⟩
  rw [Function.Described, vars, locals, body, appended, empty]
  exact told.draft.described

end Blocks

end WitnessLang.Ir
