import WitnessLang.Ir.Lower
import WitnessLang.Proofs.Run

set_option autoImplicit false

namespace WitnessLang.Ir

/-- The fields of a struct as something to place. -/
def Struct.slots (r : Struct) : List Slot := r.fields.map fun f => slotOf r.vars f.name f.size

/-- A computation that changes nothing but the function under construction. -/
def Drafting {α : Type} (m : Lower α) : Prop :=
  ∀ s r s', Ends m s r s' → s' = { s with draft := s'.draft }

section Drafting

variable {α β : Type}

theorem Drafting.bind {m : Lower α} {f : α → Lower β} (first : Drafting m) (next : ∀ a, Drafting (f a)) :
    Drafting (m >>= f) := by
  intro s r s'' ends
  rcases ends_bind.mp ends with ⟨a, s', ran, rest⟩ | ⟨e, failed, -⟩
  · rw [next a _ _ _ rest, first _ _ _ ran]
  · exact first _ _ _ failed

theorem drafting_pure (a : α) : Drafting (pure a) := by
  intro s r s' ends
  obtain ⟨-, rfl⟩ := ends_pure.mp ends
  rfl

theorem drafting_throw (e : LowerFailure) : Drafting (throw e : Lower α) := by
  intro s r s' ends
  obtain ⟨-, rfl⟩ := ends_throw.mp ends
  rfl

theorem drafting_modifyDraft (f : Draft → Draft) : Drafting (modifyDraft f) := by
  intro s r s' ends
  obtain ⟨-, rfl⟩ := ends_modify.mp ends
  rfl

theorem Drafting.get {f : Lowering → Lower β} (next : ∀ s, Drafting (f s)) : Drafting (get >>= f) :=
  fun s _ _ ends => next s s _ _ ends

theorem Drafting.mapM {f : α → Lower β} (each : ∀ a, Drafting (f a)) (items : List α) : Drafting (items.mapM f) := by
  induction items with
  | nil => exact drafting_pure _
  | cons a rest ih =>
    rw [List.mapM_cons]
    exact (each a).bind fun b => ih.bind fun bs => drafting_pure _

theorem drafting_addVariable (v : Variable) : Drafting (addVariable v) :=
  Drafting.get fun _ => (drafting_modifyDraft _).bind fun _ => drafting_pure _

theorem drafting_lookup (name : Ident) : Drafting (lookup name) := by
  refine Drafting.get fun s => ?_
  split
  · exact drafting_pure _
  · exact drafting_throw _

mutual

theorem drafting_witnessOperand : ∀ w, Drafting (witnessOperand w)
  | .var name => by
    rw [witnessOperand]
    exact drafting_lookup name
  | .build constructor args => by
    rw [witnessOperand]
    refine Drafting.bind (Drafting.get fun _ => (drafting_modifyDraft _).bind fun _ => drafting_pure _) fun name => ?_
    refine Drafting.get fun s => (drafting_addVariable _).bind fun dst => (drafting_modifyDraft _).bind fun _ => ?_
    exact (drafting_witnessOperands args).bind fun args => (drafting_modifyDraft _).bind fun _ => drafting_pure _

theorem drafting_witnessOperands : ∀ ws, Drafting (witnessOperands ws)
  | [] => by
    rw [witnessOperands]
    exact drafting_pure _
  | w :: rest => by
    rw [witnessOperands]
    exact (drafting_witnessOperand w).bind fun v => (drafting_witnessOperands rest).bind fun vs => drafting_pure _

end

theorem drafting_lowerWitness (t : Ty) : ∀ w, Drafting (lowerWitness t w)
  | .trivial size => drafting_pure _
  | .type => drafting_pure _
  | .dynamic value => by
    refine Drafting.get fun s => ?_
    split
    · exact drafting_pure _
    · exact (drafting_witnessOperand value).bind fun v => (drafting_modifyDraft _).bind fun _ => drafting_pure _

theorem drafting_lowerSize (size : Sized.Size) : Drafting (lowerSize size) :=
  (Drafting.mapM drafting_lookup _).bind fun _ => drafting_pure _

theorem drafting_borrowedArgument (v : Sized.Variable) : Drafting (borrowedArgument v) := by
  have own : Drafting (newVariable v.name.mangled v.shape) :=
    (drafting_lowerWitness _ _).bind fun _ => (drafting_lowerSize _).bind fun _ => drafting_addVariable _
  exact (own.bind fun id => (drafting_modifyDraft _).bind fun _ => drafting_pure _).bind fun _ => drafting_pure _

end Drafting

/-- Work beside the function under construction leaves that as it was. -/
theorem ends_beside {α : Type} {m : Lower α} {s s' : Lowering} {a : α} (ends : Ends (beside m) s (.ok a) s') :
    ∃ t, Ends m { s with draft := {} } (.ok a) t ∧ s' = { t with draft := s.draft } := by
  rw [beside, ends_get_bind, modifyDraft, ends_modify_bind, ends_bind_ok] at ends
  obtain ⟨a', t, ran, ends⟩ := ends
  rw [modifyDraft, ends_modify_bind, ends_pure] at ends
  obtain ⟨same, rfl⟩ := ends
  obtain rfl := Except.ok.inj same
  exact ⟨t, ran, rfl⟩

/-- Lowering a struct takes one layout, and needs no functions beside it. -/
theorem lowerStruct_ends {d : Sized.Struct} {s s' : Lowering} {r : Struct} (ends : Ends (lowerStruct d) s (.ok r) s') :
    s.layouts.struct r.name r.slots = (.ok r.layout, s'.layouts) ∧ s' = { s with layouts := s'.layouts } := by
  rw [lowerStruct] at ends
  obtain ⟨t, inner, rfl⟩ := ends_beside ends
  rw [ends_get_bind, ends_bind_ok] at inner
  obtain ⟨result, s₁, ran₁, inner⟩ := inner
  rw [ends_bind_ok] at inner
  obtain ⟨args, s₂, ran₂, inner⟩ := inner
  rw [ends_bind_ok] at inner
  obtain ⟨fields, s₃, ran₃, inner⟩ := inner
  have kept : s₃ = { s with draft := s₃.draft } := by
    rw [(Drafting.mapM (fun f => (drafting_lowerWitness _ _).bind fun _ => (drafting_lowerSize _).bind fun _ =>
      drafting_pure _) _) _ _ _ ran₃, Drafting.mapM drafting_borrowedArgument _ _ _ _ ran₂,
      drafting_addVariable _ _ _ _ ran₁]
  simp only [ends_get_bind] at inner
  generalize asked : s₃.layouts.struct d.name.mangled (fields.map fun f => slotOf s₃.draft.vars f.name f.size) = answer at inner
  obtain ⟨layout, layouts⟩ := answer
  simp only [ends_modify_bind] at inner
  cases layout with
  | error e => simp at inner
  | ok layout =>
    obtain ⟨same, rfl⟩ := ends_pure.mp inner
    obtain rfl := Except.ok.inj same
    rw [kept] at asked
    refine ⟨asked, ?_⟩
    rw [kept]

/-- The layouts that are kept are those of the structs so far; each struct has the layout of the first one
of its name. -/
structure LaidOut (l : StructLayouts) (structs : List Struct) : Prop where
  known : ∀ name, l.known.lookup name = (structs.find? (·.name == name)).map (·.layout)
  first : ∀ d ∈ structs, ∃ first, structs.find? (·.name == d.name) = some first ∧
    Frame.compute first.name first.slots l.target = .ok d.layout

section LaidOut

variable {l l' : StructLayouts} {structs : List Struct} {r : Struct}

/-- One more struct does not change which one is the first of a name. -/
theorem find?_concat {d first : Struct} (found : structs.find? (·.name == d.name) = some first) :
    (structs ++ [r]).find? (·.name == d.name) = some first := by
  rw [List.find?_append, found]
  rfl

theorem LaidOut.struct (laid : LaidOut l structs) (done : l.struct r.name r.slots = (.ok r.layout, l')) :
    LaidOut l' (structs ++ [r]) ∧ l'.target = l.target := by
  rw [StructLayouts.struct, laid.known] at done
  cases found : structs.find? (·.name == r.name) with
  | some first =>
    rw [found] at done
    obtain ⟨same, rfl⟩ : first.layout = r.layout ∧ l = l' := by simpa using done
    have known : structs.find? (·.name == first.name) = some first := by
      have named := List.find?_some found
      rw [eq_of_beq named, found]
    refine ⟨⟨fun name => ?_, List.forall_mem_append.mpr ⟨fun d member => ?_, ?_⟩⟩, rfl⟩
    · rw [laid.known, List.find?_append]
      cases other : structs.find? (·.name == name) with
      | some _ => rfl
      | none =>
        have apart : (r.name == name) = false := by
          rw [beq_eq_false_iff_ne]
          rintro rfl
          rw [found] at other
          cases other
        simp [apart]
    · obtain ⟨g, own, computed⟩ := laid.first d member
      exact ⟨g, find?_concat own, computed⟩
    · rw [List.forall_mem_singleton]
      obtain ⟨g, own, computed⟩ := laid.first first (List.mem_of_find?_eq_some found)
      rw [known] at own
      obtain rfl := Option.some.inj own
      exact ⟨first, find?_concat found, same ▸ computed⟩
  | none =>
    rw [found] at done
    dsimp only [Option.map_none] at done
    split at done
    · simp at done
    · rename_i frame computed
      obtain ⟨rfl, rfl⟩ : frame = r.layout ∧ { l with known := (r.name, frame) :: l.known } = l' := by simpa using done
      refine ⟨⟨fun name => ?_, List.forall_mem_append.mpr ⟨fun d member => ?_, ?_⟩⟩, rfl⟩
      · rw [List.lookup_cons, List.find?_append, laid.known]
        by_cases same : name = r.name
        · rw [same, found]
          simp
        · have apart : (name == r.name) = false := by simpa using same
          have apart' : (r.name == name) = false := by simpa using Ne.symm same
          rw [apart]
          cases structs.find? (·.name == name) <;> simp [apart']
      · obtain ⟨g, own, known⟩ := laid.first d member
        exact ⟨g, find?_concat own, known⟩
      · rw [List.forall_mem_singleton]
        refine ⟨r, ?_, computed⟩
        rw [List.find?_append, found]
        simp

/-- The induction is on the structs that are left. -/
theorem lowerStructs_laid {ds : List Sized.Struct} {s s' : Lowering} {rs : List Struct} (laid : LaidOut s.layouts structs)
    (ends : Ends (ds.mapM lowerStruct) s (.ok rs) s') :
    LaidOut s'.layouts (structs ++ rs) ∧ s'.layouts.target = s.layouts.target := by
  induction ds generalizing s rs structs with
  | nil =>
    obtain ⟨rfl, rfl⟩ := ends_mapM_nil.mp ends
    rw [List.append_nil]
    exact ⟨laid, rfl⟩
  | cons d rest ih =>
    obtain ⟨r, s₁, rs, ran, others, rfl⟩ := ends_mapM_cons.mp ends
    obtain ⟨laid', target⟩ := laid.struct (lowerStruct_ends ran).1
    obtain ⟨all, target'⟩ := ih laid' others
    rw [List.append_assoc] at all
    exact ⟨all, target'.trans target⟩

end LaidOut

/-- The builders of structs make no closures. -/
theorem lowerStructs_lifted {ds : List Sized.Struct} {s s' : Lowering} {rs : List Struct}
    (ends : Ends (ds.mapM lowerStruct) s (.ok rs) s') : s'.lifted = s.lifted := by
  induction ds generalizing s rs with
  | nil =>
    obtain ⟨-, rfl⟩ := ends_mapM_nil.mp ends
    rfl
  | cons d rest ih =>
    obtain ⟨r, s₁, rs, ran, others, rfl⟩ := ends_mapM_cons.mp ends
    rw [ih others, (lowerStruct_ends ran).2]

/-- Every struct of a lowered program is laid out as the first one of its name. -/
theorem lower_laid {p : Sized.Program} {r : Program} (done : lower p = .ok r) : r.target = p.target ∧
    ∀ d ∈ r.structs, ∃ first, r.structs.find? (·.name == d.name) = some first ∧
      Frame.compute first.name first.slots r.target = .ok d.layout := by
  have ended : ∃ s', Ends (do
      let structs ← p.structs.mapM lowerStruct
      let functions ← p.functions.mapM lowerWithClosures
      return (⟨p.unit, p.target, structs, functions.flatten⟩ : Program))
      { target := p.target, layouts := ⟨p.target, []⟩ } (.ok r) s' := ⟨_, Prod.ext done rfl⟩
  obtain ⟨s', ended⟩ := ended
  rw [ends_bind_ok] at ended
  obtain ⟨structs, s₁, ran, ended⟩ := ended
  rw [ends_bind_ok] at ended
  obtain ⟨functions, s₂, -, ended⟩ := ended
  obtain ⟨same, -⟩ := ends_pure.mp ended
  obtain rfl := Except.ok.inj same
  obtain ⟨laid, target⟩ := lowerStructs_laid (show LaidOut ⟨p.target, []⟩ [] from ⟨fun _ => rfl, List.forall_mem_nil _⟩) ran
  refine ⟨rfl, fun d member => ?_⟩
  have first := laid.first d member
  rw [target] at first
  exact first

end WitnessLang.Ir
