import WitnessLang.Ir.Validate
import WitnessLang.Proofs.Ownership.Trails

set_option autoImplicit false

namespace WitnessLang.Ownership

open Ir

/-- A block into which destroys of such variables have been put, at any depth. -/
inductive Inserts (P : VarId → Prop) : Block → Block → Prop
  | nil : Inserts P [] []
  | destroy {v : VarId} {block counted : Block} (fits : P v) (onward : Inserts P block counted) :
      Inserts P block (.destroy v :: counted)
  | plain {i : Instr} {rest counted : Block} (plain : branches i = false) (onward : Inserts P rest counted) :
      Inserts P (i :: rest) (i :: counted)
  | cond {dst test : VarId} {yes no rest yes' no' counted : Block} (inYes : Inserts P yes yes')
      (inNo : Inserts P no no') (onward : Inserts P rest counted) :
      Inserts P (.cond dst test yes no :: rest) (.cond dst test yes' no' :: counted)

/-- Instructions that differ in their branches only. -/
def Alike (i j : Instr) : Prop :=
  i = j ∨ ∃ dst test yes no yes' no', i = .cond dst test yes no ∧ j = .cond dst test yes' no'

section Alike

variable {vs : Variables} {i j : Instr}

theorem Alike.directUsage (alike : Alike i j) : directUsage i = directUsage j := by
  rcases alike with rfl | ⟨dst, test, yes, no, yes', no', rfl, rfl⟩ <;> rfl

theorem Alike.usage? (alike : Alike i j) : usage? vs i = usage? vs j := by
  rw [Ownership.usage?, Ownership.usage?, alike.directUsage]

theorem Alike.uses (alike : Alike i j) : uses vs i = uses vs j := by
  rw [Ownership.uses, Ownership.uses, alike.usage?]

theorem Alike.problems (alike : Alike i j) : i.problems vs = j.problems vs := by
  rcases alike with rfl | ⟨dst, test, yes, no, yes', no', rfl, rfl⟩ <;> rfl

end Alike

namespace Inserts

variable {vs : Variables} {P Q : VarId → Prop} {block counted : Block} {v : VarId}

theorem mono (inserts : Inserts P block counted) (weaker : ∀ v, P v → Q v) : Inserts Q block counted := by
  induction inserts with
  | nil => exact .nil
  | destroy fits _ ih => exact .destroy (weaker _ fits) ih
  | plain plain _ ih => exact .plain plain ih
  | cond _ _ _ ihYes ihNo ih => exact .cond ihYes ihNo ih

theorem destroys (vars : List VarId) (fit : ∀ v ∈ vars, P v) (inserts : Inserts P block counted) :
    Inserts P block (vars.map Instr.destroy ++ counted) := by
  induction vars with
  | nil => exact inserts
  | cons v rest ih =>
    rw [List.forall_mem_cons] at fit
    exact .destroy fit.1 (ih fit.2)

/-- What stands in the block still stands there. -/
theorem mem_of_mem (inserts : Inserts P block counted) {i : Instr} (member : i ∈ Instr.flattenAll block) :
    ∃ j ∈ Instr.flattenAll counted, Alike i j := by
  induction inserts with
  | nil => exact ⟨i, member, Or.inl rfl⟩
  | destroy _ _ ih =>
    obtain ⟨j, there, alike⟩ := ih member
    exact ⟨j, by simp [flattenAll_cons, there], alike⟩
  | plain plain _ ih =>
    rw [flattenAll_cons, flatten_plain plain, List.singleton_append, List.mem_cons] at member
    rcases member with rfl | later
    · exact ⟨i, by simp [flattenAll_cons, flatten_plain plain], Or.inl rfl⟩
    · obtain ⟨j, there, alike⟩ := ih later
      exact ⟨j, by simp [flattenAll_cons, there], alike⟩
  | cond _ _ _ ihYes ihNo ih =>
    simp only [flattenAll_cons, flatten_cond, List.cons_append, List.mem_cons, List.mem_append] at member ⊢
    rcases member with rfl | (inYes | inNo) | later
    · exact ⟨_, Or.inl rfl, Or.inr ⟨_, _, _, _, _, _, rfl, rfl⟩⟩
    · obtain ⟨j, there, alike⟩ := ihYes inYes
      exact ⟨j, Or.inr (Or.inl (Or.inl there)), alike⟩
    · obtain ⟨j, there, alike⟩ := ihNo inNo
      exact ⟨j, Or.inr (Or.inl (Or.inr there)), alike⟩
    · obtain ⟨j, there, alike⟩ := ih later
      exact ⟨j, Or.inr (Or.inr there), alike⟩

/-- What stands there now stood there before or is one of the destroys. -/
theorem origin (inserts : Inserts P block counted) {j : Instr} (member : j ∈ Instr.flattenAll counted) :
    (∃ i ∈ Instr.flattenAll block, Alike i j) ∨ ∃ v, P v ∧ j = .destroy v := by
  induction inserts with
  | nil => cases member
  | @destroy v _ _ fits _ ih =>
    rw [flattenAll_cons, Instr.flatten, List.singleton_append, List.mem_cons] at member
    · rcases member with rfl | later
      · exact Or.inr ⟨v, fits, rfl⟩
      · exact ih later
    · simp
  | plain plain _ ih =>
    rw [flattenAll_cons, flatten_plain plain, List.singleton_append, List.mem_cons] at member
    rcases member with rfl | later
    · exact Or.inl ⟨j, by simp [flattenAll_cons, flatten_plain plain], Or.inl rfl⟩
    · refine (ih later).imp_left ?_
      rintro ⟨i, there, alike⟩
      exact ⟨i, by simp [flattenAll_cons, there], alike⟩
  | cond _ _ _ ihYes ihNo ih =>
    simp only [flattenAll_cons, flatten_cond, List.cons_append, List.mem_cons, List.mem_append] at member ⊢
    rcases member with rfl | (inYes | inNo) | later
    · exact Or.inl ⟨_, Or.inl rfl, Or.inr ⟨_, _, _, _, _, _, rfl, rfl⟩⟩
    · refine (ihYes inYes).imp_left ?_
      rintro ⟨i, there, alike⟩
      exact ⟨i, Or.inr (Or.inl (Or.inl there)), alike⟩
    · refine (ihNo inNo).imp_left ?_
      rintro ⟨i, there, alike⟩
      exact ⟨i, Or.inr (Or.inl (Or.inr there)), alike⟩
    · refine (ih later).imp_left ?_
      rintro ⟨i, there, alike⟩
      exact ⟨i, Or.inr (Or.inr there), alike⟩

theorem mem_blockWrites (inserts : Inserts P block counted) :
    v ∈ blockWrites counted ↔ v ∈ blockWrites block := by
  simp only [blockWrites, List.mem_flatMap]
  constructor
  · rintro ⟨j, member, written⟩
    rcases inserts.origin member with ⟨i, there, alike⟩ | ⟨x, -, rfl⟩
    · exact ⟨i, there, alike.directUsage ▸ written⟩
    · cases written
  · rintro ⟨i, member, written⟩
    obtain ⟨j, there, alike⟩ := inserts.mem_of_mem member
    exact ⟨j, there, alike.directUsage ▸ written⟩

theorem blockMoves_subset (inserts : Inserts P block counted) (moved : v ∈ blockMoves block) :
    v ∈ blockMoves counted := by
  obtain ⟨i, member, moved⟩ := List.mem_flatMap.mp moved
  obtain ⟨j, there, alike⟩ := inserts.mem_of_mem member
  exact List.mem_flatMap.mpr ⟨j, there, alike.directUsage ▸ moved⟩

theorem of_mem_blockMoves (inserts : Inserts P block counted) (moved : v ∈ blockMoves counted) :
    v ∈ blockMoves block ∨ P v := by
  obtain ⟨j, member, moved⟩ := List.mem_flatMap.mp moved
  rcases inserts.origin member with ⟨i, there, alike⟩ | ⟨x, fits, rfl⟩
  · exact Or.inl (List.mem_flatMap.mpr ⟨i, there, alike.directUsage ▸ moved⟩)
  · exact Or.inr (List.mem_singleton.mp moved ▸ fits)

theorem blockUses_subset (inserts : Inserts P block counted) (used : v ∈ blockUses vs block) :
    v ∈ blockUses vs counted := by
  obtain ⟨i, member, used⟩ := List.mem_flatMap.mp used
  obtain ⟨j, there, alike⟩ := inserts.mem_of_mem member
  exact List.mem_flatMap.mpr ⟨j, there, alike.uses ▸ used⟩

/-- A destroy uses its variable and the description of that. -/
theorem of_mem_blockUses (inserts : Inserts P block counted) (used : v ∈ blockUses vs counted) :
    v ∈ blockUses vs block ∨ ∃ x, P x ∧ (v = x ∨ describedBy? vs x = some v) := by
  obtain ⟨j, member, used⟩ := List.mem_flatMap.mp used
  rcases inserts.origin member with ⟨i, there, alike⟩ | ⟨x, fits, rfl⟩
  · exact Or.inl (List.mem_flatMap.mpr ⟨i, there, alike.uses ▸ used⟩)
  · refine Or.inr ⟨x, fits, ?_⟩
    rw [uses] at used
    split at used
    · rename_i u known
      obtain ⟨-, moves, reads, -⟩ := usage?_eq_some known
      rw [reads, moves] at used
      simpa [directUsage, or_comm, eq_comm] using used
    · cases used

/-- Every instruction can be told what it does, as far as the destroyed variables exist. -/
theorem usage_isSome (inserts : Inserts P block counted) (inside : ∀ v, P v → v < vs.size)
    (known : ∀ i ∈ Instr.flattenAll block, (usage? vs i).isSome) :
    ∀ j ∈ Instr.flattenAll counted, (usage? vs j).isSome := by
  intro j member
  rcases inserts.origin member with ⟨i, there, alike⟩ | ⟨v, fits, rfl⟩
  · exact alike.usage? ▸ known i there
  · simp [usage?, directUsage, inside v fits]

end Inserts

section Planning

variable {vs : Variables} {steps : List Step} {s : Scan} {keep handed : List VarId}

/-- What every placement of an owned variable keeps true holds of the whole plan. -/
theorem plan_keeps {Q : Plan → Prop} (start : Q {})
    (value : ∀ p, ∀ v ∈ owned vs s keep handed, isWitness vs v = false → Q p → Q (planValue steps s p v))
    (description : ∀ p, ∀ w ∈ owned vs s keep handed, isWitness vs w = true → Q p →
      Q (planWitness vs steps s p w)) : Q (plan vs steps s keep handed) := by
  have fold : ∀ (place : Plan → VarId → Plan) (vars : List VarId),
      (∀ p, ∀ v ∈ vars, Q p → Q (place p v)) → ∀ p, Q p → Q (vars.foldl place p) := by
    intro place vars
    induction vars with
    | nil => exact fun _ p holds => holds
    | cons v rest ih =>
      intro keeps p holds
      exact ih (fun p x member => keeps p x (List.mem_cons_of_mem _ member)) _
        (keeps p v (List.mem_cons_self ..) holds)
  rw [plan, List.partition_eq_filter_filter]
  refine fold _ _ (fun p w member => ?_) _ (fold _ _ (fun p v member => ?_) _ start)
  · obtain ⟨mine, witness⟩ := List.mem_filter.mp member
    exact description p w mine witness
  · obtain ⟨mine, other⟩ := List.mem_filter.mp member
    exact value p v mine (by simpa using other)

/-- A plan places owned variables. -/
theorem owned_of_plan {e : Nat × VarId}
    (placed : e ∈ (plan vs steps s keep handed).destroys ++ (plan vs steps s keep handed).handed) :
    e.2 ∈ owned vs s keep handed := by
  revert e
  refine plan_keeps (Q := fun p => ∀ {e}, e ∈ p.destroys ++ p.handed → e.2 ∈ owned vs s keep handed)
    (by simp) (fun p v mine _ placed e member => ?_) fun p w mine _ placed e member => ?_
  · rw [planValue] at member
    grind [Plan.destroy, Plan.hand]
  · rw [planWitness] at member
    grind [Plan.destroy, Plan.hand]

/-- What is left to branches is used there last, and a description is left only to a condition whose
result it does not describe. -/
theorem plan_handed {e : Nat × VarId} (left : e ∈ (plan vs steps s keep handed).handed) :
    lastUse? e.2 0 steps = some e.1 ∧ usedInBranch steps e.2 e.1 = true ∧
      (isWitness vs e.2 = true → describesResult vs steps e.2 e.1 = false) := by
  revert e
  refine plan_keeps (Q := fun p => ∀ {e}, e ∈ p.handed → lastUse? e.2 0 steps = some e.1 ∧
    usedInBranch steps e.2 e.1 = true ∧ (isWitness vs e.2 = true → describesResult vs steps e.2 e.1 = false))
    (by simp) (fun p v mine other placed e member => ?_) fun p w mine _ placed e member => ?_
  · rw [planValue] at member
    grind [Plan.destroy, Plan.hand]
  · rw [planWitness] at member
    grind [Plan.destroy, Plan.hand]

/-- Every owned variable gets a place. -/
theorem place_of_owned {v : VarId} (mine : v ∈ owned vs s keep handed) :
    ∃ k, (k, v) ∈ (plan vs steps s keep handed).destroys ++ (plan vs steps s keep handed).handed := by
  have value : ∀ (p : Plan) v, ∃ k, planValue steps s p v = p.destroy k v ∨ planValue steps s p v = p.hand k v := by
    intro p v
    rw [planValue]
    split
    · exact ⟨_, Or.inl rfl⟩
    · split
      · exact ⟨_, Or.inr rfl⟩
      · exact ⟨_, Or.inl rfl⟩
  have description : ∀ (p : Plan) w, ∃ k,
      planWitness vs steps s p w = p.destroy k w ∨ planWitness vs steps s p w = p.hand k w := by
    intro p w
    simp only [planWitness]
    split
    · exact ⟨_, Or.inl rfl⟩
    · split
      · exact ⟨_, Or.inr rfl⟩
      · exact ⟨_, Or.inl rfl⟩
  have fold : ∀ (place : Plan → VarId → Plan) (vars : List VarId),
      (∀ p v, ∃ k, place p v = p.destroy k v ∨ place p v = p.hand k v) →
      ∀ p, ∀ x, (x ∈ vars ∨ ∃ k, (k, x) ∈ p.destroys ++ p.handed) →
        ∃ k, (k, x) ∈ (vars.foldl place p).destroys ++ (vars.foldl place p).handed := by
    intro place vars places
    induction vars with
    | nil => exact fun p x placed => placed.resolve_left (List.not_mem_nil)
    | cons y rest ih =>
      intro p x placed
      refine ih (place p y) x ?_
      obtain ⟨k, placing⟩ := places p y
      rcases placed with member | ⟨j, earlier⟩
      · rcases List.mem_cons.mp member with rfl | later
        · exact Or.inr ⟨k, by rcases placing with placing | placing <;> simp [placing, Plan.destroy, Plan.hand]⟩
        · exact Or.inl later
      · refine Or.inr ⟨j, ?_⟩
        rcases placing with placing | placing <;> simp only [placing, Plan.destroy, Plan.hand, List.mem_append] at * <;>
          tauto
  rw [plan, List.partition_eq_filter_filter]
  refine fold _ _ description _ v ?_
  cases witness : isWitness vs v with
  | true => exact Or.inl (List.mem_filter.mpr ⟨mine, witness⟩)
  | false => exact Or.inr (fold _ _ value _ v (Or.inl (List.mem_filter.mpr ⟨mine, by simp [witness]⟩)))

/-- Where all owned variables are used by branches last, all of them are left to branches. -/
theorem plan_destroys_nil (inside : ∀ v ∈ owned vs s keep handed, ∃ k, lastUse? v 0 steps = some k ∧
      usedInBranch steps v k = true ∧ (isWitness vs v = true → describesResult vs steps v k = false)) :
    (plan vs steps s keep handed).destroys = [] := by
  refine plan_keeps (Q := fun p => p.destroys = []) rfl (fun p v mine _ empty => ?_) fun p w mine witness empty => ?_
  · obtain ⟨k, last, used, -⟩ := inside v mine
    simp only [planValue, last, used, ↓reduceIte]
    exact empty
  · obtain ⟨k, last, used, apart⟩ := inside w mine
    have described : p.lastDescribed? vs w = none := by simp [Plan.lastDescribed?, empty]
    simp only [planWitness, last, used, described, apart witness, Option.getD_none, Nat.zero_le, decide_true,
      Bool.and_self, Bool.not_false, ↓reduceIte]
    exact empty

end Planning

/-- What a block owns it was left or has written, and it costs something to hold. -/
theorem origin_of_owned {vs : Variables} {start last : Scan} {block : Block} {steps : List Step}
    {keep handed : List VarId} {v : VarId} (scanned : scanBlock vs 0 start block = .ok (steps, last))
    (blank : AtStart start) (mine : v ∈ owned vs last keep handed) :
    (v ∈ handed ∨ v ∈ blockWrites block) ∧ isTrivial vs v = false := by
  obtain ⟨introduced, -, -, costly⟩ := mem_owned.mp mine
  refine ⟨introduced.imp_right ?_, costly⟩
  rintro ⟨k, written⟩
  obtain ⟨writer, found, written⟩ := (written_at scanned blank).mp written
  obtain ⟨there, usage, -⟩ := step_at scanned found
  exact mem_blockWrites_of_mem (List.mem_of_getElem? there) ((usage?_eq_some usage).1 ▸ written)

/-- Where a plan places variables of a kind, and all written variables with a cost are of that kind, only
such variables are destroyed. -/
theorem inserts_of_assemble {vs : Variables} {P : VarId → Prop} (block : Block) {k : Nat} {s last : Scan}
    {steps : List Step} {p : Plan} {keep : List VarId} {counted : Block}
    (scanned : scanBlock vs k s block = .ok (steps, last))
    (assembled : assemble p keep k steps (blockCounters vs block) = .ok counted)
    (placed : ∀ e ∈ p.destroys ++ p.handed, P e.2)
    (written : ∀ v ∈ blockWrites block, isTrivial vs v = false → P v) : Inserts P block counted := by
  have destroyed : ∀ {p : Plan} {j : Nat}, (∀ e ∈ p.destroys ++ p.handed, P e.2) →
      ∀ v ∈ p.destroysAt j, P v := fun placed v member =>
    placed _ (List.mem_append_left _ (mem_destroysAt.mp member))
  induction block using block_induction generalizing k s last steps p keep counted with
  | nil =>
    obtain ⟨rfl, -⟩ := scanBlock_nil scanned
    obtain rfl : (p.destroysAt k).map Instr.destroy = counted := by
      simpa [assemble, blockCounters] using assembled
    simpa using Inserts.nil.destroys (p.destroysAt k) (destroyed placed)
  | plain i rest plain ih =>
    obtain ⟨outer, step, s', tail, here, onward, rfl⟩ := scanBlock_cons scanned
    obtain ⟨behind, assembledRest, rfl⟩ := assemble_plain here.instr plain assembled
    have later := ih onward assembledRest placed fun v member =>
      written v ((mem_blockWrites_plain plain).mpr (Or.inr member))
    exact (Inserts.plain plain later).destroys _ (destroyed placed)
  | cond dst test yes no rest ihYes ihNo ih =>
    obtain ⟨outer, step, s', tail, here, onward, rfl⟩ := scanBlock_cons scanned
    obtain ⟨yes', no', behind, countYes, countNo, assembledRest, rfl⟩ := assemble_cond here.instr assembled
    obtain ⟨_, _, scannedYes, assembledYes⟩ := countBlock_eq_ok countYes
    obtain ⟨_, _, scannedNo, assembledNo⟩ := countBlock_eq_ok countNo
    have left : ∀ v ∈ p.handedAt k, P v := fun v member =>
      placed _ (List.mem_append_right _ (mem_handedAt.mp member))
    have inYes := ihYes scannedYes assembledYes
      (fun e member => by
        obtain ⟨introduced, costly⟩ := origin_of_owned scannedYes ⟨rfl, rfl, rfl⟩ (owned_of_plan member)
        exact introduced.elim (left _) fun wrote => written _ (by simp [wrote]) costly)
      fun v member => written v (by simp [member])
    have inNo := ihNo scannedNo assembledNo
      (fun e member => by
        obtain ⟨introduced, costly⟩ := origin_of_owned scannedNo ⟨rfl, rfl, rfl⟩ (owned_of_plan member)
        exact introduced.elim (left _) fun wrote => written _ (by simp [wrote]) costly)
      fun v member => written v (by simp [member])
    have later := ih onward assembledRest placed fun v member => written v (by simp [member])
    exact (Inserts.cond inYes inNo later).destroys _ (destroyed placed)

/-- What counting puts into a block: destroys of variables with a cost that the block was left or writes. -/
theorem inserts_of_count {vs : Variables} {block : Block} {avail keep handed : List VarId} {counted : Block}
    (count : countBlock vs block avail keep handed = .ok counted) :
    Inserts (fun v => (v ∈ handed ∨ v ∈ blockWrites block) ∧ isTrivial vs v = false) block counted := by
  obtain ⟨steps, last, scanned, assembled⟩ := countBlock_eq_ok count
  exact inserts_of_assemble block scanned assembled
    (fun e member => origin_of_owned scanned ⟨rfl, rfl, rfl⟩ (owned_of_plan member))
    fun v written costly => ⟨Or.inr written, costly⟩

/-- A block that is gone over mentions only variables that exist. -/
theorem Scans.usage_isSome {vs : Variables} {s : Scan} {block : Block} (scans : Scans vs s block) :
    ∀ i ∈ Instr.flattenAll block, (usage? vs i).isSome := by
  induction scans with
  | nil s => simp [Instr.flattenAll]
  | plain plain here onward ih =>
    rw [flattenAll_cons, flatten_plain plain, List.singleton_append, List.forall_mem_cons]
    exact ⟨by simp [here.usage], ih⟩
  | cond here _ inYes _ inNo onward ihYes ihNo ih =>
    simp only [flattenAll_cons, flatten_cond, List.cons_append, List.forall_mem_cons, List.forall_mem_append]
    exact ⟨by simp [here.usage], ⟨ihYes, ihNo⟩, ih⟩

/-- What is written exists. -/
theorem Scans.inside {vs : Variables} {s : Scan} {block : Block} (scans : Scans vs s block) {v : VarId}
    (written : v ∈ blockWrites block) : v < vs.size := by
  obtain ⟨i, member, written⟩ := List.mem_flatMap.mp written
  obtain ⟨u, known⟩ := Option.isSome_iff_exists.mp (scans.usage_isSome i member)
  exact (usage?_eq_some known).2.2.2 v (by simp [written])

section Valid

variable {vs : Variables} {P : VarId → Prop} {block counted : Block}

theorem bodyProblems_eq_nil : bodyProblems vs block = [] ↔
    ∀ i ∈ Instr.flattenAll block, i.problems vs = [] := by
  rw [bodyProblems, List.filterMap_eq_nil_iff]
  refine forall₂_congr fun i _ => ?_
  split
  · rename_i none
    simp [none]
  · rename_i other
    exact iff_of_false (by simp) other

/-- A variable that is written without a problem and costs something may be destroyed. -/
theorem destroy_problems {v : VarId} (sound : bodyProblems vs block = []) (written : v ∈ blockWrites block)
    (costly : isTrivial vs v = false) : (Instr.destroy v).problems vs = [] := by
  obtain ⟨i, member, written⟩ := List.mem_flatMap.mp written
  have fine := bodyProblems_eq_nil.mp sound i member
  rw [Instr.problems, List.append_eq_nil_iff, List.filterMap_eq_nil_iff] at fine
  have operand := fine.1 v (mem_operands_of_write written)
  have shape : shapeProblem? vs (.destroy v) = none := by
    rw [isTrivial] at costly
    rw [shapeProblem?]
    cases found : vs[v]? with
    | none => rfl
    | some x => simp_all
  simp [Instr.problems, Instr.operands, operand, shape]

/-- Destroying written variables that cost something leaves a valid body valid. -/
theorem Inserts.valid (inserts : Inserts P block counted)
    (fits : ∀ v, P v → v ∈ blockWrites block ∧ isTrivial vs v = false) (sound : bodyProblems vs block = []) :
    bodyProblems vs counted = [] := by
  refine bodyProblems_eq_nil.mpr fun j member => ?_
  rcases inserts.origin member with ⟨i, there, alike⟩ | ⟨v, fit, rfl⟩
  · exact alike.problems ▸ bodyProblems_eq_nil.mp sound i there
  · exact destroy_problems sound (fits v fit).1 (fits v fit).2

end Valid

/-- The counted function is the function with destroys put into its body, of existing variables that cost
something to hold. -/
theorem inserts_of_countFunction {f g : Function} (accepted : countFunction f = .ok g) :
    g = { f with body := g.body } ∧
      Inserts (fun v => v ∈ blockWrites f.body ∧ v < f.vars.size ∧ isTrivial f.vars v = false) f.body g.body := by
  obtain ⟨body, rfl, count⟩ := countFunction_eq_ok accepted
  refine ⟨rfl, (inserts_of_count count).mono fun v ⟨introduced, costly⟩ => ?_⟩
  have written := introduced.resolve_left (List.not_mem_nil)
  exact ⟨written, (scans_of_count count).inside written, costly⟩

/-- A valid function is valid when it is counted. -/
theorem counted_valid {f g : Function} (accepted : countFunction f = .ok g) (valid : f.problems = some []) :
    g.problems = some [] := by
  obtain ⟨same, inserts⟩ := inserts_of_countFunction accepted
  have sound : bodyProblems f.vars f.body = [] := by
    simp only [Function.problems, Option.bind_eq_bind, Option.bind_eq_some_iff, Option.pure_def,
      Option.some.injEq, List.append_eq_nil_iff] at valid
    obtain ⟨_, _, _, _, _, body⟩ := valid
    exact body
  have counted := inserts.valid (fun v fits => ⟨fits.1, fits.2.2⟩) sound
  rw [same]
  simp only [Function.problems, Function.varAt?, sound, counted] at valid ⊢
  exact valid

end WitnessLang.Ownership
