import WitnessLang.Proofs.Ownership.Flow

set_option autoImplicit false

namespace WitnessLang.Ir

open Ownership

theorem Witness.location?_eq_some {w : Witness} {l : VarId} : w.location? = some l ↔ w = .dynamic l := by
  cases w <;> simp [Witness.location?]

/-- Variables were added behind those of a table. -/
def Extends (vs vs' : Variables) : Prop := ∃ more, vs' = vs ++ more

/-- The description of every variable is one. -/
def Located (vs : Variables) : Prop :=
  ∀ (v : VarId) (x : Variable), vs[v]? = some x → ∀ l, x.witness.location? = some l →
    isWitness vs l = true

section Tables

variable {vs vs' vs'' : Variables} {v w : VarId}

theorem Extends.refl (vs : Variables) : Extends vs vs := ⟨#[], by simp⟩

theorem Extends.trans (first : Extends vs vs') (second : Extends vs' vs'') : Extends vs vs'' := by
  obtain ⟨more, rfl⟩ := first
  obtain ⟨others, rfl⟩ := second
  exact ⟨more ++ others, by simp⟩

theorem extends_push (vs : Variables) (x : Variable) : Extends vs (vs.push x) := ⟨#[x], rfl⟩

theorem Extends.size (extend : Extends vs vs') : vs.size ≤ vs'.size := by
  obtain ⟨more, rfl⟩ := extend
  simp

theorem Extends.get (extend : Extends vs vs') (inside : v < vs.size) : vs'[v]? = vs[v]? := by
  obtain ⟨more, rfl⟩ := extend
  exact Array.getElem?_append_left inside

theorem Extends.nameOf (extend : Extends vs vs') (inside : v < vs.size) :
    nameOf vs' v = nameOf vs v := by
  rw [Ir.nameOf, Ir.nameOf, extend.get inside]

theorem isWitness_eq_true : isWitness vs v = true ↔ ∃ x, vs[v]? = some x ∧ x.witness = .type := by
  rw [isWitness]
  cases vs[v]? with
  | none => simp
  | some x => cases same : x.witness <;> simp [Witness.isType, same]

theorem lt_of_isWitness (kind : isWitness vs v = true) : v < vs.size := by
  obtain ⟨x, found, -⟩ := isWitness_eq_true.mp kind
  exact (Array.getElem?_eq_some_iff.mp found).1

theorem Extends.isWitness (extend : Extends vs vs') (inside : v < vs.size) :
    isWitness vs' v = isWitness vs v := by
  rw [Ownership.isWitness, Ownership.isWitness, extend.get inside]

theorem describedBy?_eq_some : describedBy? vs v = some w ↔
    ∃ x, vs[v]? = some x ∧ x.witness.location? = some w ∧ w < vs.size := by
  rw [describedBy?, Option.bind_eq_bind, Option.bind_eq_some_iff]
  refine exists_congr fun x => and_congr_right fun _ => ?_
  rw [Option.bind_eq_bind, Option.bind_eq_some_iff]
  constructor
  · rintro ⟨l, located, here⟩
    split at here
    · obtain rfl := Option.some.inj here
      exact ⟨located, ‹_›⟩
    · cases here
  · rintro ⟨located, inside⟩
    exact ⟨w, located, if_pos inside⟩

theorem Located.of_described (located : Located vs) (described : describedBy? vs v = some w) :
    isWitness vs w = true := by
  obtain ⟨x, found, location, -⟩ := describedBy?_eq_some.mp described
  exact located v x found w location

theorem Extends.describedBy? (extend : Extends vs vs') (located : Located vs) (inside : v < vs.size) :
    describedBy? vs' v = describedBy? vs v := by
  refine Option.ext fun w => ?_
  rw [describedBy?_eq_some, describedBy?_eq_some, extend.get inside]
  refine exists_congr fun x => and_congr_right fun found => and_congr_right fun location => ?_
  have known := lt_of_isWitness (located v x found w location)
  exact ⟨fun _ => known, fun _ => Nat.lt_of_lt_of_le known extend.size⟩

/-- A variable may be added if its description is there. -/
theorem Located.push (located : Located vs) {x : Variable}
    (own : ∀ l, x.witness.location? = some l → isWitness vs l = true) : Located (vs.push x) := by
  intro v y found l location
  have known : isWitness vs l = true := by
    rw [Array.getElem?_push] at found
    split at found
    · obtain rfl := Option.some.inj found
      exact own l location
    · exact located v y found l location
  rwa [(extends_push vs x).isWitness (lt_of_isWitness known)]

end Tables

section Blocks

variable {vs vs' : Variables} {live known live' known' extra : Set VarId} {i : Instr} {block : Block}

theorem allowed_grow (extend : Extends vs vs') (located : Located vs) (allowed : Allowed vs live known i) :
    Allowed vs' live known i where
  intact := allowed.intact
  inside v member := Nat.lt_of_lt_of_le (allowed.inside v member) extend.size
  reads := allowed.reads
  moves v moved := by
    have inside := allowed.inside v (List.mem_append_right _ moved)
    rw [extend.isWitness inside]
    exact allowed.moves v moved
  movesOnce := allowed.movesOnce
  writes := allowed.writes
  writesOnce := allowed.writesOnce
  described v member w described := by
    rw [extend.describedBy? located (allowed.inside v member)] at described
    exact allowed.described v member w described

/-- A block does in a larger table what it does in a smaller one. -/
theorem flows_grow (extend : Extends vs vs') (located : Located vs)
    (flows : Flows vs live known block live' known') : Flows vs' live known block live' known' := by
  induction flows with
  | nil live known => exact .nil live known
  | plain plain allowed _ ih => exact .plain plain (allowed_grow extend located allowed) ih
  | cond allowed _ _ kept _ ihYes ihNo ih =>
    exact .cond (allowed_grow extend located allowed) ihYes ihNo kept ih

theorem allowed_frame (allowed : Allowed vs live known i)
    (apart : ∀ v ∈ (directUsage i).writes, v ∉ extra) :
    Allowed vs (live ∪ extra) (known ∪ extra) i where
  intact := allowed.intact
  inside := allowed.inside
  reads v member := Or.inl (allowed.reads v member)
  moves v moved := ⟨Or.inl (allowed.moves v moved).1, (allowed.moves v moved).2⟩
  movesOnce := allowed.movesOnce
  writes v written := fun old => old.elim (allowed.writes v written) (apart v written)
  writesOnce := allowed.writesOnce
  described v member w described := Or.inl (allowed.described v member w described)

theorem diff_union_frame {moved written : Set VarId} (unmoved : ∀ v ∈ moved, v ∉ extra) :
    (live ∪ extra) \ moved ∪ written = live \ moved ∪ written ∪ extra := by
  ext v
  have := unmoved v
  simp only [Set.mem_union, Set.mem_sdiff]
  tauto

/-- Values that a block neither writes nor takes away stay beside it. -/
theorem flows_frame (flows : Flows vs live known block live' known')
    (unwritten : ∀ v ∈ blockWrites block, v ∉ extra) (unmoved : ∀ v ∈ blockMoves block, v ∉ extra) :
    Flows vs (live ∪ extra) (known ∪ extra) block (live' ∪ extra) (known' ∪ extra) := by
  induction flows with
  | nil live known => exact .nil _ _
  | @plain _ known _ _ i _ plain allowed _ ih =>
    simp only [mem_blockWrites_plain plain, mem_blockMoves_plain plain] at unwritten unmoved
    refine .plain plain (allowed_frame allowed fun v own => unwritten v (Or.inl own)) ?_
    have own : ∀ v ∈ {v | v ∈ (directUsage i).moves}, v ∉ extra := fun v own => unmoved v (Or.inl own)
    rw [diff_union_frame own, Set.union_right_comm known]
    exact ih (fun v later => unwritten v (Or.inr later)) fun v later => unmoved v (Or.inr later)
  | @cond _ known _ _ _ _ _ _ _ _ _ _ _ allowed _ _ kept _ ihYes ihNo ih =>
    simp only [mem_blockWrites_cond, mem_blockMoves_cond] at unwritten unmoved
    refine .cond (allowed_frame allowed fun v own => unwritten v (Or.inl (List.mem_singleton.mp own)))
      (ihYes (fun v own => unwritten v (Or.inr (Or.inl own))) fun v own => unmoved v (Or.inl own))
      (ihNo (fun v own => unwritten v (Or.inr (Or.inr (Or.inl own))))
        fun v own => unmoved v (Or.inr (Or.inl own))) kept ?_
    rw [diff_union_frame, Set.union_right_comm known, Set.union_right_comm (known ∪ _)]
    · exact ih (fun v later => unwritten v (Or.inr (Or.inr (Or.inr later))))
        fun v later => unmoved v (Or.inr (Or.inr later))
    · rintro v (first | second)
      · exact unmoved v (Or.inl first)
      · exact unmoved v (Or.inr (Or.inl second))

end Blocks

end WitnessLang.Ir
