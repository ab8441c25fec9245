import WitnessLang.Proofs.Lists
import WitnessLang.Proofs.Types.General
import WitnessLang.Proofs.Types.Substitution
import WitnessLang.Types.Settled

set_option autoImplicit false

namespace WitnessLang.Bindings

open Relation (ReflTransGen)

variable {b : Bindings} {t u : Ty} {c : Cell} {s s' : Substitution}

/-- Every cell that a type leads to is bound. -/
def Filled (b : Bindings) (t : Ty) : Prop :=
  ∀ d ∈ t.cells, ∀ c, ReflTransGen (Leads b) d c → ∃ u, b.value? c = some u

/-- A cell that is left has been come to from a cell of the type. -/
theorem exists_leads (left : c ∈ (b.settle t).cells) :
    ∃ d ∈ t.cells, ReflTransGen (Leads b) d c := by
  have within : ∀ n t, c ∈ (b.settleWithin n t).cells →
      ∃ d ∈ t.cells, ReflTransGen (Leads b) d c := by
    intro n
    induction n with
    | zero => exact fun t left => ⟨c, left, .refl⟩
    | succ n ih =>
      intro t left
      rw [settleWithin_step, Ty.mem_cells_mapCells] at left
      obtain ⟨d, inside, left⟩ := left
      cases found : b.value? d with
      | none =>
        simp only [found, Ty.cells_cell, List.mem_singleton] at left
        exact ⟨d, inside, left ▸ .refl⟩
      | some u =>
        simp only [found] at left
        obtain ⟨e, next, path⟩ := ih u left
        exact ⟨d, inside, .head ⟨u, found, next⟩ path⟩
  exact within _ t left

theorem filled_iff (acyclic : Acyclic b) : b.Filled t ↔ (b.settle t).cells = [] := by
  constructor
  · intro filled
    rw [List.eq_nil_iff_forall_not_mem]
    intro c left
    obtain ⟨d, inside, path⟩ := exists_leads left
    obtain ⟨u, bound⟩ := filled d inside c path
    rw [unbound_of_mem_settle acyclic left] at bound
    cases bound
  · intro closed d inside c path
    cases bound : b.value? c with
    | some u => exact ⟨u, rfl⟩
    | none =>
      have left : c ∈ (b.settle t).cells := by
        rw [settle_eq_mapCells, Ty.mem_cells_mapCells]
        exact ⟨d, inside, mem_settle_of_leads acyclic bound path⟩
      rw [closed] at left
      exact absurd left List.not_mem_nil

section Keys

theorem key_eq (b : Bindings) (t : Ty) :
    b.key t = Ty.whenFinished "typecheck: Key of unresolved type " Ty.key (b.settle t) := rfl

theorem key_of_filled (acyclic : Acyclic b) (filled : b.Filled t) :
    b.key t = .ok (b.settle t).key :=
  Ty.whenFinished_of_closed ((filled_iff acyclic).mp filled)

/-- Two types without unbound cells have the same key exactly if they settle to the same type,
names compared by tag. -/
theorem keys_canonical (acyclic : Acyclic b) (filledT : b.Filled t) (filledU : b.Filled u) :
    ∃ k l, b.key t = .ok k ∧ b.key u = .ok l ∧ (k = l ↔ (b.settle t).Alike (b.settle u)) := by
  refine ⟨_, _, key_of_filled acyclic filledT, key_of_filled acyclic filledU, ?_, Ty.Alike.key⟩
  have closedT := (filled_iff acyclic).mp filledT
  have closedU := (filled_iff acyclic).mp filledU
  exact fun same => Ty.alike_of_key closedT closedU same

/-- Bindings that lead through two cells to a type with a parameter. -/
def chained : Bindings :=
  [(2, .cell ⟨1, "t"⟩), (1, .named ⟨⟨1, 12⟩, "Box", false⟩ [.generic ⟨⟨1, 1⟩, "a", false⟩])]

theorem acyclic_chained : Acyclic chained := by
  refine ⟨id, fun c t found d inside => ?_⟩
  have listed := mem_of_lookup found
  simp only [chained, List.mem_cons, Prod.mk.injEq, List.not_mem_nil, or_false] at listed
  rcases listed with ⟨number, rfl⟩ | ⟨-, rfl⟩
  · obtain rfl : d = ⟨1, "t"⟩ := by simpa using inside
    simp [number]
  · simp at inside

/-- A function on what the second cell leads to, with that spelled in another way. -/
theorem chained_canonical : ∃ k l,
    chained.key (.func [.cell ⟨2, "t"⟩] (.cell ⟨1, "t"⟩)) = .ok k ∧
    chained.key (.func [.named ⟨⟨1, 12⟩, "Case", true⟩ [.generic ⟨⟨1, 1⟩, "b", false⟩]]
      (.cell ⟨2, "t"⟩)) = .ok l ∧ k = l := by
  have filled : ∀ t : Ty, (chained.settle t).cells = [] → chained.Filled t := fun t =>
    (filled_iff acyclic_chained).mpr
  obtain ⟨k, l, first, second, same⟩ := keys_canonical acyclic_chained
    (filled (.func [.cell ⟨2, "t"⟩] (.cell ⟨1, "t"⟩)) rfl)
    (filled (.func [.named ⟨⟨1, 12⟩, "Case", true⟩ [.generic ⟨⟨1, 1⟩, "b", false⟩]]
      (.cell ⟨2, "t"⟩)) rfl)
  exact ⟨k, l, first, second, same.mpr rfl⟩

end Keys

section Substitution

/-- One replacement after another, said as one: the second is made in what the first puts in
as well. -/
def compose (b : Bindings) (s s' : Substitution) : Substitution :=
  s.map (fun e => (e.1, b.substitute s' e.2)) ++ s'

theorem lookup_compose (b : Bindings) (s s' : Substitution) (g : Tag) :
    (b.compose s s').lookup g = match s.lookup g with
      | some u => some (b.substitute s' u)
      | none => s'.lookup g := by
  rw [compose, List.lookup_append, Ty.lookup_map_snd]
  cases s.lookup g <;> simp

def settleAll (b : Bindings) (s : Substitution) : Substitution := s.map fun e => (e.1, b.settle e.2)

theorem lookup_settleAll (b : Bindings) (s : Substitution) (g : Tag) :
    (b.settleAll s).lookup g = (s.lookup g).map b.settle := Ty.lookup_map_snd s b.settle g

theorem settle_substitute (acyclic : Acyclic b) (s : Substitution) (t : Ty) :
    b.settle (b.substitute s t) = (b.settle t).substitute (b.settleAll s) := by
  rw [substitute]
  split
  · rename_i nothing
    obtain rfl := List.isEmpty_iff.mp nothing
    rw [settleAll, List.map_nil, Ty.substitute_nil]
  · have fixed : ∀ c ∈ (b.settle t).cells, b.settle (.cell c) = .cell c := fun c left =>
      settle_of_unbound (unbound_of_mem_settle acyclic left)
    rw [settle_eq_mapCells, Ty.mapCells_substitute_of_fixed fixed]
    simp only [← settle_eq_mapCells, settleAll]

theorem settleAll_compose (acyclic : Acyclic b) (s s' : Substitution) :
    b.settleAll (b.compose s s') = (b.settleAll s).andThen (b.settleAll s') := by
  simp only [settleAll, compose, Substitution.andThen, List.map_append, List.map_map,
    Function.comp_def, settle_substitute acyclic]

theorem filled_substitute (acyclic : Acyclic b) (filled : b.Filled t)
    (given : ∀ e ∈ s, b.Filled e.2) : b.Filled (b.substitute s t) := by
  rw [filled_iff acyclic] at filled ⊢
  rw [settle_substitute acyclic, List.eq_nil_iff_forall_not_mem]
  intro c left
  rcases Ty.mem_cells_substitute left with left | ⟨p, -, v, found, left⟩
  · rw [filled] at left
    exact List.not_mem_nil left
  · rw [lookup_settleAll, Option.map_eq_some_iff] at found
    obtain ⟨u, found, rfl⟩ := found
    rw [(filled_iff acyclic).mp (given _ (mem_of_lookup found))] at left
    exact List.not_mem_nil left

/-- What a substitution puts in for a variable of a description. -/
def describedBy (b : Bindings) (s : Substitution) (p : Ident) : Except String WitnessExpr :=
  match s.lookup p.tag with
  | some u => b.witness u
  | none => .ok (.var p)

theorem describedBy_settleAll (b : Bindings) (s : Substitution) :
    Ty.describedBy (b.settleAll s) = b.describedBy s := by
  funext p
  rw [Ty.describedBy, describedBy, lookup_settleAll]
  cases s.lookup p.tag <;> rfl

/-- One replacement of type parameters after another comes to a single one. The parameters of
what comes out, each listed once, are those that are not replaced and those of what is put in.
And its description has the descriptions of what is put in for its variables. -/
theorem substitution_composes (acyclic : Acyclic b) (filled : b.Filled t) (s s' : Substitution) :
    (∀ g, (b.compose s s').lookup g = match s.lookup g with
      | some u => some (b.substitute s' u)
      | none => s'.lookup g) ∧
    b.key (b.substitute s' (b.substitute s t)) = b.key (b.substitute (b.compose s s') t) ∧
    ((∀ e ∈ s ++ s', b.Filled e.2) → ∃ k, b.key (b.substitute s' (b.substitute s t)) = .ok k) ∧
    ((b.generics (b.substitute s t)).map (·.tag)).Nodup ∧
    (∀ tag, tag ∈ (b.generics (b.substitute s t)).map (·.tag) ↔
      (tag ∈ (b.generics t).map (·.tag) ∧ s.lookup tag = none) ∨
        ∃ g ∈ (b.generics t).map (·.tag), ∃ u, s.lookup g = some u ∧
          tag ∈ (b.generics u).map (·.tag)) ∧
    ∃ w, b.witness t = .ok w ∧ b.witness (b.substitute s t) = w.replace (b.describedBy s) := by
  refine ⟨lookup_compose b s s', ?_, fun given => ?_, Ty.nodup_generics _, fun tag => ?_,
    (b.settle t).witnessExpr, ?_, ?_⟩
  · rw [key_eq, key_eq, settle_substitute acyclic, settle_substitute acyclic,
      settle_substitute acyclic, Ty.substitute_andThen, settleAll_compose acyclic]
  · rw [List.forall_mem_append] at given
    have once := filled_substitute acyclic filled given.1
    exact ⟨_, key_of_filled acyclic (filled_substitute acyclic once given.2)⟩
  · rw [generics, settle_substitute acyclic]
    simp only [Ty.mem_generics, generics, Ty.mem_tags_substitute, lookup_settleAll,
      Option.map_eq_none_iff, Option.map_eq_some_iff, exists_exists_and_eq_and]
  · exact Ty.whenFinished_of_closed ((filled_iff acyclic).mp filled)
  · rw [witness, settle_substitute acyclic,
      Ty.finishedWitness_substitute ((filled_iff acyclic).mp filled), describedBy_settleAll]

/-- A function of a parameter in place of that parameter. -/
def wrapping : Substitution :=
  [(⟨1, 1⟩, .func [.generic ⟨⟨1, 1⟩, "a", false⟩] (.generic ⟨⟨1, 2⟩, "b", false⟩))]

/-- Types without parameters in place of all of them. -/
def grounding : Substitution := [(⟨1, 1⟩, .bool), (⟨1, 2⟩, .float)]

/-- The parameter stands behind a cell, and it is a parameter again of what is put in for it. -/
theorem chained_composes : ∃ k w,
    chained.key (chained.substitute grounding (chained.substitute wrapping (.cell ⟨2, "t"⟩))) = .ok k ∧
    chained.key (chained.substitute (chained.compose wrapping grounding) (.cell ⟨2, "t"⟩)) = .ok k ∧
    ⟨1, 1⟩ ∈ (chained.generics (chained.substitute wrapping (.cell ⟨2, "t"⟩))).map (·.tag) ∧
    chained.witness (.cell ⟨2, "t"⟩) = .ok w ∧
    chained.witness (chained.substitute wrapping (.cell ⟨2, "t"⟩)) =
      w.replace (chained.describedBy wrapping) := by
  have filled : ∀ t : Ty, (chained.settle t).cells = [] → chained.Filled t := fun t =>
    (filled_iff acyclic_chained).mpr
  have given : ∀ e ∈ wrapping ++ grounding, chained.Filled e.2 := by
    simp only [wrapping, grounding, List.cons_append, List.nil_append, List.forall_mem_cons]
    exact ⟨filled _ rfl, filled _ rfl, filled _ rfl, List.forall_mem_nil _⟩
  obtain ⟨-, keys, some_, -, members, w, first, second⟩ := substitution_composes acyclic_chained
    (filled (.cell ⟨2, "t"⟩) rfl) wrapping grounding
  obtain ⟨k, key⟩ := some_ given
  refine ⟨k, w, key, keys ▸ key, ?_, first, second⟩
  exact (members ⟨1, 1⟩).mpr (Or.inr ⟨⟨1, 1⟩, by decide, _, rfl, by decide⟩)

end Substitution

end WitnessLang.Bindings
