import WitnessLang.Proofs.Lists
import WitnessLang.Proofs.Types.Formed
import WitnessLang.Proofs.Types.Unification

set_option autoImplicit false

namespace WitnessLang

/-- The names of a program: of its variables and type parameters, of types, and of functions. -/
structure Spelling where
  bound : Ident → Prop
  type : Ident → Prop
  function : Ident → Prop

mutual

/-- The constructors that a description is built with. -/
def WitnessExpr.constructors : WitnessExpr → List Ident
  | .var _ => []
  | .build constructor args => constructor :: constructorsAll args

/-- The constructors of several descriptions. -/
def WitnessExpr.constructorsAll : List WitnessExpr → List Ident
  | [] => []
  | w :: rest => w.constructors ++ constructorsAll rest

end

theorem WitnessExpr.constructorsAll_eq_flatMap (ws : List WitnessExpr) :
    constructorsAll ws = ws.flatMap constructors := by
  induction ws with
  | nil => rfl
  | cons w rest ih => simp [constructorsAll, ih]

namespace Ty

section Spelled

variable (S : Spelling)

mutual

/-- A type in which all names are those of the program. -/
def Spelled : Ty → Prop
  | .named name args => S.type name ∧ SpelledAll args
  | .generic name => S.bound name
  | .func args result => SpelledAll args ∧ result.Spelled
  | .cell _ => True

def SpelledAll : List Ty → Prop
  | [] => True
  | t :: rest => t.Spelled ∧ SpelledAll rest

end

end Spelled

variable {S : Spelling} {t : Ty}

theorem spelledAll_iff {ts : List Ty} : SpelledAll S ts ↔ ∀ t ∈ ts, t.Spelled S := by
  induction ts with
  | nil => exact iff_of_true trivial (List.forall_mem_nil _)
  | cons t rest ih => exact (and_congr_right' ih).trans List.forall_mem_cons.symm

@[simp] theorem spelled_named {name : Ident} {args : List Ty} :
    (named name args).Spelled S ↔ S.type name ∧ ∀ t ∈ args, t.Spelled S :=
  and_congr_right' spelledAll_iff

@[simp] theorem spelled_generic {name : Ident} : (generic name).Spelled S ↔ S.bound name := Iff.rfl

@[simp] theorem spelled_func {args : List Ty} {result : Ty} :
    (func args result).Spelled S ↔ (∀ t ∈ args, t.Spelled S) ∧ result.Spelled S :=
  and_congr_left' spelledAll_iff

@[simp] theorem spelled_cell {c : Cell} : (cell c).Spelled S := trivial

theorem Spelled.mapCells {f : Cell → Ty} (spelled : t.Spelled S) (each : ∀ c, (f c).Spelled S) :
    (t.mapCells f).Spelled S := by
  induction t with
  | named name args ih =>
    rw [spelled_named] at spelled
    rw [mapCells_named, spelled_named, List.forall_mem_map]
    exact ⟨spelled.1, fun t member => ih t member (spelled.2 t member)⟩
  | generic name => rwa [mapCells_generic]
  | func args result ih ihResult =>
    rw [spelled_func] at spelled
    rw [mapCells_func, spelled_func, List.forall_mem_map]
    exact ⟨fun t member => ih t member (spelled.1 t member), ihResult spelled.2⟩
  | cell c =>
    rw [mapCells_cell]
    exact each c

theorem Spelled.substitute {s : Substitution} (spelled : t.Spelled S) (each : ∀ e ∈ s, e.2.Spelled S) :
    (t.substitute s).Spelled S := by
  induction t with
  | named name args ih =>
    rw [spelled_named] at spelled
    rw [substitute_named, spelled_named, List.forall_mem_map]
    exact ⟨spelled.1, fun t member => ih t member (spelled.2 t member)⟩
  | generic name =>
    rw [substitute_generic]
    cases found : s.lookup name.tag with
    | none => exact spelled
    | some u => exact each _ (mem_of_lookup found)
  | func args result ih ihResult =>
    rw [spelled_func] at spelled
    rw [substitute_func, spelled_func, List.forall_mem_map]
    exact ⟨fun t member => ih t member (spelled.1 t member), ihResult spelled.2⟩
  | cell c => exact spelled

theorem Spelled.mono {T : Spelling} (spelled : t.Spelled S) (bound : ∀ i, S.bound i → T.bound i)
    (type : ∀ i, S.type i → T.type i) : t.Spelled T := by
  induction t with
  | named name args ih =>
    rw [spelled_named] at spelled ⊢
    exact ⟨type name spelled.1, fun t member => ih t member (spelled.2 t member)⟩
  | generic name => exact spelled_generic.mpr (bound name (spelled_generic.mp spelled))
  | func args result ih ihResult =>
    rw [spelled_func] at spelled ⊢
    exact ⟨fun t member => ih t member (spelled.1 t member), ihResult spelled.2⟩
  | cell c => exact spelled_cell

theorem eq_of_map_erase {ts us : List Ty} (each : ∀ t ∈ ts, ∀ u ∈ us, t.Alike u → t = u)
    (same : ts.map erase = us.map erase) : ts = us := by
  induction ts generalizing us with
  | nil => exact (List.map_eq_nil_iff.mp same.symm).symm
  | cons t rest ih =>
    obtain ⟨u, others, rfl, first, same⟩ := List.map_eq_cons_iff.mp same.symm
    rw [each t List.mem_cons_self u List.mem_cons_self first.symm,
      ih (fun t member u inside => each t (List.mem_cons_of_mem _ member) u (List.mem_cons_of_mem _ inside)) same.symm]

/-- Where tags tell names apart, types that are alike are the same. -/
theorem Spelled.eq_of_alike {u : Ty} (bound : ∀ i j, S.bound i → S.bound j → i.tag = j.tag → i = j)
    (type : ∀ i j, S.type i → S.type j → i.tag = j.tag → i = j) (spelled : t.Spelled S) (other : u.Spelled S)
    (alike : t.Alike u) : t = u := by
  induction t generalizing u with
  | named name args ih =>
    cases u with
    | named name' args' =>
      rw [spelled_named] at spelled other
      obtain ⟨tag, same⟩ := alike_named.mp alike
      rw [type name name' spelled.1 other.1 tag, eq_of_map_erase (fun t member u inside =>
        ih t member (spelled.2 t member) (other.2 u inside)) same]
    | _ => simp [Alike] at alike
  | generic name =>
    cases u with
    | generic name' =>
      have tag : name.tag = name'.tag := by simpa [Alike, Ident.erase_inj] using alike
      rw [bound name name' (spelled_generic.mp spelled) (spelled_generic.mp other) tag]
    | _ => simp [Alike] at alike
  | func args result ih ihResult =>
    cases u with
    | func args' result' =>
      rw [spelled_func] at spelled other
      obtain ⟨same, results⟩ := alike_func.mp alike
      rw [ihResult spelled.2 other.2 results, eq_of_map_erase (fun t member u inside =>
        ih t member (spelled.1 t member) (other.1 u inside)) same]
    | _ => simp [Alike] at alike
  | cell c =>
    cases u with
    | cell d => simpa [Alike] using alike
    | _ => simp [Alike] at alike

theorem Spelled.mem_parameters (spelled : t.Spelled S) {p : Ident} (inside : p ∈ t.parameters) :
    S.bound p := by
  induction t with
  | named name args ih =>
    rw [parameters_named, List.mem_flatMap] at inside
    obtain ⟨t, member, inside⟩ := inside
    exact ih t member ((spelled_named.mp spelled).2 t member) inside
  | generic name =>
    rw [parameters_generic, List.mem_singleton] at inside
    exact inside ▸ spelled_generic.mp spelled
  | func args result ih ihResult =>
    rw [parameters_func, List.mem_append, List.mem_flatMap] at inside
    rcases inside with ⟨t, member, inside⟩ | inside
    · exact ih t member ((spelled_func.mp spelled).1 t member) inside
    · exact ihResult (spelled_func.mp spelled).2 inside
  | cell c => simp at inside

/-- A type is described by the names of types, and by what describes functions. -/
theorem Spelled.constructors (spelled : t.Spelled S) :
    ∀ i ∈ t.witnessExpr.constructors, S.type i ∨ ∃ n, i = functionWitness n := by
  induction t with
  | named name args ih =>
    rw [spelled_named] at spelled
    rw [witnessExpr_named, WitnessExpr.constructors, WitnessExpr.constructorsAll_eq_flatMap,
      List.forall_mem_cons]
    refine ⟨Or.inl spelled.1, fun i member => ?_⟩
    obtain ⟨w, inside, member⟩ := List.mem_flatMap.mp member
    obtain ⟨t, part, rfl⟩ := List.mem_map.mp inside
    exact ih t part (spelled.2 t part) i member
  | generic name => simp [witnessExpr, WitnessExpr.constructors]
  | func args result ih ihResult =>
    rw [spelled_func] at spelled
    rw [witnessExpr_func, WitnessExpr.constructors, WitnessExpr.constructorsAll_eq_flatMap,
      List.forall_mem_cons]
    refine ⟨Or.inr ⟨_, rfl⟩, fun i member => ?_⟩
    obtain ⟨w, inside, member⟩ := List.mem_flatMap.mp member
    rcases List.mem_append.mp inside with inside | last
    · obtain ⟨t, part, rfl⟩ := List.mem_map.mp inside
      exact ih t part (spelled.1 t part) i member
    · rw [List.mem_singleton.mp last] at member
      exact ihResult spelled.2 i member
  | cell c => simp [witnessExpr, WitnessExpr.constructors]

end Ty

namespace Bindings

/-- Cells are bound to types in which all names are those of the program. -/
def Spelled (S : Spelling) (b : Bindings) : Prop := ∀ c t, b.value? c = some t → t.Spelled S

variable {S : Spelling} {b : Bindings} {t : Ty}

theorem Spelled.settle (all : b.Spelled S) (spelled : t.Spelled S) : (b.settle t).Spelled S := by
  have within : ∀ n t, t.Spelled S → (b.settleWithin n t).Spelled S := by
    intro n
    induction n with
    | zero => exact fun t spelled => spelled
    | succ n ih =>
      intro t spelled
      rw [settleWithin_step]
      refine spelled.mapCells fun c => ?_
      split
      · exact ih _ (all c _ ‹_›)
      · exact Ty.spelled_cell
  exact within _ t spelled

theorem Spelled.resolve (all : b.Spelled S) (spelled : t.Spelled S) : (b.resolve t).Spelled S := by
  have within : ∀ n t, t.Spelled S → (b.resolveWithin n t).Spelled S := by
    intro n
    induction n with
    | zero => exact fun t spelled => spelled
    | succ n ih =>
      intro t spelled
      cases t with
      | cell c =>
        rw [resolveWithin]
        split
        · exact ih _ (all c _ ‹_›)
        · exact spelled
      | _ => exact spelled
  exact within _ t spelled

end Bindings

namespace Unify

variable {S : Spelling}

/-- A way to make types equal that keeps all names those of the program. -/
def Keeps (S : Spelling) (unify : Ty → Ty → Unify Unit) : Prop :=
  ∀ a b s r s', Ends (unify a b) s r s' → s.Spelled S → a.Spelled S → b.Spelled S → s'.Spelled S

variable {self : Ty → Ty → Unify Unit} {s s' : Bindings} {r : Except Clash Unit}

theorem cell_keeps (keeps : Keeps S self) {c : Cell} {other : Ty} (ended : Ends (cell self c other) s r s')
    (all : s.Spelled S) (spelled : other.Spelled S) : s'.Spelled S := by
  rcases cell_cases ended with ⟨-, rfl⟩ | ⟨-, -, rfl⟩ | ⟨-, -, rfl⟩ | ⟨value, r', bound, ended, -⟩
  · exact all
  · exact all
  · intro d t found
    rw [Bindings.value?_cons] at found
    split at found
    · exact Option.some.inj found ▸ all.resolve spelled
    · exact all d t found
  · exact keeps _ _ _ _ _ ended all (all c value bound) spelled

theorem each_keeps (keeps : Keeps S self) {as bs : List Ty} (ended : Ends (each self as bs) s r s')
    (all : s.Spelled S) (left : ∀ t ∈ as, t.Spelled S) (right : ∀ t ∈ bs, t.Spelled S) : s'.Spelled S := by
  induction as generalizing bs s with
  | nil =>
    obtain ⟨-, rfl⟩ := ends_pure.mp ended
    exact all
  | cons a as ih =>
    cases bs with
    | nil =>
      obtain ⟨-, rfl⟩ := ends_pure.mp ended
      exact all
    | cons b bs =>
      rw [List.forall_mem_cons] at left right
      rw [each, ends_bind] at ended
      rcases ended with ⟨⟨⟩, s₁, first, ended⟩ | ⟨e, failed, -⟩
      · exact ih ended (keeps _ _ _ _ _ first all left.1 right.1) left.2 right.2
      · exact keeps _ _ _ _ _ failed all left.1 right.1

theorem step_keeps (keeps : Keeps S self) : Keeps S (step self) := by
  intro a b s r s' ended all left right
  unfold step at ended
  split at ended
  · exact cell_keeps keeps ended all right
  · exact cell_keeps keeps ended all left
  · split at ended
    · exact each_keeps keeps ended all (Ty.spelled_named.mp left).2 (Ty.spelled_named.mp right).2
    · obtain ⟨-, rfl⟩ := ends_throw.mp ended
      exact all
  · split at ended
    · obtain ⟨-, rfl⟩ := ends_pure.mp ended
      exact all
    · obtain ⟨-, rfl⟩ := ends_throw.mp ended
      exact all
  · rw [Ty.spelled_func] at left right
    split at ended
    · obtain ⟨-, rfl⟩ := ends_throw_bind.mp ended
      exact all
    · rw [ends_bind] at ended
      rcases ended with ⟨⟨⟩, s₁, args, ended⟩ | ⟨e, failed, -⟩
      · exact keeps _ _ _ _ _ ended (each_keeps keeps args all left.1 right.1) left.2 right.2
      · exact each_keeps keeps failed all left.1 right.1
  · obtain ⟨-, rfl⟩ := ends_throw.mp ended
    exact all

/-- Unification makes up no names. -/
theorem types_keeps : Keeps S types := by
  have within : ∀ n, Keeps S (within n) := by
    intro n
    induction n with
    | zero =>
      intro a b s r s' ended all _ _
      obtain ⟨-, rfl⟩ := ends_throw.mp ended
      exact all
    | succ n ih => exact step_keeps ih
  intro a b s r s' ended
  rw [types, ends_get_bind] at ended
  exact within _ a b s r s' ended

end Unify

end WitnessLang
