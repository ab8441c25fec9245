import Mathlib.Algebra.Order.BigOperators.Group.List
import Mathlib.Algebra.Order.Ring.Nat
import Mathlib.Data.List.Chain
import Mathlib.Data.Prod.Lex
import WitnessLang.Proofs.Types.Unification

set_option autoImplicit false

namespace WitnessLang

namespace Ty

mutual

def nodes : Ty → List Ty
  | .named name args => .named name args :: nodesAll args
  | .generic name => [.generic name]
  | .func args result => .func args result :: (nodesAll args ++ result.nodes)
  | .cell c => [.cell c]

def nodesAll : List Ty → List Ty
  | [] => []
  | t :: rest => t.nodes ++ nodesAll rest

end

theorem nodesAll_eq_flatMap (ts : List Ty) : nodesAll ts = ts.flatMap nodes := by
  induction ts with
  | nil => rfl
  | cons t rest ih => exact congrArg (t.nodes ++ ·) ih

theorem sizeAll_eq_sum (ts : List Ty) : sizeAll ts = (ts.map size).sum := by
  induction ts with
  | nil => rfl
  | cons t rest ih => exact congrArg (t.size + ·) ih

section Constructors

variable {name : Ident} {args : List Ty} {result : Ty} {c : Cell}

@[simp] theorem nodes_named : (named name args).nodes = .named name args :: args.flatMap nodes :=
  congrArg (_ :: ·) (nodesAll_eq_flatMap args)

@[simp] theorem nodes_generic : (generic name).nodes = [.generic name] := rfl

@[simp] theorem nodes_func :
    (func args result).nodes = .func args result :: (args.flatMap nodes ++ result.nodes) :=
  congrArg (_ :: · ++ result.nodes) (nodesAll_eq_flatMap args)

@[simp] theorem nodes_cell : (cell c).nodes = [.cell c] := rfl

@[simp] theorem size_named : (named name args).size = 1 + (args.map size).sum :=
  congrArg (1 + ·) (sizeAll_eq_sum args)

@[simp] theorem size_generic : (generic name).size = 1 := rfl

@[simp] theorem size_func : (func args result).size = 1 + (args.map size).sum + result.size :=
  congrArg (1 + · + result.size) (sizeAll_eq_sum args)

@[simp] theorem size_cell : (cell c).size = 1 := rfl

end Constructors

theorem size_le_sum {t : Ty} {ts : List Ty} (member : t ∈ ts) : t.size ≤ (ts.map size).sum :=
  List.le_sum_of_mem (List.mem_map_of_mem member)

theorem mem_nodes_self (t : Ty) : t ∈ t.nodes := by
  cases t <;> simp

theorem length_nodes (t : Ty) : t.nodes.length = t.size := by
  induction t with
  | named name args ih =>
    have each : args.map (List.length ∘ nodes) = args.map size := List.map_congr_left ih
    rw [nodes_named, size_named, List.length_cons, List.length_flatMap, ← each, Function.comp_def]
    omega
  | generic name => rfl
  | func args result ih ihResult =>
    have each : args.map (List.length ∘ nodes) = args.map size := List.map_congr_left ih
    rw [nodes_func, size_func, List.length_cons, List.length_append, List.length_flatMap, ihResult, ← each,
      Function.comp_def]
    omega
  | cell c => rfl

end Ty

namespace Bindings

/-- A type stands right below another: as a part of it, or as what the cell is bound to. -/
inductive Below (s : Bindings) : Ty → Ty → Prop
  | arg {name : Ident} {args : List Ty} {t : Ty} : t ∈ args → Below s t (.named name args)
  | param {args : List Ty} {result t : Ty} : t ∈ args → Below s t (.func args result)
  | result {args : List Ty} {result : Ty} : Below s result (.func args result)
  | bound {c : Cell} {t : Ty} : s.value? c = some t → Below s t (.cell c)

section Below

variable {s s' : Bindings} {t u : Ty}

theorem Below.mono (below : Below s t u) (grown : Extends s s') : Below s' t u := by
  cases below with
  | arg member => exact .arg member
  | param member => exact .param member
  | result => exact .result
  | bound found => exact .bound (grown _ _ found)

theorem Below.valid {valid : Ty → Prop} (closed : Universe valid) (sane : Sane valid s)
    (below : Below s t u) (ok : valid u) : valid t := by
  cases below with
  | arg member => exact closed.args _ _ ok t member
  | param member => exact closed.params _ _ ok t member
  | result => exact closed.result _ _ ok
  | bound found => exact sane.bound _ _ found

/-- A list of types is closed if it holds the parts of each. -/
theorem mem_nodes_of_part (below : Below [] t u) : ∀ {v : Ty}, u ∈ v.nodes → t ∈ v.nodes := by
  intro v
  induction v with
  | named name args ih =>
    simp only [Ty.nodes_named, List.mem_cons, List.mem_flatMap]
    rintro (rfl | ⟨w, member, inside⟩)
    · cases below with
      | arg member => exact Or.inr ⟨t, member, t.mem_nodes_self⟩
    · exact Or.inr ⟨w, member, ih w member inside⟩
  | generic name =>
    rw [Ty.nodes_generic, List.mem_singleton]
    rintro rfl
    cases below
  | func args result ih ihResult =>
    simp only [Ty.nodes_func, List.mem_cons, List.mem_append, List.mem_flatMap]
    rintro (rfl | ⟨w, member, inside⟩ | inside)
    · cases below with
      | param member => exact Or.inr (Or.inl ⟨t, member, t.mem_nodes_self⟩)
      | result => exact Or.inr (Or.inr t.mem_nodes_self)
    · exact Or.inr (Or.inl ⟨w, member, ih w member inside⟩)
    · exact Or.inr (Or.inr (ihResult inside))
  | cell c =>
    rw [Ty.nodes_cell, List.mem_singleton]
    rintro rfl
    cases below with
    | bound found => simp [value?] at found

/-- The least number above the ranks of all cells of a type. -/
def height (rank : Nat → Nat) (t : Ty) : Nat := (t.cells.map fun c => rank c.number + 1).foldr max 0

theorem height_le_iff {rank : Nat → Nat} {n : Nat} :
    height rank t ≤ n ↔ ∀ c ∈ t.cells, rank c.number < n := by
  rw [height]
  induction t.cells with
  | nil => simp
  | cons c rest ih =>
    rw [List.map_cons, List.foldr_cons, Nat.max_le, ih, List.forall_mem_cons]
    exact Iff.rfl

theorem height_mono {rank : Nat → Nat} (cells : t.cells ⊆ u.cells) :
    height rank t ≤ height rank u :=
  height_le_iff.mpr fun c inside => height_le_iff.mp (Nat.le_refl _) c (cells inside)

/-- What falls on every step down: the height, and within one height the size. -/
def depth (rank : Nat → Nat) (t : Ty) : Nat ×ₗ Nat := toLex (height rank t, t.size)

theorem depth_lt_of_part {rank : Nat → Nat} (cells : t.cells ⊆ u.cells) (smaller : t.size < u.size) :
    depth rank t < depth rank u := by
  rw [depth, depth, Prod.Lex.toLex_lt_toLex]
  have low : height rank t ≤ height rank u := height_mono cells
  omega

theorem Below.depth_lt {rank : Nat → Nat}
    (ranked : ∀ c t, s.value? c = some t → ∀ d ∈ t.cells, rank d.number < rank c.number)
    (below : Below s t u) : depth rank t < depth rank u := by
  cases below with
  | @arg name args _ member =>
    have smaller := Ty.size_le_sum member
    apply depth_lt_of_part
    · rw [Ty.cells_named]
      exact fun c inside => List.mem_flatMap.mpr ⟨t, member, inside⟩
    · rw [Ty.size_named]
      omega
  | @param args result _ member =>
    have smaller := Ty.size_le_sum member
    apply depth_lt_of_part
    · rw [Ty.cells_func]
      exact fun c inside => List.mem_append_left _ (List.mem_flatMap.mpr ⟨t, member, inside⟩)
    · rw [Ty.size_func]
      omega
  | @result args _ =>
    apply depth_lt_of_part
    · rw [Ty.cells_func]
      exact List.subset_append_right _ _
    · rw [Ty.size_func]
      omega
  | @bound c _ found =>
    have low : height rank t ≤ rank c.number := height_le_iff.mpr (ranked c t found)
    have high : height rank (.cell c) = rank c.number + 1 := by simp [height]
    rw [depth, depth, Prod.Lex.toLex_lt_toLex, high]
    omega

/-- A way down through types, from the last to the first. -/
abbrev Path (s : Bindings) (types : List Ty) : Prop := types.IsChain (Below s)

theorem Path.mono {types : List Ty} (path : Path s types) (grown : Extends s s') : Path s' types :=
  path.imp fun _ _ below => below.mono grown

theorem Path.nodup {types : List Ty} (acyclic : Acyclic s) (path : Path s types) : types.Nodup := by
  obtain ⟨rank, ranked⟩ := acyclic
  have falling : (types.map (depth rank)).IsChain (· < ·) := by
    rw [List.isChain_map]
    exact path.imp fun _ _ below => below.depth_lt ranked
  apply (List.pairwise_map.mp (List.isChain_iff_pairwise.mp falling)).imp
  rintro t u lower rfl
  exact lt_irrefl _ lower

end Below

end Bindings

namespace Unify

open Bindings

/-- To make two types equal, two others have to be made equal first. -/
inductive Calls (s : Bindings) : Ty → Ty → Ty → Ty → Prop
  | left {c : Cell} {t b : Ty} : s.value? c = some t → Calls s (.cell c) b t b
  | right {c : Cell} {t a : Ty} : s.value? c = some t → Calls s a (.cell c) t a
  | arg {m n : Ident} {as bs : List Ty} {a b : Ty} : (a, b) ∈ as.zip bs →
    Calls s (.named m as) (.named n bs) a b
  | param {as bs : List Ty} {r q a b : Ty} : (a, b) ∈ as.zip bs →
    Calls s (.func as r) (.func bs q) a b
  | result {as bs : List Ty} {a b : Ty} : Calls s (.func as a) (.func bs b) a b

variable {valid : Ty → Prop} {self self' : Ty → Ty → Unify Unit} {s s' : Bindings} {a b x y : Ty}
  {r : Except Clash Unit}

/-- A call goes down on one side or on both; through a cell on the right the sides turn. -/
theorem Calls.cases (calls : Calls s a b x y) :
    (Below s x a ∧ Below s y b) ∨ (Below s x a ∧ y = b) ∨ (Below s x b ∧ y = a) := by
  cases calls with
  | left found => exact Or.inr (Or.inl ⟨.bound found, rfl⟩)
  | right found => exact Or.inr (Or.inr ⟨.bound found, rfl⟩)
  | arg member =>
    have both := List.of_mem_zip member
    exact Or.inl ⟨.arg both.1, .arg both.2⟩
  | param member =>
    have both := List.of_mem_zip member
    exact Or.inl ⟨.param both.1, .param both.2⟩
  | result => exact Or.inl ⟨.result, .result⟩

theorem Calls.known (closed : Universe valid) (sane : Sane valid s) (calls : Calls s a b x y)
    (okA : valid a) (okB : valid b) : valid x ∧ valid y := by
  rcases calls.cases with ⟨left, right⟩ | ⟨left, rfl⟩ | ⟨right, rfl⟩
  · exact ⟨left.valid closed sane okA, right.valid closed sane okB⟩
  · exact ⟨left.valid closed sane okA, okB⟩
  · exact ⟨right.valid closed sane okB, okA⟩

/-- At most so many calls are one below the other, whatever else gets bound meanwhile. -/
def Bounded (valid : Ty → Prop) : Nat → Bindings → Ty → Ty → Prop
  | 0, _, _, _ => False
  | n + 1, s, a, b => ∀ s₁ x y, Extends s s₁ → Sane valid s₁ → Calls s₁ a b x y →
    Bounded valid n s₁ x y

/-- The ways down to two types are as long as the types known, so few calls are left. -/
theorem bounded_of_paths (closed : Universe valid) {known : List Ty} (all : ∀ t, valid t → t ∈ known)
    (n : Nat) {s : Bindings} {x y : Ty} {left right : List Ty} (sane : Sane valid s)
    (pathX : Path s (x :: left)) (pathY : Path s (y :: right)) (okX : ∀ t ∈ x :: left, valid t)
    (okY : ∀ t ∈ y :: right, valid t)
    (enough : 2 * known.length ≤ n + left.length + right.length + 1) : Bounded valid n s x y := by
  induction n generalizing s x y left right with
  | zero =>
    have shortX := (List.subperm_of_subset (pathX.nodup sane.acyclic) fun t member =>
      all t (okX t member)).length_le
    have shortY := (List.subperm_of_subset (pathY.nodup sane.acyclic) fun t member =>
      all t (okY t member)).length_le
    rw [List.length_cons] at shortX shortY
    omega
  | succ n ih =>
    intro s₁ x' y' grown sane₁ calls
    have pathX₁ := pathX.mono grown
    have pathY₁ := pathY.mono grown
    have ok := calls.known closed sane₁ (okX x List.mem_cons_self) (okY y List.mem_cons_self)
    have okX₁ := List.forall_mem_cons.mpr ⟨ok.1, okX⟩
    rcases calls.cases with ⟨belowX, belowY⟩ | ⟨belowX, rfl⟩ | ⟨belowY, rfl⟩
    · apply ih sane₁ (pathX₁.cons_cons belowX) (pathY₁.cons_cons belowY) okX₁
        (List.forall_mem_cons.mpr ⟨ok.2, okY⟩)
      simp only [List.length_cons]
      omega
    · apply ih sane₁ (pathX₁.cons_cons belowX) pathY₁ okX₁ okY
      simp only [List.length_cons]
      omega
    · apply ih sane₁ (pathY₁.cons_cons belowY) pathX₁ (List.forall_mem_cons.mpr ⟨ok.1, okY⟩) okX
      simp only [List.length_cons]
      omega

theorem bounded_of_known (closed : Universe valid) {known : List Ty} (all : ∀ t, valid t → t ∈ known)
    {n : Nat} (sane : Sane valid s) (okA : valid a) (okB : valid b)
    (enough : 2 * known.length ≤ n + 1) : Bounded valid n s a b := by
  have pathA : Path s [a] := .singleton a
  have pathB : Path s [b] := .singleton b
  exact bounded_of_paths closed all n sane pathA pathB (by simpa using okA) (by simpa using okB)
    (by simpa using enough)

/-- Whether pairs are made equal one way or another is the same if it is for each pair. -/
theorem each_agrees (sound : Sound valid self) {as bs : List Ty}
    (ended : Ends (each self as bs) s r s') (sane : Sane valid s) (okA : ∀ t ∈ as, valid t)
    (okB : ∀ t ∈ bs, valid t)
    (agree : ∀ s₁ x y r s₂, Extends s s₁ → Sane valid s₁ → (x, y) ∈ as.zip bs →
      Ends (self x y) s₁ r s₂ → Ends (self' x y) s₁ r s₂) : Ends (each self' as bs) s r s' := by
  induction as generalizing bs s with
  | nil =>
    rw [each] at ended ⊢
    · exact ended
    · simp
    · simp
  | cons a as ih =>
    cases bs with
    | nil =>
      rw [each] at ended ⊢
      · exact ended
      · simp
      · simp
    | cons b bs =>
      rw [List.forall_mem_cons] at okA okB
      rw [each, ends_bind] at ended ⊢
      rcases ended with ⟨⟨⟩, s₁, first, rest⟩ | ⟨e, failed, rfl⟩
      · have here := sound _ _ _ _ _ first sane okA.1 okB.1
        refine Or.inl ⟨(), s₁, agree _ _ _ _ _ (.refl s) sane List.mem_cons_self first, ?_⟩
        exact ih rest here.sane okA.2 okB.2 fun s₂ x y r s₃ grown sane₂ member =>
          agree s₂ x y r s₃ (here.grown.trans grown) sane₂ (List.mem_cons_of_mem _ member)
      · exact Or.inr ⟨e, agree _ _ _ _ _ (.refl s) sane List.mem_cons_self failed, rfl⟩

theorem cell_agrees {c : Cell} {other : Ty} (ended : Ends (cell self c other) s r s')
    (agree : ∀ value r s₁, s.value? c = some value → Ends (self value other) s r s₁ →
      Ends (self' value other) s r s₁) : Ends (cell self' c other) s r s' := by
  by_cases itself : other = .cell c
  · subst itself
    simp only [cell, ↓reduceIte, ends_pure] at ended ⊢
    exact ended
  · rw [cell_eq_attach itself, attach, ends_get_bind] at ended ⊢
    cases bound : s.value? c with
    | none =>
      simp only [bound] at ended ⊢
      exact ended
    | some value =>
      simp only [bound, ends_tryCatch] at ended ⊢
      rcases ended with ⟨⟨⟩, done, rfl⟩ | ⟨clash, s₁, failed, ended⟩
      · exact Or.inl ⟨(), agree value _ _ bound done, rfl⟩
      · exact Or.inr ⟨clash, s₁, agree value _ _ bound failed, ended⟩

/-- Two ways to make types equal that agree on the calls agree on the whole. -/
theorem step_agrees (closed : Universe valid) (sound : Sound valid self)
    (ended : Ends (step self a b) s r s') (sane : Sane valid s) (okA : valid a) (okB : valid b)
    (agree : ∀ s₁ x y r s₂, Extends s s₁ → Sane valid s₁ → Calls s₁ a b x y →
      Ends (self x y) s₁ r s₂ → Ends (self' x y) s₁ r s₂) : Ends (step self' a b) s r s' := by
  unfold step at ended ⊢
  split at ended
  · exact cell_agrees ended fun value r s₁ found =>
      agree s value _ r s₁ (.refl s) sane (.left found)
  · rename_i c _
    exact cell_agrees ended fun value r s₁ found =>
      agree s value _ r s₁ (.refl s) sane (.right found)
  · rename_i m as n bs
    split at ended
    · rename_i same
      simp only [if_pos same]
      exact each_agrees sound ended sane (closed.args m as okA) (closed.args n bs okB)
        fun s₁ x y r s₂ grown sane₁ member => agree s₁ x y r s₂ grown sane₁ (.arg member)
    · rename_i other
      simp only [if_neg other]
      exact ended
  · exact ended
  · rename_i as a bs b
    split at ended
    · rename_i other
      simp only [if_pos other]
      exact ended
    · rename_i same
      simp only [if_neg same]
      rw [ends_bind] at ended ⊢
      have params : ∀ {r s'}, Ends (each self as bs) s r s' → Ends (each self' as bs) s r s' :=
        fun ended => each_agrees sound ended sane (closed.params as a okA)
          (closed.params bs b okB)
          fun s₁ x y r s₂ grown sane₁ member => agree s₁ x y r s₂ grown sane₁ (.param member)
      rcases ended with ⟨⟨⟩, s₁, args, rest⟩ | ⟨e, failed, rfl⟩
      · have here := each_unified sound (not_not.mp same) args sane (closed.params as a okA)
          (closed.params bs b okB)
        exact Or.inl ⟨(), s₁, params args, agree s₁ a b r s' here.2.1 here.1 .result rest⟩
      · exact Or.inr ⟨e, params failed, rfl⟩
  · exact ended

theorem within_eq_iterate (n : Nat) : within n = step^[n] fun _ _ => throw .shapes := by
  induction n with
  | zero => rfl
  | succ n ih => rw [within, ih, Function.iterate_succ_apply']

/-- Where calls are bounded, what would happen beyond the bound never matters. -/
theorem deep_of_bounded (closed : Universe valid) {n : Nat} (bounded : Bounded valid n s a b)
    (sane : Sane valid s) (okA : valid a) (okB : valid b) (ended : Ends (within n a b) s r s')
    (self : Ty → Ty → Unify Unit) : Ends ((step^[n] self) a b) s r s' := by
  induction n generalizing s a b r s' with
  | zero => exact bounded.elim
  | succ n ih =>
    rw [Function.iterate_succ_apply']
    apply step_agrees closed (within_sound closed n) ended sane okA okB
    intro s₁ x y r s₂ grown sane₁ calls ended
    have ok := calls.known closed sane₁ okA okB
    exact ih (bounded s₁ x y grown sane₁ calls) sane₁ ok.1 ok.2 ended

/-- Making two types equal comes to an end: after finitely many calls one below the other there
is nothing left to do, so it does not matter what would be done then. -/
def Comes (a b : Ty) (s : Bindings) (r : Except Clash Unit) (s' : Bindings) : Prop :=
  ∃ n, ∀ self, Ends ((step^[n] self) a b) s r s'

theorem Comes.deeper {n m : Nat} (comes : ∀ self, Ends ((step^[n] self) a b) s r s') (more : n ≤ m)
    (self : Ty → Ty → Unify Unit) : Ends ((step^[m] self) a b) s r s' := by
  obtain ⟨k, rfl⟩ := Nat.exists_eq_add_of_le more
  rw [Function.iterate_add_apply]
  exact comes _

/-- There is at most one end. -/
theorem Comes.unique {r₂ : Except Clash Unit} {s₂ : Bindings} (first : Comes a b s r s')
    (second : Comes a b s r₂ s₂) : r = r₂ ∧ s' = s₂ := by
  obtain ⟨n, first⟩ := first
  obtain ⟨m, second⟩ := second
  have here := Comes.deeper first (Nat.le_max_left n m) fun _ _ => throw .shapes
  have there := Comes.deeper second (Nat.le_max_right n m) fun _ _ => throw .shapes
  exact here.unique there

/-- The types that making two types equal may meet. -/
def met (s : Bindings) (a b : Ty) : List Ty := a.nodes ++ b.nodes ++ s.flatMap (·.2.nodes)

theorem length_met (s : Bindings) (a b : Ty) : (met s a b).length = a.size + b.size + s.size := by
  have bound : (s.flatMap (·.2.nodes)).length = s.size := by
    unfold Bindings.size
    induction s with
    | nil => rfl
    | cons p rest ih => rw [List.flatMap_cons, List.length_append, ih, Ty.length_nodes, List.foldr_cons]
  rw [met, List.length_append, List.length_append, bound, Ty.length_nodes, Ty.length_nodes]

theorem mem_met_of_part {s₀ : Bindings} {a₀ b₀ : Ty} (below : Below [] x y)
    (member : y ∈ met s₀ a₀ b₀) : x ∈ met s₀ a₀ b₀ := by
  simp only [met, List.mem_append, List.mem_flatMap] at member ⊢
  rcases member with (inside | inside) | ⟨p, member, inside⟩
  · exact Or.inl (Or.inl (mem_nodes_of_part below inside))
  · exact Or.inl (Or.inr (mem_nodes_of_part below inside))
  · exact Or.inr ⟨p, member, mem_nodes_of_part below inside⟩

/-- The types of a universe that may be met are a universe, and there are finitely many. -/
theorem universe_met (closed : Universe valid) (s : Bindings) (a b : Ty) :
    Universe fun t => valid t ∧ t ∈ met s a b where
  args name args ok t member := ⟨closed.args name args ok.1 t member,
    mem_met_of_part (.arg member) ok.2⟩
  params args result ok t member := ⟨closed.params args result ok.1 t member,
    mem_met_of_part (.param member) ok.2⟩
  result args result ok := ⟨closed.result args result ok.1, mem_met_of_part .result ok.2⟩
  apart c d okC okD := closed.apart c d okC.1 okD.1

theorem sane_met (sane : Sane valid s) (a b : Ty) : Sane (fun t => valid t ∧ t ∈ met s a b) s where
  acyclic := sane.acyclic
  bound c t found := by
    obtain ⟨before, after, split, -⟩ := List.lookup_eq_some_iff.mp found
    refine ⟨sane.bound c t found, List.mem_append_right _ (List.mem_flatMap.mpr ⟨(c.number, t), ?_,
      t.mem_nodes_self⟩)⟩
    simp [split]

theorem mem_met_left (s : Bindings) (a b : Ty) : a ∈ met s a b :=
  List.mem_append_left _ (List.mem_append_left _ a.mem_nodes_self)

theorem mem_met_right (s : Bindings) (a b : Ty) : b ∈ met s a b :=
  List.mem_append_left _ (List.mem_append_right _ b.mem_nodes_self)

/-- However deep unification may go beyond twice the types it can meet, it ends the same way. -/
theorem deep_of_ends (closed : Universe valid) (sane : Sane valid s) (okA : valid a) (okB : valid b)
    (ended : Ends (types a b) s r s') {n : Nat} (enough : 2 * (a.size + b.size + s.size) ≤ n)
    (self : Ty → Ty → Unify Unit) : Ends ((step^[n] self) a b) s r s' := by
  have closed' := universe_met closed s a b
  have sane' := sane_met sane a b
  have okA' : valid a ∧ a ∈ met s a b := ⟨okA, mem_met_left s a b⟩
  have okB' : valid b ∧ b ∈ met s a b := ⟨okB, mem_met_right s a b⟩
  have bounded := bounded_of_known (n := 2 * (a.size + b.size + s.size)) closed'
    (fun t ok => ok.2) sane' okA' okB' (by rw [length_met]; omega)
  cases ends : outcome (within (2 * (a.size + b.size + s.size)) a b) s with
  | mk r₁ s₁ =>
    have deep := deep_of_bounded closed' bounded sane' okA' okB' ends
    have same : Ends (types a b) s r₁ s₁ := by
      rw [types, ends_get_bind, within_eq_iterate]
      exact Comes.deeper deep (by omega) _
    obtain ⟨rfl, rfl⟩ := ended.unique same
    exact Comes.deeper deep enough self

/-- Unification always comes to an end, and it is the end found with a bound on its depth. -/
theorem comes_iff (closed : Universe valid) (sane : Sane valid s) (okA : valid a) (okB : valid b) :
    Comes a b s r s' ↔ Ends (types a b) s r s' := by
  have comes : ∀ {r s'}, Ends (types a b) s r s' → Comes a b s r s' := fun ended =>
    ⟨_, deep_of_ends closed sane okA okB ended (Nat.le_refl _)⟩
  refine ⟨fun end' => ?_, comes⟩
  cases ends : outcome (types a b) s with
  | mk r₁ s₁ =>
    obtain ⟨rfl, rfl⟩ := end'.unique (comes ends)
    exact ends

/-- Unification without any bound on its depth: it makes parts equal as it does the whole. -/
theorem types_unfold (closed : Universe valid) (sane : Sane valid s) (okA : valid a) (okB : valid b) :
    Ends (types a b) s r s' ↔ Ends (step types a b) s r s' := by
  have unfold : ∀ {r s'}, Ends (types a b) s r s' → Ends (step types a b) s r s' := by
    intro r s' ended
    have closed' := universe_met closed s a b
    have okA' : valid a ∧ a ∈ met s a b := ⟨okA, mem_met_left s a b⟩
    have okB' : valid b ∧ b ∈ met s a b := ⟨okB, mem_met_right s a b⟩
    have deep := deep_of_ends closed sane okA okB ended
      (n := 2 * (a.size + b.size + s.size) + 1) (by omega) fun _ _ => throw .shapes
    rw [Function.iterate_succ_apply', ← within_eq_iterate] at deep
    apply step_agrees closed' (within_sound closed' _) deep (sane_met sane a b) okA' okB'
    intro s₁ x y r s₂ grown sane₁ calls ended
    have ok := calls.known closed' sane₁ okA' okB'
    have bounded := bounded_of_known (n := 2 * (a.size + b.size + s.size)) closed'
      (fun t ok => ok.2) sane₁ ok.1 ok.2 (by rw [length_met]; omega)
    rw [← comes_iff closed' sane₁ ok.1 ok.2]
    exact ⟨_, deep_of_bounded closed' bounded sane₁ ok.1 ok.2 ended⟩
  refine ⟨unfold, fun ended => ?_⟩
  cases ends : outcome (types a b) s with
  | mk r₁ s₁ =>
    obtain ⟨rfl, rfl⟩ := ended.unique (unfold ends)
    exact ends

end Unify

end WitnessLang
