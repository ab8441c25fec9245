import WitnessLang.Proofs.Ir.Naming
import WitnessLang.Proofs.Ir.Draft
import WitnessLang.Proofs.Resolved.Distinct
import Mathlib.Data.List.NodupEquivFin

set_option autoImplicit false

namespace WitnessLang.Ir

open Explicit (environmentName environmentNames)

/-- What a name of a lowered program may stand for. -/
inductive Definition where
  | function (place : Nat)
  /-- The builder of the description of a struct. -/
  | struct (place : Nat)
  /-- The description of a built-in type. -/
  | basic (name : String)
  /-- The descriptions of functions with so many parameters. -/
  | closure (arity : Nat)

def Program.Denotes (p : Program) (name : String) : Definition → Prop
  | .function place => (p.functions.map (·.name))[place]? = some name
  | .struct place => (p.structs.map (·.name))[place]? = some name
  | .basic text => (text = "F64" ∨ text = "Bool") ∧ text = name
  | .closure arity => (functionWitness arity).mangled = name

/-- The names that functions, and the builders of structs, refer to. -/
def Program.mentions (p : Program) : List String :=
  (p.functions.map (·.body) ++ p.structs.map (·.body)).flatMap fun body => (Instr.flattenAll body).flatMap Instr.mentions

/-- The names of the definitions that a program was lowered to. -/
structure Program.Named (typed : Typed.Program) (closures : Nat) (r : Program) : Prop where
  structs : ∃ n, r.structs.map (·.name) = typed.structs.map (·.name.name) ++ environmentNames 0 n
  functions : (r.functions.map (·.name)).Perm (typed.functions.map (·.name.name) ++ (List.range closures).map closureName)
  passed : r.structs.map (·.name) = (Explicit.pass typed).structs.map (·.name.mangled)
  global : typed.functions.map (·.name.mangled) = typed.functions.map (·.name.name)
  onceS : (typed.structs.map (·.name.name)).Nodup
  onceF : (typed.functions.map (·.name.name)).Nodup

section Named

variable {file : Surface.File} {names : List String} {unit : Nat} {typed : Typed.Program}

/-- Global names are the same in generated code. -/
theorem map_mangled {α : Type} {ds : List α} {name : α → Ident} (global : ∀ d ∈ ds, (name d).isGlobal = true) :
    ds.map (fun d => (name d).mangled) = ds.map fun d => (name d).name :=
  List.map_congr_left fun d member => mangled_of_global (global d member)

theorem named_of_lowered (accepted : Sized.Accepted file names unit typed) {target : Target} {q : Sized.Program}
    (measured : Sized.measure (Explicit.pass typed) target = .ok q) {N : Naming} {closures : Nat} {r : Program}
    (lowered : Program.Lowered N q closures r) : r.Named typed closures := by
  obtain ⟨p, table, resolved, checked⟩ := accepted.checked
  obtain ⟨structs, functions⟩ := Typed.check_names checked
  obtain ⟨⟨onceS, globalS⟩, onceF, globalF⟩ := Resolved.resolve_distinct accepted.own resolved
  obtain ⟨depth, made⟩ := accepted.measured measured
  obtain ⟨-, -, ⟨n, passed⟩, -⟩ := Explicit.pass_spelled typed
  have sameS : typed.structs.map (·.name.mangled) = typed.structs.map (·.name.name) := by
    refine map_mangled fun d member => ?_
    obtain ⟨s, own, same⟩ := List.mem_map.mp (structs ▸ List.mem_map_of_mem member)
    exact same ▸ globalS s own
  have sameF : typed.functions.map (·.name.mangled) = typed.functions.map (·.name.name) := by
    refine map_mangled fun f member => ?_
    obtain ⟨g, own, same⟩ := List.mem_map.mp (functions ▸ List.mem_map_of_mem member)
    exact same ▸ globalF g own
  have texts : ∀ {is js : List Ident}, is = js → (js.map (·.name)).Nodup → (is.map (·.name)).Nodup := by
    rintro is js rfl once
    exact once
  have namesS : r.structs.map (·.name) = (Explicit.pass typed).structs.map (·.name.mangled) := by
    calc r.structs.map (·.name)
        = q.structs.map (·.name.mangled) := map_eq_of_forall₂ lowered.structs fun d s own => own.name
      _ = (Explicit.pass typed).structs.map (·.name.mangled) :=
        map_eq_of_forall₂ made.structs fun d s own => by rw [own.name]
  refine ⟨⟨n, by rw [namesS, passed, sameS]⟩, ?_, namesS, sameF, ?_, ?_⟩
  · have kept : q.functions.map (·.name.mangled) = typed.functions.map (·.name.mangled) := by
      have pass := congrArg (List.map Ident.mangled) (Explicit.pass_functions typed)
      rw [List.map_map, List.map_map] at pass
      refine Eq.trans (map_eq_of_forall₂ made.functions fun f g own => ?_) pass
      rw [Function.comp_apply, own.1]
    rw [← sameF, ← kept]
    exact lowered.names
  · have once := texts structs (by rwa [List.map_map])
    rwa [List.map_map] at once
  · have once := texts functions (by rwa [List.map_map])
    rwa [List.map_map] at once

end Named

section Problems

/-- Where single functions are well-formed, all that can be wrong is that two of them share a name. -/
theorem functionProblems_eq_nil {before : List String} {fs : List Function} (each : ∀ f ∈ fs, f.problems = some []) :
    functionProblems before fs = some [] ↔ (fs.map (·.name)).Nodup ∧ ∀ f ∈ fs, f.name ∉ before := by
  induction fs generalizing before with
  | nil => simp [functionProblems]
  | cons f rest ih =>
    rw [List.forall_mem_cons] at each
    have later : functionProblems (f.name :: before) rest = some [] ↔ _ := ih each.2
    rw [functionProblems, each.1]
    simp only [Option.bind_eq_bind, Option.bind_some, Option.bind_eq_some_iff, List.map_cons, List.nodup_cons,
      List.forall_mem_cons]
    constructor
    · rintro ⟨others, done, same⟩
      by_cases taken : f.name ∈ before
      · simp [taken] at same
      · obtain rfl : others = [] := by simpa [taken] using same
        obtain ⟨once, apart⟩ := later.mp done
        refine ⟨⟨fun again => ?_, once⟩, taken, fun g member old => apart g member (List.mem_cons_of_mem _ old)⟩
        obtain ⟨g, member, same⟩ := List.mem_map.mp again
        exact apart g member (same ▸ List.mem_cons_self)
    · rintro ⟨⟨new, once⟩, taken, apart⟩
      refine ⟨[], later.mpr ⟨once, fun g member => ?_⟩, by simp [taken]⟩
      rw [List.mem_cons, not_or]
      exact ⟨fun same => new (same ▸ List.mem_map_of_mem member), apart g member⟩

end Problems

section Denotes

variable {typed : Typed.Program} {closures : Nat} {r : Program} {name : String}

theorem exists_place {names : List String} (member : name ∈ names) : ∃ place : Nat, names[place]? = some name :=
  List.mem_iff_getElem?.mp member

/-- Every name that is used stands for something. -/
theorem exists_denoted {N : Naming} {q : Sized.Program} (lowerable : Lowerable typed N)
    (named : r.Named typed closures) (lowered : Program.Lowered N q closures r) (used : name ∈ r.mentions) :
    ∃ d, r.Denotes name d := by
  have uses : N.Uses closures name := by
    obtain ⟨body, inside, found⟩ := List.mem_flatMap.mp used
    obtain ⟨i, member, mentioned⟩ := List.mem_flatMap.mp found
    rcases List.mem_append.mp inside with function | struct
    · obtain ⟨f, own, rfl⟩ := List.mem_map.mp function
      exact ((lowered.functions f own).fine i member).2 name mentioned
    · obtain ⟨d, own, rfl⟩ := List.mem_map.mp struct
      obtain ⟨s, -, made⟩ := exists_of_forall₂ lowered.structs d own
      exact (made.fine i member).2 name mentioned
  rcases uses with known | ⟨k, small, rfl⟩
  · rcases lowerable.defined name known with rfl | rfl | ⟨n, rfl⟩ | ⟨d, member, rfl⟩ | ⟨f, member, rfl⟩
    · exact ⟨.basic "F64", Or.inl rfl, rfl⟩
    · exact ⟨.basic "Bool", Or.inr rfl, rfl⟩
    · exact ⟨.closure n, rfl⟩
    · obtain ⟨place, found⟩ := exists_place (named.passed ▸ List.mem_map_of_mem member)
      exact ⟨.struct place, found⟩
    · have own : f.name.mangled ∈ typed.functions.map (·.name.name) := named.global ▸ List.mem_map_of_mem member
      obtain ⟨place, found⟩ := exists_place (named.functions.mem_iff.mpr (List.mem_append_left _ own))
      exact ⟨.function place, found⟩
  · obtain ⟨place, found⟩ := exists_place (named.functions.mem_iff.mpr (List.mem_append_right _
      (List.mem_map_of_mem (List.mem_range.mpr small))))
    exact ⟨.function place, found⟩

/-- The names of built-in types, of the descriptions of functions, and of the bodies and the environments of
closures. -/
def Reserved (name : String) : Prop :=
  name = "F64" ∨ name = "Bool" ∨
    ∃ n, name = (functionWitness n).mangled ∨ name = closureName n ∨ name = environmentName n

theorem functionWitness_mangled (n : Nat) : (functionWitness n).mangled = "" ++ toString n ++ "function" := by
  rw [String.empty_append]
  exact mangled_of_global rfl

/-- Such names are not short. -/
theorem Reserved.long {name : String} (reserved : Reserved name) : 3 ≤ name.length := by
  have front : ∀ (a b : String), a.length ≤ (a ++ b).length := fun a b => by
    rw [String.length_append]
    exact Nat.le_add_right _ _
  rcases reserved with rfl | rfl | ⟨n, rfl | rfl | rfl⟩
  · decide
  · decide
  · rw [functionWitness_mangled, String.length_append]
    exact Nat.le_trans (by decide) (Nat.le_add_left _ _)
  · exact Nat.le_trans (by decide) (front _ _)
  · exact Nat.le_trans (by decide) (front _ _)

/-- A declared name that nothing else is known by. -/
structure Unshared (typed : Typed.Program) (name : String) : Prop where
  apart : ¬ (name ∈ typed.structs.map (·.name.name) ∧ name ∈ typed.functions.map (·.name.name))
  free : name ∈ typed.structs.map (·.name.name) ∨ name ∈ typed.functions.map (·.name.name) → ¬ Reserved name

theorem count_append_le_one {as bs : List String} (first : as.Nodup) (second : bs.Nodup)
    (apart : ¬ (name ∈ as ∧ name ∈ bs)) : (as ++ bs).count name ≤ 1 := by
  have once := List.nodup_iff_count_le_one.mp first name
  have once' := List.nodup_iff_count_le_one.mp second name
  rw [List.count_append]
  by_cases member : name ∈ as
  · rw [List.count_eq_zero_of_not_mem (fun other => apart ⟨member, other⟩)]
    exact once
  · rw [List.count_eq_zero_of_not_mem member]
    omega

theorem place_unique {names : List String} (once : names.count name ≤ 1) {i j : Nat} (first : names[i]? = some name)
    (second : names[j]? = some name) : i = j := by
  by_contra apart
  obtain ⟨small, first⟩ := List.getElem?_eq_some_iff.mp first
  obtain ⟨small', second⟩ := List.getElem?_eq_some_iff.mp second
  have twice : List.Duplicate name names := by
    rw [List.duplicate_iff_exists_distinct_get]
    rcases Nat.lt_or_gt_of_ne apart with less | less
    · exact ⟨⟨i, small⟩, ⟨j, small'⟩, less, first.symm, second.symm⟩
    · exact ⟨⟨j, small'⟩, ⟨i, small⟩, less, second.symm, first.symm⟩
  have many := List.duplicate_iff_two_le_count.mp twice
  omega

theorem closureName_ne_environmentName (m n : Nat) : closureName m ≠ environmentName n := fun same =>
  absurd ((numbered_eq (by simp [Stem]) (by simp [Stem])).mp same).1 (by decide)

theorem closureNames_nodup (closures : Nat) : ((List.range closures).map closureName).Nodup :=
  List.nodup_range.map fun _ _ same => ((numbered_eq (by simp [Stem]) (by simp [Stem])).mp same).2

theorem environmentNames_nodup (first last : Nat) : (environmentNames first last).Nodup :=
  (List.nodup_range' 1).map fun _ _ same => ((numbered_eq (by simp [Stem]) (by simp [Stem])).mp same).2

/-- The name of the description of functions ends in a letter. -/
theorem functionWitness_ne (front : String) (m n : Nat) : front ++ toString m ≠ (functionWitness n).mangled := by
  rw [functionWitness_mangled]
  refine numbered_ne ?_ m
  simp [Stem]

theorem functionWitness_inj {m n : Nat} (same : (functionWitness m).mangled = (functionWitness n).mangled) : m = n := by
  rw [functionWitness_mangled, functionWitness_mangled, String.append_left_inj] at same
  exact ((numbered_eq (by simp [Stem]) (by simp [Stem])).mp same).2

theorem functionWitness_ne_builtin (n : Nat) : (functionWitness n).mangled ≠ "F64" ∧ (functionWitness n).mangled ≠ "Bool" := by
  rw [functionWitness_mangled]
  constructor <;> intro same <;> simpa using congrArg (·.toList.getLast?) same

/-- The name of a function is declared, or it is that of a closure. -/
theorem mem_functions (named : r.Named typed closures) : name ∈ r.functions.map (·.name) ↔
    name ∈ typed.functions.map (·.name.name) ∨ ∃ k < closures, name = closureName k := by
  rw [named.functions.mem_iff, List.mem_append, List.mem_map (l := List.range closures)]
  simp [eq_comm]

/-- The name of a struct is declared, or it is that of an environment. -/
theorem mem_structs (named : r.Named typed closures) (own : name ∈ r.structs.map (·.name)) :
    name ∈ typed.structs.map (·.name.name) ∨ ∃ k, name = environmentName k := by
  obtain ⟨n, structs⟩ := named.structs
  rw [structs, List.mem_append] at own
  refine own.imp_right fun made => ?_
  obtain ⟨k, -, rfl⟩ := List.mem_map.mp made
  exact ⟨k, rfl⟩

section Unshared

variable (named : r.Named typed closures) (unshared : Unshared typed name)
include named unshared

theorem functions_once : (r.functions.map (·.name)).count name ≤ 1 := by
  rw [named.functions.count_eq]
  refine count_append_le_one named.onceF (closureNames_nodup closures) fun ⟨declared, made⟩ => ?_
  obtain ⟨k, -, rfl⟩ := List.mem_map.mp made
  exact unshared.free (Or.inr declared) (Or.inr (Or.inr ⟨k, Or.inr (Or.inl rfl)⟩))

theorem structs_once : (r.structs.map (·.name)).count name ≤ 1 := by
  obtain ⟨n, structs⟩ := named.structs
  rw [structs]
  refine count_append_le_one named.onceS (environmentNames_nodup 0 n) fun ⟨declared, made⟩ => ?_
  obtain ⟨k, -, rfl⟩ := List.mem_map.mp made
  exact unshared.free (Or.inl declared) (Or.inr (Or.inr ⟨k, Or.inr (Or.inr rfl)⟩))

theorem not_mem_structs (function : name ∈ r.functions.map (·.name)) : name ∉ r.structs.map (·.name) := by
  intro struct
  rcases (mem_functions named).mp function with declared | ⟨k, -, same⟩ <;>
    rcases mem_structs named struct with declared' | ⟨k', same'⟩
  · exact unshared.apart ⟨declared', declared⟩
  · exact unshared.free (Or.inr declared) (Or.inr (Or.inr ⟨k', Or.inr (Or.inr same')⟩))
  · exact unshared.free (Or.inl declared') (Or.inr (Or.inr ⟨k, Or.inr (Or.inl same)⟩))
  · exact closureName_ne_environmentName k k' (same.symm.trans same')

/-- Neither functions nor structs are known by the names that come with the language. -/
theorem not_builtin (own : name ∈ r.functions.map (·.name) ∨ name ∈ r.structs.map (·.name)) :
    ¬ (name = "F64" ∨ name = "Bool" ∨ ∃ n, name = (functionWitness n).mangled) := by
  have declared : ¬ Reserved name → ¬ (name = "F64" ∨ name = "Bool" ∨ ∃ n, name = (functionWitness n).mangled) := by
    rintro free (float | bool | ⟨n, same⟩)
    · exact free (Or.inl float)
    · exact free (Or.inr (Or.inl bool))
    · exact free (Or.inr (Or.inr ⟨n, Or.inl same⟩))
  have numbered : ∀ (front : String) (k : Nat), name = front ++ toString k → front ++ toString k ≠ "F64" → front ++ toString k ≠ "Bool" →
      ¬ (name = "F64" ∨ name = "Bool" ∨ ∃ n, name = (functionWitness n).mangled) := by
    rintro front k rfl float bool (same | same | ⟨n, same⟩)
    · exact float same
    · exact bool same
    · exact functionWitness_ne front k n same
  rcases own with function | struct
  · rcases (mem_functions named).mp function with own | ⟨k, -, made⟩
    · exact declared (unshared.free (Or.inr own))
    · exact numbered "_closure_" k made (fun same => by simpa using congrArg (·.toList.head?) same)
        fun same => by simpa using congrArg (·.toList.head?) same
  · rcases mem_structs named struct with own | ⟨k, made⟩
    · exact declared (unshared.free (Or.inl own))
    · exact numbered "_Env" k made (fun same => by simpa using congrArg (·.toList.head?) same)
        fun same => by simpa using congrArg (·.toList.head?) same

/-- A name that nothing else is known by stands for one definition only. -/
theorem denoted_unique {d d' : Definition} (first : r.Denotes name d) (second : r.Denotes name d') : d = d' := by
  have function : ∀ {place}, r.Denotes name (.function place) → name ∈ r.functions.map (·.name) := List.mem_of_getElem?
  have struct : ∀ {place}, r.Denotes name (.struct place) → name ∈ r.structs.map (·.name) := List.mem_of_getElem?
  have basic : ∀ {text}, r.Denotes name (.basic text) → (name = "F64" ∨ name = "Bool") ∧ text = name := by
    rintro text ⟨kind, rfl⟩
    exact ⟨kind, rfl⟩
  have apart : ∀ n, r.Denotes name (.closure n) → ¬ (name = "F64" ∨ name = "Bool") := by
    rintro n rfl (same | same)
    · exact (functionWitness_ne_builtin n).1 same
    · exact (functionWitness_ne_builtin n).2 same
  have builtin : ∀ d, (∃ text, d = .basic text) ∨ (∃ n, d = .closure n) → r.Denotes name d →
      name ∉ r.functions.map (·.name) ∧ name ∉ r.structs.map (·.name) := by
    intro d kind denoted
    have known : name = "F64" ∨ name = "Bool" ∨ ∃ n, name = (functionWitness n).mangled := by
      rcases kind with ⟨text, rfl⟩ | ⟨n, rfl⟩
      · exact (basic denoted).1.imp_right Or.inl
      · exact Or.inr (Or.inr ⟨n, denoted.symm⟩)
    exact ⟨fun own => not_builtin named unshared (Or.inl own) known,
      fun own => not_builtin named unshared (Or.inr own) known⟩
  rcases d with i | i | t | n <;> rcases d' with j | j | t' | n'
  · exact congrArg _ (place_unique (functions_once named unshared) first second)
  · exact absurd (struct second) (not_mem_structs named unshared (function first))
  · exact absurd (function first) (builtin _ (Or.inl ⟨t', rfl⟩) second).1
  · exact absurd (function first) (builtin _ (Or.inr ⟨n', rfl⟩) second).1
  · exact absurd (struct first) (not_mem_structs named unshared (function second))
  · exact congrArg _ (place_unique (structs_once named unshared) first second)
  · exact absurd (struct first) (builtin _ (Or.inl ⟨t', rfl⟩) second).2
  · exact absurd (struct first) (builtin _ (Or.inr ⟨n', rfl⟩) second).2
  · exact absurd (function second) (builtin _ (Or.inl ⟨t, rfl⟩) first).1
  · exact absurd (struct second) (builtin _ (Or.inl ⟨t, rfl⟩) first).2
  · rw [(basic first).2, (basic second).2]
  · exact absurd (basic first).1 (apart n' second)
  · exact absurd (function second) (builtin _ (Or.inr ⟨n, rfl⟩) first).1
  · exact absurd (struct second) (builtin _ (Or.inr ⟨n, rfl⟩) first).2
  · exact absurd (basic second).1 (apart n first)
  · exact congrArg _ (functionWitness_inj (first.trans second.symm))

end Unshared

/-- How many closures there are. -/
theorem length_functions (named : r.Named typed closures) : r.functions.length = typed.functions.length + closures := by
  simpa using named.functions.length_eq

/-- A program is well-formed if no declared function is named like the body of a closure. -/
theorem program_problems_eq_nil (named : r.Named typed closures) (each : ∀ f ∈ r.functions, f.problems = some []) :
    r.problems = some [] ↔ ∀ k, typed.functions.length + k < r.functions.length →
      closureName k ∉ typed.functions.map (·.name.name) := by
  have short : ∀ k, typed.functions.length + k < r.functions.length ↔ k < closures := fun k => by
    rw [length_functions named, Nat.add_lt_add_iff_left]
  have apart : (typed.functions.map (·.name.name)).Disjoint ((List.range closures).map closureName) ↔
      ∀ k < closures, closureName k ∉ typed.functions.map (·.name.name) := by
    rw [List.disjoint_right, List.forall_mem_map]
    simp only [List.mem_range]
  rw [Program.problems, functionProblems_eq_nil each, named.functions.nodup_iff, List.nodup_append', apart]
  simp [named.onceF, closureNames_nodup, short]

/-- Structs are told apart by their names if none that is declared is named like an environment. -/
theorem structs_nodup (named : r.Named typed closures)
    (free : ∀ k, typed.structs.length + k < r.structs.length → environmentName k ∉ typed.structs.map (·.name.name)) :
    (r.structs.map (·.name)).Nodup := by
  obtain ⟨n, structs⟩ := named.structs
  have length : r.structs.length = typed.structs.length + n := by
    simpa [environmentNames] using congrArg List.length structs
  rw [structs, List.nodup_append']
  refine ⟨named.onceS, environmentNames_nodup 0 n, List.disjoint_right.mpr fun name made => ?_⟩
  obtain ⟨k, small, rfl⟩ := List.mem_map.mp made
  rw [List.mem_range'_1] at small
  exact free k (by omega)

end Denotes

end WitnessLang.Ir
