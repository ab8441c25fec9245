import WitnessLang.Proofs.Lists
import WitnessLang.Proofs.Types.Structure
import WitnessLang.Types.Witness

set_option autoImplicit false

namespace WitnessLang

/-- One replacement after another: the second is made in what the first puts in as well. -/
def Substitution.andThen (s s' : Substitution) : Substitution :=
  s.map (fun e => (e.1, e.2.substitute s')) ++ s'

namespace Ty

variable {s s' : Substitution} {t : Ty}

/-- Only what is put in for the parameters of a type matters to it. -/
theorem substitute_congr (same : ∀ p ∈ t.parameters, s.lookup p.tag = s'.lookup p.tag) :
    t.substitute s = t.substitute s' := by
  induction t with
  | named name args ih =>
    simp only [parameters_named, List.mem_flatMap, forall_exists_index, and_imp] at same
    simp only [substitute_named, named.injEq, true_and]
    exact List.map_congr_left fun t member => ih t member fun p inside => same p t member inside
  | generic name => rw [substitute_generic, substitute_generic, same name (by simp)]
  | func args result ih ihResult =>
    simp only [parameters_func, List.mem_append, List.mem_flatMap] at same
    simp only [substitute_func, func.injEq]
    refine ⟨List.map_congr_left fun t member => ih t member fun p inside => ?_, ?_⟩
    · exact same p (Or.inl ⟨t, member, inside⟩)
    · exact ihResult fun p inside => same p (Or.inr inside)
  | cell c => rfl

theorem substitute_nil (t : Ty) : t.substitute [] = t := by
  induction t with
  | named name args ih => simpa using List.map_congr_left (g := id) ih
  | generic name => simp
  | func args result ih ihResult => simpa [ihResult] using List.map_congr_left (g := id) ih
  | cell c => simp

theorem substitute_andThen (t : Ty) (s s' : Substitution) :
    (t.substitute s).substitute s' = t.substitute (s.andThen s') := by
  induction t with
  | named name args ih => simpa using ih
  | generic name =>
    rw [substitute_generic, substitute_generic, Substitution.andThen, List.lookup_append,
      lookup_map_snd]
    cases s.lookup name.tag <;> simp
  | func args result ih ihResult => simpa [ihResult] using ih
  | cell c => simp

theorem parameters_substitute (t : Ty) (s : Substitution) :
    (t.substitute s).parameters =
      t.parameters.flatMap fun p => ((s.lookup p.tag).map parameters).getD [p] := by
  induction t with
  | named name args ih =>
    rw [substitute_named, parameters_named, parameters_named, List.flatMap_map, List.flatMap_assoc]
    exact List.flatMap_congr ih
  | generic name =>
    rw [substitute_generic]
    cases found : s.lookup name.tag <;> simp [found]
  | func args result ih ihResult =>
    rw [substitute_func, parameters_func, parameters_func, List.flatMap_map, List.flatMap_append,
      List.flatMap_assoc, ihResult, List.flatMap_congr ih]
  | cell c => rfl

/-- The parameters that stay, and those of what is put in. -/
theorem mem_tags_substitute {tag : Tag} : tag ∈ (t.substitute s).parameters.map (·.tag) ↔
    (tag ∈ t.parameters.map (·.tag) ∧ s.lookup tag = none) ∨
      ∃ g ∈ t.parameters.map (·.tag), ∃ u, s.lookup g = some u ∧
        tag ∈ u.parameters.map (·.tag) := by
  rw [parameters_substitute, List.map_flatMap, List.mem_flatMap]
  constructor
  · rintro ⟨p, member, inside⟩
    cases found : s.lookup p.tag with
    | none =>
      obtain rfl : tag = p.tag := by simpa [found] using inside
      exact Or.inl ⟨List.mem_map_of_mem member, found⟩
    | some u =>
      rw [found, Option.map_some, Option.getD_some] at inside
      exact Or.inr ⟨p.tag, List.mem_map_of_mem member, u, found, inside⟩
  · rintro (⟨own, kept⟩ | ⟨g, own, u, found, inside⟩)
    · obtain ⟨p, member, rfl⟩ := List.mem_map.mp own
      exact ⟨p, member, by simp [kept]⟩
    · obtain ⟨p, member, rfl⟩ := List.mem_map.mp own
      exact ⟨p, member, by rwa [found, Option.map_some, Option.getD_some]⟩

end Ty

theorem addIdents_cons (known : List Ident) (i : Ident) (rest : List Ident) :
    addIdents known (i :: rest) =
      addIdents (if known.any (·.tag == i.tag) then known else known ++ [i]) rest := rfl

theorem mem_addIdents {known more : List Ident} {tag : Tag} :
    tag ∈ (addIdents known more).map (·.tag) ↔ tag ∈ known.map (·.tag) ∨ tag ∈ more.map (·.tag) := by
  induction more generalizing known with
  | nil => simp [addIdents]
  | cons i rest ih =>
    rw [addIdents_cons, ih]
    split
    · rename_i old
      obtain ⟨j, member, same⟩ := List.any_eq_true.mp old
      have same : j.tag = i.tag := eq_of_beq same
      constructor
      · exact Or.imp id (List.mem_cons_of_mem _)
      · rintro (old | new)
        · exact Or.inl old
        · rcases List.mem_cons.mp new with rfl | new
          · exact Or.inl (List.mem_map.mpr ⟨j, member, same⟩)
          · exact Or.inr new
    · simp only [List.map_append, List.map_cons, List.map_nil, List.mem_append, List.mem_cons,
        List.not_mem_nil, or_false]
      tauto

theorem mem_of_addIdents {known more : List Ident} {i : Ident} (member : i ∈ addIdents known more) :
    i ∈ known ∨ i ∈ more := by
  induction more generalizing known with
  | nil => exact Or.inl member
  | cons j rest ih =>
    rw [addIdents_cons] at member
    rcases ih member with old | later
    · split at old
      · exact Or.inl old
      · rcases List.mem_append.mp old with old | new
        · exact Or.inl old
        · exact Or.inr (List.mem_singleton.mp new ▸ List.mem_cons_self)
    · exact Or.inr (List.mem_cons_of_mem _ later)

theorem nodup_addIdents {known more : List Ident} (once : (known.map (·.tag)).Nodup) :
    ((addIdents known more).map (·.tag)).Nodup := by
  induction more generalizing known with
  | nil => exact once
  | cons i rest ih =>
    rw [addIdents_cons]
    refine ih ?_
    split
    · exact once
    · rename_i fresh
      rw [List.map_append, List.nodup_append']
      refine ⟨once, by simp, fun t old new => fresh ?_⟩
      obtain ⟨j, member, rfl⟩ := List.mem_map.mp old
      refine List.any_eq_true.mpr ⟨j, member, ?_⟩
      simpa using new

namespace Ty

theorem mem_generics {t : Ty} {tag : Tag} :
    tag ∈ t.generics.map (·.tag) ↔ tag ∈ t.parameters.map (·.tag) := by
  rw [generics, mem_addIdents]
  simp

theorem nodup_generics (t : Ty) : (t.generics.map (·.tag)).Nodup := nodup_addIdents (by simp)

def whenFinished {α : Type} (complaint : String) (answer : Ty → α) (t : Ty) : Except String α :=
  match t.cells with
  | [] => .ok (answer t)
  | c :: _ => .error (complaint ++ (cell c).render)

section Answers

variable {α : Type} {complaint : String} {answer : Ty → α}

theorem whenFinished_of_closed {t : Ty} (closed : t.cells = []) :
    whenFinished complaint answer t = .ok (answer t) := by
  rw [whenFinished, closed]

theorem mapM_whenFinished (ts : List Ty) : ts.mapM (whenFinished complaint answer) =
    match ts.flatMap cells with
    | [] => .ok (ts.map answer)
    | c :: _ => .error (complaint ++ (cell c).render) := by
  induction ts with
  | nil => rfl
  | cons t rest ih =>
    rw [List.mapM_cons, ih, List.flatMap_cons, whenFinished]
    cases t.cells with
    | nil => cases rest.flatMap cells <;> rfl
    | cons c more => rfl

theorem whenFinished_named {name : Ident} {args : List Ty} (join : List α → α)
    (whole : answer (.named name args) = join (args.map answer)) :
    whenFinished complaint answer (.named name args) =
      (args.mapM (whenFinished complaint answer)).map join := by
  rw [mapM_whenFinished, whenFinished, cells_named, whole]
  cases args.flatMap cells <;> rfl

theorem whenFinished_func {args : List Ty} {result : Ty} (join : List α → α → α)
    (whole : answer (.func args result) = join (args.map answer) (answer result)) :
    whenFinished complaint answer (.func args result) = (do
      let parts ← args.mapM (whenFinished complaint answer)
      let last ← whenFinished complaint answer result
      return join parts last) := by
  rw [mapM_whenFinished, whenFinished, whenFinished, cells_func, whole]
  cases args.flatMap cells with
  | nil => cases result.cells <;> rfl
  | cons c more => rfl

end Answers

end Ty

namespace WitnessExpr

section Replacement

variable (description : Ident → Except String WitnessExpr)

mutual

/-- A description with descriptions put in for its variables, if there are such for all of
them. -/
def replace : WitnessExpr → Except String WitnessExpr
  | .var name => description name
  | .build constructor args => return .build constructor (← replaceAll args)

def replaceAll : List WitnessExpr → Except String (List WitnessExpr)
  | [] => return []
  | w :: rest => return (← replace w) :: (← replaceAll rest)

end

theorem replaceAll_eq_mapM (ws : List WitnessExpr) :
    replaceAll description ws = ws.mapM (replace description) := by
  induction ws with
  | nil => rfl
  | cons w rest ih => rw [replaceAll, ih, List.mapM_cons]

end Replacement

end WitnessExpr

namespace Ty

theorem witnessExprs_eq_map (ts : List Ty) : witnessExprs ts = ts.map witnessExpr := by
  induction ts with
  | nil => rfl
  | cons t rest ih => simp [witnessExprs, ih]

theorem witnessExpr_named (name : Ident) (args : List Ty) :
    (named name args).witnessExpr = .build name (args.map witnessExpr) :=
  congrArg (WitnessExpr.build name) (witnessExprs_eq_map args)

theorem witnessExpr_func (args : List Ty) (result : Ty) : (func args result).witnessExpr =
    .build (functionWitness args.length) (args.map witnessExpr ++ [result.witnessExpr]) :=
  congrArg (fun parts => WitnessExpr.build (functionWitness args.length) (parts ++ [result.witnessExpr]))
    (witnessExprs_eq_map args)

theorem finishedWitness_eq : finishedWitness =
    whenFinished "typepass: witness of unresolved type " witnessExpr := rfl

theorem finishedWitness_named (name : Ident) (args : List Ty) :
    (named name args).finishedWitness = (args.mapM finishedWitness).map (WitnessExpr.build name) := by
  rw [finishedWitness_eq]
  exact whenFinished_named (WitnessExpr.build name) (witnessExpr_named name args)

theorem finishedWitness_func (args : List Ty) (result : Ty) :
    (func args result).finishedWitness = (do
      let parts ← args.mapM finishedWitness
      let last ← result.finishedWitness
      return .build (functionWitness args.length) (parts ++ [last])) := by
  rw [finishedWitness_eq]
  exact whenFinished_func (fun parts last => WitnessExpr.build (functionWitness args.length)
    (parts ++ [last])) (witnessExpr_func args result)

/-- What a substitution puts in for a variable of a description. -/
def describedBy (s : Substitution) (p : Ident) : Except String WitnessExpr :=
  match s.lookup p.tag with
  | some u => u.finishedWitness
  | none => .ok (.var p)

/-- The description of what comes out has the descriptions of what is put in for its variables. -/
theorem finishedWitness_substitute {t : Ty} (closed : t.cells = []) (s : Substitution) :
    (t.substitute s).finishedWitness = t.witnessExpr.replace (describedBy s) := by
  have each : ∀ {ts : List Ty}, (∀ t ∈ ts, (t.substitute s).finishedWitness =
      t.witnessExpr.replace (describedBy s)) → (ts.map (substitute s)).mapM finishedWitness =
        WitnessExpr.replaceAll (describedBy s) (ts.map witnessExpr) := by
    intro ts same
    rw [WitnessExpr.replaceAll_eq_mapM, List.mapM_map, List.mapM_map]
    exact mapM_congr same
  induction t with
  | named name args ih =>
    rw [cells_named, List.flatMap_eq_nil_iff] at closed
    rw [substitute_named, finishedWitness_named, witnessExpr_named, WitnessExpr.replace,
      each fun t member => ih t member (closed t member)]
    rfl
  | generic name =>
    show (substitute s (.generic name)).finishedWitness = describedBy s name
    rw [substitute_generic, describedBy]
    cases s.lookup name.tag <;> rfl
  | func args result ih ihResult =>
    rw [cells_func, List.append_eq_nil_iff, List.flatMap_eq_nil_iff] at closed
    rw [substitute_func, finishedWitness_func, each fun t member => ih t member (closed.1 t member),
      ihResult closed.2, List.length_map, witnessExpr_func, WitnessExpr.replace,
      WitnessExpr.replaceAll_eq_mapM, WitnessExpr.replaceAll_eq_mapM, List.mapM_append,
      List.mapM_cons, List.mapM_nil]
    simp only [bind_assoc, pure_bind]
  | cell c => simp at closed

end Ty

end WitnessLang
