import WitnessLang.Proofs.Typed.Program
import WitnessLang.Proofs.Typed.Decided

set_option autoImplicit false

namespace WitnessLang.Typed

open Bindings
open Ty (Fills)
open Resolved (Declared)

/-- Inference of a function, before its tree is searched for cells. -/
def inferFunction (f : Resolved.Function) (s : Signature) : Check (List Param × Expr) := do
  modify fun p => { minted := p.minted }
  let params ← bindParams f.params s.params
  let body ← expect s.result f.body.span (← infer f.body)
  return (params, body)

/-- The search for cells in the tree that inference has left. -/
def finishFunction (f : Resolved.Function) (s : Signature) (tree : List Param × Expr) : Check Function := do
  let settle := (← get).bindings.settle
  let params := tree.1.map fun p => { p with pattern := p.pattern.mapTypes settle }
  let body := tree.2.mapTypes settle
  match openCell? (params.flatMap (·.pattern.types) ++ body.types) with
  | some c => fault f.span (.unspecifiedGeneric c.generic)
  | none => return ⟨f.span, f.name, f.generics, params, s.result, body⟩

/-- Checking a function is inference and then the search. -/
theorem checkFunction_eq (f : Resolved.Function) (s : Signature) :
    checkFunction f s = inferFunction f s >>= finishFunction f s := by
  simp only [checkFunction, inferFunction, bind_assoc, pure_bind]
  rfl

/-- The types in the tree of a function that depend on its cells. -/
def foundTypes (tree : List Param × Expr) : List Ty := tree.1.flatMap (·.pattern.types) ++ tree.2.types

section Functions

variable {structs : Declared} {g : Globals} {generics vars : List Tag} {env : Env}
  {cells : List Cell} {s s' : Progress}

theorem params_decide (whole : g.Formed structs) {ps : List Resolved.Param} {ts : List Ty}
    {ps' : List Param} (ended : Runs (bindParams ps ts) g s (.ok ps') s')
    (length : ts.length = ps.length) (inside : ∀ p ∈ ps, p.pattern.Scoped structs)
    (formed : ∀ t ∈ ts, t.Formed g.arity generics []) (ready : Ready g generics cells s)
    {behind : List Tag} (site : Site env vars (Resolved.paramTags ps ++ behind) s)
    (unhidden : Unhidden g vars s) :
    Decides (Resolved.paramAsks g ps) (env.map (·.2)) (ps'.flatMap (·.pattern.types)) s s' ∧
      Unhidden g (Resolved.paramTags ps ++ vars) s' ∧
      ∀ f, Fills f (env.map (·.2)) → Fills f (ps'.flatMap (·.pattern.types)) →
        Fills f ((paramScope ps' env).map (·.2)) := by
  induction ps generalizing env vars cells s ps' ts with
  | nil =>
    obtain rfl := List.length_eq_zero_iff.mp length
    rw [bindParams.eq_2 _ _ (by simp)] at ended
    obtain ⟨same, rfl⟩ := runs_pure.mp ended
    obtain rfl := Except.ok.inj same
    exact ⟨.none rfl fun f _ _ => Ty.fills_nil, unhidden, fun f given _ => given⟩
  | cons p rest ih =>
    obtain ⟨t, ts, rfl⟩ := List.exists_cons_of_length_eq_add_one length
    rw [List.forall_mem_cons] at inside formed
    rw [bindParams, runs_bind_ok] at ended
    obtain ⟨p', s₁, matched, ended⟩ := ended
    rw [runs_bind_ok] at ended
    obtain ⟨others, s₂, later, ended⟩ := ended
    obtain ⟨same, rfl⟩ := runs_pure.mp ended
    obtain rfl := Except.ok.inj same
    rw [Resolved.paramTags, List.flatMap_cons, List.append_assoc] at site
    have formed' := formed.1.grow (List.nil_subset cells)
    obtain ⟨cells₁, bound⟩ := pattern_sound whole p.pattern _ cells s p' s₁ matched inside.1 ready
      formed' site.left.once
    have site₁ := site.bind bound.step bound.scope
    have enough : ts.length = rest.length := by simpa using length
    obtain ⟨cells₂, second, -⟩ := params_sound whole later enough inside.2
      (fun t member => (formed.2 t member).grow (List.nil_subset _)) bound.step.ready site₁
    obtain ⟨ofRest, unhidden', scope⟩ := ih later enough inside.2 formed.2 bound.step.ready site₁
      ((unhidden.after site bound.step).mono (List.subset_append_right _ _))
    have own := pattern_decided whole p.pattern _ cells s p' s₁ matched inside.1 ready formed' site.left.once
    refine ⟨?_, unhidden'.mono fun u => ?_, fun f given types => ?_⟩
    · have closed : ∀ f, Fills f [t] := fun f =>
        Ty.fills_cons.mpr ⟨Ty.cells_mapCells_of_closed formed.1.closed, Ty.fills_nil⟩
      exact Decides.append ⟨own.minted, fun f solves _ => own.decided f solves (closed f)⟩ ofRest
        second.bindings fun f given types => fills_scope given types
    · simp only [Resolved.paramTags, List.flatMap_cons, List.mem_append]
      tauto
    · rw [List.flatMap_cons, Ty.fills_append] at types
      exact scope f (fills_scope given types.1) types.2

/-- Inference of a function mints the cells that are asked for, and leaves bindings that lead no
cell back to itself. -/
theorem inferFunction_decides (whole : g.Formed structs) {f : Resolved.Function} {sig : Signature}
    {functions : List Tag} {tree : List Param × Expr} (inside : f.Scoped structs functions)
    (signed : Signed g f sig) (once : f.binders.Nodup) (apart : f.binders.Disjoint functions)
    (known : ∀ sig ∈ g.functions, sig.name.tag ∈ functions)
    (ended : Runs (inferFunction f sig) g s (.ok tree) s') :
    Decides (f.asks g) [] (foundTypes tree) s s' ∧ Acyclic s'.bindings := by
  rw [inferFunction, runs_modify_bind, runs_bind_ok] at ended
  obtain ⟨params, s₁, declared, ended⟩ := ended
  have ready : Ready g (f.generics.map (·.tag)) [] { minted := s.minted } :=
    ⟨by simp, by simp, ⟨⟨fun _ => 0, by simp [value?]⟩, by simp [value?]⟩, by simp⟩
  rw [Resolved.Function.binders] at once apart
  have site : Site [] functions (Resolved.paramTags f.params ++ f.body.binders) { minted := s.minted } :=
    ⟨fun _ _ => rfl, fun t member => ⟨rfl, apart (List.mem_append_right _ member)⟩,
      (List.nodup_append.mp once).2.1⟩
  have unhidden : Unhidden g functions { minted := s.minted } := fun sig member => ⟨known sig member, rfl⟩
  have patterns := fun p member => (inside.params p member).2
  obtain ⟨cells₁, first, site₁, -, -⟩ :=
    params_sound whole declared signed.length patterns signed.params ready site
  obtain ⟨ofParams, unhidden₁, scope⟩ :=
    params_decide whole declared signed.length patterns signed.params ready site unhidden
  rw [runs_bind_ok] at ended
  obtain ⟨body₁, s₂, inferred, ended⟩ := ended
  rw [runs_bind_ok] at ended
  obtain ⟨body, s₃, expected, ended⟩ := ended
  obtain ⟨same, rfl⟩ := runs_pure.mp ended
  obtain rfl := Except.ok.inj same
  have formed := signed.result.grow (List.nil_subset cells₁)
  obtain ⟨cells', second, -⟩ := expected_sound (infer_sound whole f.body) inferred expected inside.body
    first.ready site₁ formed
  have ofBody := expected_decides whole (infer_decides whole f.body) inferred expected inside.body first.ready
    site₁ unhidden₁ formed
  have all := ofParams.append ofBody second.bindings scope
  exact ⟨⟨all.minted, all.decided⟩, second.ready.sane.acyclic⟩

theorem foundTypes_settle (b : Bindings) (tree : List Param × Expr) :
    (tree.1.map fun p => { p with pattern := p.pattern.mapTypes b.settle }).flatMap (·.pattern.types) ++
      (tree.2.mapTypes b.settle).types = (foundTypes tree).map b.settle := by
  rw [foundTypes, List.map_append, List.map_flatMap, List.flatMap_map]
  refine congrArg₂ _ (List.flatMap_congr fun p _ => Pattern.types_mapTypes _ p.pattern) ?_
  have same : b.settle = (·.mapCells fun c => b.settle (.cell c)) := funext (settle_eq_mapCells b)
  rw [same, Expr.types_mapCells]

/-- The search goes through the types of the tree, settled, and changes nothing. -/
theorem finishFunction_ends {f : Resolved.Function} {sig : Signature} {tree : List Param × Expr}
    {r : Except Fault Function} (ended : Runs (finishFunction f sig tree) g s r s') : s' = s ∧
    ((∃ f', r = .ok f' ∧ ∀ t ∈ foundTypes tree, (s.bindings.settle t).cells = []) ∨
      ∃ c t, r = .error ⟨.unspecifiedGeneric c.generic, f.span⟩ ∧ t ∈ foundTypes tree ∧
        c ∈ (s.bindings.settle t).cells) := by
  rw [finishFunction, runs_get_bind] at ended
  dsimp only at ended
  rw [foundTypes_settle] at ended
  split at ended
  · rename_i c found
    obtain ⟨rfl, rfl⟩ := runs_fault.mp ended
    obtain ⟨u, member, inside⟩ := List.mem_flatMap.mp (List.mem_of_mem_head? found)
    obtain ⟨t, within, rfl⟩ := List.mem_map.mp member
    exact ⟨rfl, Or.inr ⟨c, t, rfl, within, inside⟩⟩
  · rename_i nothing
    obtain ⟨rfl, rfl⟩ := runs_pure.mp ended
    have closed := closed_of_openCell nothing
    exact ⟨rfl, Or.inl ⟨_, rfl, fun t member => closed _ (List.mem_map_of_mem member)⟩⟩

/-- A cell is bound, through any chain of bindings, to a finished type. -/
def Decided (b : Bindings) (c : Cell) : Prop := ∃ t, b.value? c = some t ∧ (b.settle t).cells = []

theorem decided_iff {b : Bindings} (acyclic : Acyclic b) {c : Cell} :
    Decided b c ↔ (b.settle (.cell c)).cells = [] := by
  cases bound : b.value? c with
  | none => simp [Decided, bound, settle_of_unbound bound]
  | some t =>
    have same : b.settle (.cell c) = b.settle t := by
      rw [settle_eq_mapCells b t]
      exact solves_settle acyclic c t bound
    simp [Decided, bound, same]

/-- Where inference of a function goes through, the function is accepted if the cells that stay are
decided, and otherwise a cell that is bound to nothing is reported. -/
theorem checkFunction_decides (whole : g.Formed structs) {f : Resolved.Function} {sig : Signature}
    {functions : List Tag} {tree : List Param × Expr} (inside : f.Scoped structs functions)
    (signed : Signed g f sig) (once : f.binders.Nodup) (apart : f.binders.Disjoint functions)
    (known : ∀ sig ∈ g.functions, sig.name.tag ∈ functions)
    (ended : Runs (inferFunction f sig) g s (.ok tree) s') :
    s'.minted = s.minted + (f.asks g).length ∧
    ((∀ c ∈ Ask.keptCells s.minted (f.asks g), Decided s'.bindings c) ∧
        (∃ f', Runs (checkFunction f sig) g s (.ok f') s') ∨
      (∃ c ∈ Ask.keptCells s.minted (f.asks g), ¬ Decided s'.bindings c) ∧
        ∃ c, s'.bindings.value? c = none ∧
          Runs (checkFunction f sig) g s (.error ⟨.unspecifiedGeneric c.generic, f.span⟩) s') := by
  obtain ⟨⟨minted, decides⟩, acyclic⟩ := inferFunction_decides whole inside signed once apart known ended
  refine ⟨minted, ?_⟩
  -- settling is a solution, so it fills the cells that stay exactly if it fills the tree
  have filled := decides _ (solves_settle acyclic) Ty.fills_nil
  have tree_ : Fills (fun c => s'.bindings.settle (.cell c)) (foundTypes tree) ↔
      ∀ t ∈ foundTypes tree, (s'.bindings.settle t).cells = [] := by
    refine forall₂_congr fun t _ => ?_
    rw [settle_eq_mapCells s'.bindings t]
  have kept : Fills (fun c => s'.bindings.settle (.cell c))
      ((Ask.keptCells s.minted (f.asks g)).map .cell) ↔
      ∀ c ∈ Ask.keptCells s.minted (f.asks g), Decided s'.bindings c := by
    simp only [Fills, List.forall_mem_map, Ty.mapCells_cell, decided_iff acyclic]
  rw [tree_, kept] at filled
  cases outcome : outcome (finishFunction f sig tree g) s' with
  | mk r s₁ =>
    have searched : Runs (finishFunction f sig tree) g s' r s₁ := outcome
    obtain ⟨rfl, ⟨f', rfl, closed⟩ | ⟨c, t, rfl, member, inside⟩⟩ := finishFunction_ends searched
    · refine Or.inl ⟨filled.mpr closed, f', ?_⟩
      rw [checkFunction_eq]
      exact runs_bind.mpr (Or.inl ⟨tree, _, ended, searched⟩)
    · refine Or.inr ⟨?_, c, unbound_of_mem_settle acyclic inside, ?_⟩
      · by_contra all
        push Not at all
        rw [filled.mp all t member] at inside
        cases inside
      · rw [checkFunction_eq]
        exact runs_bind.mpr (Or.inl ⟨tree, _, ended, searched⟩)

/-- An accepted function was inferred. -/
theorem inferred_of_checkFunction {f : Resolved.Function} {sig : Signature} {f' : Function}
    (ended : Runs (checkFunction f sig) g s (.ok f') s') :
    ∃ tree, Runs (inferFunction f sig) g s (.ok tree) s' := by
  rw [checkFunction_eq, runs_bind_ok] at ended
  obtain ⟨tree, s₁, inferred, searched⟩ := ended
  obtain ⟨rfl, -⟩ := finishFunction_ends searched
  exact ⟨tree, inferred⟩

end Functions

section Programs

def asked (g : Globals) (fs : List (Resolved.Function × Signature)) : Nat :=
  (fs.flatMap fun f => f.1.asks g).length

theorem asked_cons (g : Globals) (f : Resolved.Function × Signature)
    (rest : List (Resolved.Function × Signature)) :
    asked g (f :: rest) = (f.1.asks g).length + asked g rest := by
  simp [asked]

variable {g : Globals} {f : Resolved.Function} {sig : Signature} {n : Nat} {s : Progress}
  {rest before : List (Resolved.Function × Signature)}

theorem checkFunctions_cons_ok {f' : Function}
    (ended : Runs (checkFunction f sig) g { minted := n } (.ok f') s) :
    checkFunctions g n ((f, sig) :: rest) = (checkFunctions g s.minted rest).map (f' :: ·) := by
  have run : ((checkFunction f sig).run g).run.run { minted := n } = (.ok f', s) := ended
  rw [checkFunctions, run]
  simp only [inDefinition]
  cases checkFunctions g s.minted rest <;> rfl

theorem checkFunctions_cons_error {e : Fault}
    (ended : Runs (checkFunction f sig) g { minted := n } (.error e) s) :
    checkFunctions g n ((f, sig) :: rest) = .error ⟨e.cause, e.span, f.name.name⟩ := by
  have run : ((checkFunction f sig).run g).run.run { minted := n } = (.error e, s) := ended
  rw [checkFunctions, run]
  rfl

/-- Functions are checked behind those before them, whose cells have been minted by then. -/
theorem checkFunctions_append (counted : ∀ e ∈ before, ∀ s f' s', Runs (checkFunction e.1 e.2) g s (.ok f') s' →
      s'.minted = s.minted + (e.1.asks g).length) {done : List Function}
    (earlier : checkFunctions g n before = .ok done) :
    checkFunctions g n (before ++ rest) = (checkFunctions g (n + asked g before) rest).map (done ++ ·) := by
  induction before generalizing n done with
  | nil =>
    obtain rfl := Except.ok.inj earlier
    change checkFunctions g n rest = (checkFunctions g n rest).map ([] ++ ·)
    cases checkFunctions g n rest <;> rfl
  | cons e others ih =>
    obtain ⟨f, sig⟩ := e
    rw [List.forall_mem_cons] at counted
    cases run : outcome (checkFunction f sig g) { minted := n } with
    | mk r s =>
      have ended : Runs (checkFunction f sig) g { minted := n } r s := run
      cases r with
      | error e => rw [checkFunctions_cons_error ended] at earlier; cases earlier
      | ok f' =>
        rw [checkFunctions_cons_ok ended] at earlier
        cases later : checkFunctions g s.minted others with
        | error e => rw [later] at earlier; cases earlier
        | ok done' =>
          rw [later] at earlier
          obtain rfl := Except.ok.inj earlier
          have minted := counted.1 _ _ _ ended
          rw [List.cons_append, checkFunctions_cons_ok ended, ih counted.2 later, asked_cons, minted,
            Nat.add_assoc]
          cases checkFunctions g (n + ((f.asks g).length + asked g others)) rest <;> rfl

/-- What is checked with others is checked in front of them. -/
theorem checkFunctions_front {fs : List Function} (done : checkFunctions g n (before ++ rest) = .ok fs) :
    ∃ fs', checkFunctions g n before = .ok fs' := by
  induction before generalizing n fs with
  | nil => exact ⟨[], rfl⟩
  | cons e others ih =>
    obtain ⟨f, sig⟩ := e
    rw [List.cons_append] at done
    cases run : outcome (checkFunction f sig g) { minted := n } with
    | mk r s =>
      have ended : Runs (checkFunction f sig) g { minted := n } r s := run
      cases r with
      | error e => rw [checkFunctions_cons_error ended] at done; cases done
      | ok f' =>
        rw [checkFunctions_cons_ok ended] at done ⊢
        cases later : checkFunctions g s.minted (others ++ rest) with
        | error e => rw [later] at done; cases done
        | ok fs' =>
          obtain ⟨front, same⟩ := ih later
          exact ⟨f' :: front, by rw [same]; rfl⟩

theorem check_of_declarations {p : Resolved.Program} (declared : declarations p = .ok g) :
    check p = (checkFunctions g 0 (p.functions.zip g.functions)).map fun fs => ⟨p.unit, g.structs, fs⟩ := by
  rw [check_eq, declared]
  change (checkFunctions g 0 (p.functions.zip g.functions) >>= _) = _
  cases checkFunctions g 0 (p.functions.zip g.functions) <;> rfl

theorem Declares.decides {p : Resolved.Program} (declares : Declares p g) (inside : p.Scoped)
    (pair : (f, sig) ∈ p.functions.zip g.functions) {s s' : Progress} {tree : List Param × Expr}
    (ended : Runs (inferFunction f sig) g s (.ok tree) s') :
    s'.minted = s.minted + (f.asks g).length ∧
    ((∀ c ∈ Ask.keptCells s.minted (f.asks g), Decided s'.bindings c) ∧
        (∃ f', Runs (checkFunction f sig) g s (.ok f') s') ∨
      (∃ c ∈ Ask.keptCells s.minted (f.asks g), ¬ Decided s'.bindings c) ∧
        ∃ c, s'.bindings.value? c = none ∧
          Runs (checkFunction f sig) g s (.error ⟨.unspecifiedGeneric c.generic, f.span⟩) s') := by
  obtain ⟨scope, signed⟩ := (List.forall₂_iff_zip.mp declares.signed).2 pair
  obtain ⟨once, apart⟩ := inside.binders_apart (List.of_mem_zip pair).1
  refine checkFunction_decides declares.whole scope signed once apart (fun sig member => ?_) ended
  obtain ⟨f, function, -, signed⟩ := exists_of_forall₂ declares.signed sig member
  exact signed.name ▸ List.mem_map_of_mem function

/-- In a file, the functions before one are checked first, and a cell is minted for each that is
asked for. An accepted definition leaves none of the cells undecided that stay, and one that would
is rejected. Of the cells that are minted, those of alternatives behind the first are not looked at. -/
theorem kept_cells_decided {file : Surface.File} {names : List String} {unit : Nat} {p : Resolved.Program}
    {table : SymbolTable} {g : Globals} (own : unit ≠ Tag.builtinUnit)
    (resolved : Resolved.resolve file (names.foldl SymbolTable.intern .start) unit = (.ok p, table))
    (declared : declarations p = .ok g) {before after : List (Resolved.Function × Signature)}
    {f : Resolved.Function} {sig : Signature}
    (here : p.functions.zip g.functions = before ++ (f, sig) :: after) :
    (∀ p', check p = .ok p' → ∃ tree s',
      Runs (inferFunction f sig) g { minted := asked g before } (.ok tree) s' ∧
      s'.minted = asked g before + (f.asks g).length ∧
      ∀ c ∈ Ask.keptCells (asked g before) (f.asks g), Decided s'.bindings c) ∧
    ∀ done tree s', checkFunctions g 0 before = .ok done →
      Runs (inferFunction f sig) g { minted := asked g before } (.ok tree) s' →
      ((∀ c ∈ Ask.keptCells (asked g before) (f.asks g), Decided s'.bindings c) ∧
        ∃ f', checkFunctions g 0 (before ++ [(f, sig)]) = .ok (done ++ [f'])) ∨
      ((∃ c ∈ Ask.keptCells (asked g before) (f.asks g), ¬ Decided s'.bindings c) ∧
        ∃ c, s'.bindings.value? c = none ∧
          check p = .error ⟨.unspecifiedGeneric c.generic, f.span, f.name.name⟩) := by
  obtain ⟨inside, rfl⟩ := Resolved.resolve_scoped own resolved
  have declares := declarations_declare inside own declared
  have pair : (f, sig) ∈ p.functions.zip g.functions := by simp [here]
  have split : ∀ {done rest}, checkFunctions g 0 before = .ok done → checkFunctions g 0 (before ++ rest) =
      (checkFunctions g (asked g before) rest).map (done ++ ·) := by
    intro done rest earlier
    rw [checkFunctions_append (fun e member s f' s' ended => ?_) earlier, Nat.zero_add]
    obtain ⟨tree, inferred⟩ := inferred_of_checkFunction ended
    exact (declares.decides inside (by simp [here, member]) inferred).1
  refine ⟨fun p' accepted => ?_, fun done tree s' earlier inferred => ?_⟩
  · rw [check_of_declarations declared, here] at accepted
    cases checked : checkFunctions g 0 (before ++ (f, sig) :: after) with
    | error e => rw [checked] at accepted; cases accepted
    | ok fs =>
      obtain ⟨done, earlier⟩ := checkFunctions_front checked
      rw [split earlier] at checked
      cases run : outcome (checkFunction f sig g) { minted := asked g before } with
      | mk r s' =>
        have ended : Runs (checkFunction f sig) g { minted := asked g before } r s' := run
        cases r with
        | error e => rw [checkFunctions_cons_error ended] at checked; cases checked
        | ok f' =>
          obtain ⟨tree, inferred⟩ := inferred_of_checkFunction ended
          obtain ⟨minted, ⟨all, -⟩ | ⟨-, c, -, failed⟩⟩ := declares.decides inside pair inferred
          · exact ⟨tree, s', inferred, minted, all⟩
          · cases (failed.unique ended).1
  · obtain ⟨-, ⟨all, f', ended⟩ | ⟨some, c, unbound, ended⟩⟩ := declares.decides inside pair inferred
    · refine Or.inl ⟨all, f', ?_⟩
      rw [split earlier, checkFunctions_cons_ok ended]
      rfl
    · refine Or.inr ⟨some, c, unbound, ?_⟩
      rw [check_of_declarations declared, here, split earlier, checkFunctions_cons_error ended]
      rfl

/-- What checking the last function of a file leaves behind, if the file is accepted. -/
def lastChecked? (file : Surface.File) (unit : Nat) : Option (List Ask × Progress) :=
  match Resolved.resolve file .start unit with
  | (.ok p, _) => do
    let _ ← (check p).toOption
    let g ← (declarations p).toOption
    let pairs := p.functions.zip g.functions
    let (f, sig) ← pairs.getLast?
    match outcome (inferFunction f sig g) { minted := asked g pairs.dropLast } with
    | (.ok _, s) => return (f.asks g, s)
    | (.error _, _) => none
  | (.error _, _) => none

theorem lastChecked?_eq_some {file : Surface.File} {unit : Nat} {asks : List Ask} {s : Progress}
    (checked : lastChecked? file unit = some (asks, s)) :
    ∃ p table p' g before f sig tree, Resolved.resolve file .start unit = (.ok p, table) ∧
      check p = .ok p' ∧ declarations p = .ok g ∧ p.functions.zip g.functions = before ++ [(f, sig)] ∧
      asks = f.asks g ∧ Runs (inferFunction f sig) g { minted := asked g before } (.ok tree) s := by
  rw [lastChecked?] at checked
  split at checked
  · rename_i p table resolved
    simp only [Option.bind_eq_bind, Option.bind_eq_some_iff, Except.toOption_eq_some] at checked
    obtain ⟨p', accepted, g, declared, ⟨f, sig⟩, last, checked⟩ := checked
    obtain ⟨before, split⟩ := List.getLast?_eq_some_iff.mp last
    rw [split, List.dropLast_concat] at checked
    split at checked
    · rename_i tree s' run
      obtain ⟨rfl, rfl⟩ := Prod.mk.inj (Option.some.inj checked)
      exact ⟨p, table, p', g, before, f, sig, tree, resolved, accepted, declared, split, rfl, run⟩
    · cases checked
  · cases checked

/-- The function that is checked last in this file asks for two cells to call another, two to build a
pair and two to take one apart. -/
theorem swapFile_decided : ∃ p table g before f sig, Resolved.resolve swapFile .start 1 = (.ok p, table) ∧
    declarations p = .ok g ∧ p.functions.zip g.functions = before ++ [(f, sig)] ∧ (f.asks g).length = 6 ∧
    ∃ tree s', Runs (inferFunction f sig) g { minted := asked g before } (.ok tree) s' ∧
      s'.minted = asked g before + (f.asks g).length ∧
      ∀ c ∈ Ask.keptCells (asked g before) (f.asks g), Decided s'.bindings c := by
  have taken : (lastChecked? swapFile 1).map (·.1.length) = some 6 := by decide +kernel
  obtain ⟨⟨asks, s⟩, checked, six⟩ := Option.map_eq_some_iff.mp taken
  obtain ⟨p, table, p', g, before, f, sig, tree, resolved, accepted, declared, here, rfl, -⟩ :=
    lastChecked?_eq_some checked
  exact ⟨p, table, g, before, f, sig, resolved, declared, here, six,
    (@kept_cells_decided swapFile [] 1 p table g (by decide) resolved declared before [] f sig here).1 p' accepted⟩

/-- A file with a function that calls another in the second alternative of a case expression; nothing
says what the type parameter of the other is. -/
def openFile : Surface.File :=
  ⟨{}, [
    .func ⟨{}, "make", {}, [⟨{}, "t"⟩], [], .named {} "F64", .number {} "1" 0⟩,
    .func ⟨{}, "pick", {}, [], [⟨{}, .var {} "x", .named {} "F64"⟩], .named {} "F64",
      .case {} (.var {} "x") [⟨{}, .var {} "y", .number {} "1" 0⟩,
        ⟨{}, .var {} "z", .call {} (.var {} "make") []⟩]⟩]⟩

/-- The file is accepted, though a cell stays open that was minted for the second alternative. -/
theorem openFile_undecided : ∃ asks s, (accepted? openFile 1).isSome = true ∧
    lastChecked? openFile 1 = some (asks, s) ∧ ∃ c ∈ Ask.cells 0 asks, ¬ Decided s.bindings c := by
  have accepted : (accepted? openFile 1).isSome = true := by decide +kernel
  have left : ((lastChecked? openFile 1).map fun r => (r.1, r.2.bindings.isEmpty)) =
      some ([⟨"t", false⟩], true) := by decide +kernel
  obtain ⟨⟨asks, s⟩, checked, same⟩ := Option.map_eq_some_iff.mp left
  obtain ⟨rfl, nothing⟩ := Prod.mk.inj same
  refine ⟨_, s, accepted, checked, ⟨1, "t"⟩, List.mem_cons_self, ?_⟩
  rintro ⟨t, bound, -⟩
  rw [List.isEmpty_iff.mp nothing] at bound
  cases bound

end Programs

end WitnessLang.Typed
