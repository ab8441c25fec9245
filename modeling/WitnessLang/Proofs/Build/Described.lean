import WitnessLang.Proofs.Build.Coded
import WitnessLang.Proofs.Ir.Described

set_option autoImplicit false

namespace WitnessLang.Build

variable {o : Options} {name : String} {content : Bytes} {r : Outcome}

/-- The functions of an accepted text have the description of the type of each variable where the variable names it. -/
theorem functions_described (proper : IsModule o.unit) (compiled : compileSource o name content = .ok r)
    {q : Sized.Program} (sized : r.trees.sized = some q) {p : Ir.Program} (done : Ir.lower q = .ok p) :
    ∀ f ∈ p.functions, ∀ (v : Ir.VarId) (x : Ir.Variable) (l : Ir.VarId), f.vars[v]? = some x → x.witness = .dynamic l →
      ∃ t, x.type = some t ∧ f.Explains v l t := by
  obtain ⟨e, explicit, measured⟩ := (compileSource_follows compiled).sized q sized
  obtain ⟨typed, known, rfl⟩ := (compileSource_follows compiled).explicit e explicit
  obtain ⟨N, closures, -, lowered, -⟩ := named_of_sized proper compiled known sized done
  obtain ⟨c, N', R, -, covers, -, apart, kept, distinct⟩ := measured_sound proper compiled known measured
  have own : ∀ f ∈ q.functions, (∀ a ∈ f.arguments, R.Lists c a.var) ∧ ∀ part ∈ f.body.parts, part.Sound R c := by
    intro f member
    obtain ⟨g, -, keeps⟩ := exists_of_forall₂ kept.functions f member
    exact ⟨keeps.listed, keeps.sound⟩
  intro f member v x l found dynamic
  obtain ⟨described, owns⟩ := Ir.lower_told apart covers.scoped (fun f member => (own f member).1)
    (fun f member => (own f member).2) distinct done f member
  exact (lowered.functions f member).explains described owns found dynamic

/-- A function that needs the description of one type in both of two branches. -/
def branchesText : Bytes := Bytes.ofString ("struct B[a] { v: a }\nfunc f[t](c: Bool, x: t): F64 = " ++
  "if c then {let y = B { v: x }; 1} else {let z = B { v: x }; 2}")

set_option maxRecDepth 10000 in
def branchesTrees : { t // lowered? 1 Target.wide (sourceOf "a" branchesText) = some t ∧ t.2.2.problems = some [] ∧
    t.2.2.functions.map (fun f => f.vars.toList.filterMap fun x => x.witness.location?.map fun l =>
      (x.name, Ir.nameOf f.vars l)) = [[("x_6", "t_4"), ("y_7", "_0"), ("z_8", "_1")]] } :=
  obtained (by
    rw [branchesText, Utf8.ofString_append, Utf8.ofString_ofList, Utf8.ofString_ofList]
    decide +kernel)

/-- Each branch of the text computes the description for itself. -/
theorem branchesText_described : ∃ r q p, compileSource sampleOptions "a" branchesText = .ok r ∧
    r.trees.sized = some q ∧ Ir.lower q = .ok p ∧
    p.functions.map (fun f => f.vars.toList.filterMap fun x => x.witness.location?.map fun l =>
      (x.name, Ir.nameOf f.vars l)) = [[("x_6", "t_4"), ("y_7", "_0"), ("z_8", "_1")]] ∧
    ∀ f ∈ p.functions, ∀ (v : Ir.VarId) (x : Ir.Variable) (l : Ir.VarId), f.vars[v]? = some x → x.witness = .dynamic l →
      ∃ t, x.type = some t ∧ f.Explains v l t := by
  obtain ⟨⟨typed, q, p⟩, done, sound, locations⟩ := branchesTrees
  obtain ⟨sized, lowered⟩ := lowered?_eq_some.mp done
  obtain ⟨r, compiled, -, measured, -⟩ := compileSource_of_lowered (o := sampleOptions) rfl rfl sized lowered sound
  exact ⟨r, q, p, compiled, measured, lowered, locations,
    functions_described ⟨by decide, by decide⟩ compiled measured lowered⟩

/-- A function with a type parameter behind one that binds names that are made up, before a value of this type. -/
def misplacedText : Bytes := Bytes.ofString ("struct P { }\nstruct Q[u] { }\nfunc a(): F64 = \x7blet P{} = P{}; " ++
  "let P{} = P{}; let P{} = P{}; let P{} = P{}; let P{} = (|| P{})(); 1 + (|| 1)() + (|| 1)() + (|| 1)() + (|| 1)()\x7d\n" ++
  "func f[t](q: Q[t]): F64 = {let x = mk(q); 1}\nfunc mk[s](q: Q[s]): s = mk(q)")

def misplacedParameter : Ty := .generic ⟨⟨Tag.syntheticUnit, 6⟩, "t", false⟩

set_option maxRecDepth 10000 in
def misplacedTrees : { t // lowered? Tag.syntheticUnit Target.wide (sourceOf "a" misplacedText) = some t ∧
    ∃ f ∈ t.2.2.functions, ∃ x ∈ f.vars.toList,
      x.type.any (fun t => t.cells.isEmpty && t.key == misplacedParameter.key) = true ∧
      x.witness.location?.any (fun l => (f.vars[l]?).any fun y => y.type.any fun u =>
        u.render != Ty.witness.render) = true } :=
  obtained (by
    rw [misplacedText, Utf8.ofString_append, Utf8.ofString_append]
    rw [Utf8.ofString_ofList, Utf8.ofString_ofList, Utf8.ofString_ofList]
    decide +kernel)

/-- In the module whose tags are used for names that are made up, a variable may name another one as the description
of its type that is none. -/
theorem misplacedText_undescribed : ∃ r q p, compileSource sharedOptions "a" misplacedText = .ok r ∧
    r.trees.sized = some q ∧ Ir.lower q = .ok p ∧
    ¬ ∀ f ∈ p.functions, ∀ (v : Ir.VarId) (x : Ir.Variable) (l : Ir.VarId), f.vars[v]? = some x →
      x.witness = .dynamic l → ∃ t, x.type = some t ∧ f.Explains v l t := by
  obtain ⟨⟨typed, q, p⟩, done, f, member, x, inside, passed⟩ := misplacedTrees
  obtain ⟨measured, lowered⟩ := lowered?_eq_some.mp done
  obtain ⟨r, compiled, -, sized⟩ := compileSource_of_sized (o := sharedOptions) rfl rfl measured
  refine ⟨r, q, p, compiled, sized, lowered, fun described => ?_⟩
  simp only [Bool.and_eq_true, Option.any_eq_true, bne_iff_ne, beq_iff_eq, List.isEmpty_iff] at passed
  obtain ⟨⟨t, own, closed, spelled⟩, l, location, y, here, u, type, other⟩ := passed
  have parameter : misplacedParameter.Alike t := Ty.alike_of_key rfl closed spelled.symm
  obtain ⟨v, found⟩ := List.mem_iff_getElem?.mp inside
  rw [Array.getElem?_toList] at found
  obtain ⟨t', own', explains⟩ := described f member v x l found (Ir.Witness.location?_eq_some.mp location)
  obtain rfl := Option.some.inj (own.symm.trans own')
  cases explains with
  | parameter entered =>
    obtain ⟨y', here', -, kind⟩ := entered
    obtain rfl := Option.some.inj (here'.symm.trans here)
    obtain rfl := Option.some.inj (type.symm.trans kind)
    exact other rfl
  | computed different =>
    cases t with
    | generic g => exact different g rfl
    | named _ _ | func _ _ | cell _ => simp [misplacedParameter, Ty.Alike] at parameter

end WitnessLang.Build
