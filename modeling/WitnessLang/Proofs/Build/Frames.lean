import WitnessLang.Proofs.Build.Described
import WitnessLang.Proofs.Ir.Frames

set_option autoImplicit false

namespace WitnessLang.Build

variable {o : Options} {name : String} {content : Bytes} {r : Outcome}

/-- The functions of an accepted text lay out their frames when they begin. So do the builders of its structs, if no two
structs have one name. -/
theorem frames_laid_out (proper : IsModule o.unit) (compiled : compileSource o name content = .ok r)
    {q : Sized.Program} (sized : r.trees.sized = some q) {p : Ir.Program} (done : Ir.lower q = .ok p)
    (once : (p.structs.map (·.name)).Nodup) : (∀ f ∈ p.functions, f.LaysOut) ∧ ∀ d ∈ p.structs, d.LaysOut := by
  obtain ⟨e, explicit, measured⟩ := (compileSource_follows compiled).sized q sized
  obtain ⟨typed, known, rfl⟩ := (compileSource_follows compiled).explicit e explicit
  obtain ⟨N, closures, -, lowered, -⟩ := named_of_sized proper compiled known sized done
  obtain ⟨c, N', R, -, covers, -, apart, kept, distinct⟩ := measured_sound proper compiled known measured
  obtain ⟨functions, structs⟩ :=
    Ir.lower_measured (fun st member => (covers.structs st member).1) covers.scoped distinct done
  have kept : ∀ f ∈ q.functions, (∀ a ∈ f.arguments, R.Lists c a.var) ∧ ∀ part ∈ f.body.parts, part.Sound R c := by
    intro f member
    obtain ⟨g, -, keeps⟩ := exists_of_forall₂ kept.functions f member
    exact ⟨keeps.listed, keeps.sound⟩
  refine ⟨fun f member => ?_, fun d member => ?_⟩
  · obtain ⟨-, owns⟩ := Ir.lower_told apart covers.scoped (fun f member => (kept f member).1)
      (fun f member => (kept f member).2) distinct done f member
    exact (functions f member).laysOut (lowered.functions f member) owns
  · obtain ⟨first, found, computed⟩ := (Ir.lower_laid done).2 d member
    rw [find?_of_nodup once member] at found
    obtain rfl := Option.some.inj found
    exact (structs d member).laysOut computed

/-- A closure that makes a struct over the type parameter of the function around it. -/
def boxedText : Bytes := Bytes.ofString ("struct P[t] { a: t, b: F64 }\n" ++
  "func f[t](x: t): () -> P[t] = || P { a: x, b: 1 }")

set_option maxRecDepth 10000 in
/-- What the closure and the functions are lowered to. -/
def boxedTrees : { t // lowered? 1 Target.wide (sourceOf "a" boxedText) = some t ∧ t.2.2.problems = some [] ∧
    (t.2.2.structs.map (·.name)).Nodup ∧
    t.2.2.functions.map (fun f => (f.name, f.frame.terms)) = [("f", ["t_5"]), ("_closure_0", ["t_5"])] ∧
    t.2.2.structs.map (fun d => (d.name, d.layout.terms)) = [("P", ["t_2"]), ("_Env0", ["t_5"])] } :=
  obtained (by
    rw [boxedText, Utf8.ofString_append, Utf8.ofString_ofList, Utf8.ofString_ofList]
    decide +kernel)

/-- The function, the closure and both structs of the text are laid out by the descriptions that they have. -/
theorem boxedText_laid_out : ∃ r q p, compileSource sampleOptions "a" boxedText = .ok r ∧
    r.trees.sized = some q ∧ Ir.lower q = .ok p ∧
    p.functions.map (fun f => (f.name, f.frame.terms)) = [("f", ["t_5"]), ("_closure_0", ["t_5"])] ∧
    p.structs.map (fun d => (d.name, d.layout.terms)) = [("P", ["t_2"]), ("_Env0", ["t_5"])] ∧
    (∀ f ∈ p.functions, f.LaysOut) ∧ ∀ d ∈ p.structs, d.LaysOut := by
  obtain ⟨⟨typed, q, p⟩, done, sound, once, functions, structs⟩ := boxedTrees
  obtain ⟨sized, lowered⟩ := lowered?_eq_some.mp done
  obtain ⟨r, compiled, -, measured, -⟩ := compileSource_of_lowered (o := sampleOptions) rfl rfl sized lowered sound
  exact ⟨r, q, p, compiled, measured, lowered, functions, structs,
    frames_laid_out ⟨by decide, by decide⟩ compiled measured lowered once⟩

set_option maxRecDepth 10000 in
/-- What the functions with the misplaced parameter are lowered to: a frame is a sum over a variable for a value. -/
def unknownTrees : { t // lowered? Tag.syntheticUnit Target.wide (sourceOf "a" misplacedText) = some t ∧
    (t.2.2.structs.map (·.name)).Nodup ∧
    ∃ f ∈ t.2.2.functions, ∃ n ∈ f.frame.terms,
      f.vars.toList.all (fun x => x.name != n || !x.witness.isType) = true } :=
  obtained (by
    rw [misplacedText, Utf8.ofString_append, Utf8.ofString_append]
    rw [Utf8.ofString_ofList, Utf8.ofString_ofList, Utf8.ofString_ofList]
    decide +kernel)

/-- In the module whose tags are used for names that are made up, a frame may depend on a variable that holds no type
description, although no two structs have one name. -/
theorem misplacedText_not_laid_out : ∃ r q p, compileSource sharedOptions "a" misplacedText = .ok r ∧
    r.trees.sized = some q ∧ Ir.lower q = .ok p ∧ (p.structs.map (·.name)).Nodup ∧ ¬ ∀ f ∈ p.functions, f.LaysOut := by
  obtain ⟨⟨typed, q, p⟩, done, once, f, member, n, term, none⟩ := unknownTrees
  obtain ⟨measured, lowered⟩ := lowered?_eq_some.mp done
  obtain ⟨r, compiled, -, sized⟩ := compileSource_of_sized (o := sharedOptions) rfl rfl measured
  refine ⟨r, q, p, compiled, sized, lowered, once, fun all => ?_⟩
  obtain ⟨v, rfl, ⟨x, found, -, kind, -⟩, -⟩ := (all f member).terms n term
  have inside : x ∈ f.vars.toList := by
    rw [Array.mem_toList_iff]
    exact Array.mem_of_getElem? found
  have here : x.name = Ir.nameOf f.vars v := by rw [Ir.nameOf, found]
  have wrong := List.all_eq_true.mp none x inside
  rw [kind, here] at wrong
  simp [Ir.Witness.isType] at wrong

end WitnessLang.Build
