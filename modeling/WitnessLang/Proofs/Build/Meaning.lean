import WitnessLang.Proofs.Build.Coded
import WitnessLang.Proofs.Meaning.Lowered
import WitnessLang.Proofs.Meaning.Passed

set_option autoImplicit false

/-! The stages behind the type checker keep what programs mean: whatever the body of a function evaluates to,
the lowered function leaves it in its variable `_result`. -/
namespace WitnessLang

/-- The name of the variable that a function leaves its result in. -/
def Ir.Function.resultName? (f : Ir.Function) : Option String := do
  let result ← f.arguments.head?
  let place ← f.vars[result.var]?
  return place.name

section Refinement

variable {F : Type}

/-- A function that is given some data, and leaves a datum in its variable `_result`. -/
def Ir.Answers (m : Ir.Program) (A : Arithmetic F) (f : Ir.Function) (given : List (Ir.Datum F)) (x : Ir.Datum F) : Prop :=
  f.resultName? = some "_result" ∧ Ir.Returns m A f given x

/-- A lowered function answers with what corresponds to a value, and with nothing else. -/
def AnswersOnly (m : Ir.Program) (A : Arithmetic F) (R : Value F Typed.Code → Ir.Datum F → Prop) (f : Ir.Function)
    (given : List (Ir.Datum F)) (v : Value F Typed.Code) : Prop :=
  ∃ x, R v x ∧ ∀ y, Ir.Answers m A f given y ↔ y = x

/-- A typed program and a lowered one, the data of which correspond to the values of the other. Numbers, truth
values and struct values are what they were. A closure is a function with an environment that ends in what the closure
captured. Where a function, or the code of a closure, evaluates to a value, the lowered function answers with what
corresponds to it, as long as what it is given corresponds to what the other one was given. -/
structure Refines (typed : Typed.Program) (m : Ir.Program) (A : Arithmetic F)
    (R : Value F Typed.Code → Ir.Datum F → Prop) : Prop where
  scalar : ∀ x d, R (.scalar x) d ↔ d = .scalar x
  record : ∀ names vs d, R (.record names vs) d ↔ ∃ ds, d = .record names ds ∧ List.Forall₂ R vs ds
  closure : ∀ c captured d, R (.closure c captured) d → ∃ L ∈ m.functions, ∃ names descriptions kept,
    d = .closure L.name (.record names (descriptions ++ kept)) ∧ (∀ x ∈ descriptions, x = .description) ∧
    List.Forall₂ R captured kept ∧ L.arguments.length = 1 + c.params.length + 1 ∧
    ∀ vs ds ρ v, List.Forall₂ R vs ds → Typed.bindArguments c.params vs (c.locals captured) = some ρ →
      Typed.Eval typed A ρ c.body v → AnswersOnly m A R L (ds ++ [.record names (descriptions ++ kept)]) v
  function : ∀ f ∈ typed.functions, ∃ L ∈ m.functions, L.name = f.name.mangled ∧
    L.arguments.length = 1 + f.params.length + f.generics.length ∧
    ∀ vs ds ρ v, List.Forall₂ R vs ds → Typed.bindArguments f.params vs [] = some ρ → Typed.Eval typed A ρ f.body v →
      AnswersOnly m A R L (ds ++ f.generics.map fun _ => .description) v

/-- What corresponds to a value of a typed program in a lowered one. -/
def Corresponds (m : Ir.Program) (v : Value F Typed.Code) (d : Ir.Datum F) : Prop :=
  ∃ w, Passes v w ∧ Ir.Stored m.functions w d

variable {typed : Typed.Program} {m : Ir.Program} {A : Arithmetic F} {vs : List (Value F Typed.Code)}
  {ds : List (Ir.Datum F)}

theorem corresponds_iff_forall₂ : List.Forall₂ (Corresponds m) vs ds ↔
    ∃ ws, List.Forall₂ Passes vs ws ∧ List.Forall₂ (Ir.Stored m.functions) ws ds := by
  constructor
  · intro each
    induction each with
    | nil => exact ⟨[], .nil, .nil⟩
    | cons first _ ih =>
      obtain ⟨w, passed, stored⟩ := first
      obtain ⟨ws, all, held⟩ := ih
      exact ⟨w :: ws, .cons passed all, .cons stored held⟩
  · rintro ⟨ws, all, held⟩
    induction all generalizing ds with
    | nil =>
      cases held
      exact .nil
    | cons passed _ ih =>
      cases held with
      | cons stored others => exact .cons ⟨_, passed, stored⟩ (ih others)

theorem corresponds_scalar {x : Scalar F} {d : Ir.Datum F} : Corresponds m (.scalar x) d ↔ d = .scalar x := by
  constructor
  · rintro ⟨w, passed, stored⟩
    cases passed
    cases stored
    rfl
  · rintro rfl
    exact ⟨_, .scalar, .scalar⟩

theorem corresponds_record {names : List String} {d : Ir.Datum F} :
    Corresponds m (.record names vs) d ↔ ∃ ds, d = .record names ds ∧ List.Forall₂ (Corresponds m) vs ds := by
  constructor
  · rintro ⟨w, passed, stored⟩
    cases passed with
    | record all =>
      cases stored with
      | record held => exact ⟨_, rfl, corresponds_iff_forall₂.mpr ⟨_, all, held⟩⟩
  · rintro ⟨ds, rfl, each⟩
    obtain ⟨ws, all, held⟩ := corresponds_iff_forall₂.mp each
    exact ⟨_, .record all, .record held⟩

/-- A function leaves one thing in its result. -/
theorem Ir.Returns.unique {f : Ir.Function} {given : List (Ir.Datum F)} {x y : Ir.Datum F}
    (first : Ir.Returns m A f given x) (second : Ir.Returns m A f given y) : x = y := by
  obtain ⟨result, params, σ, shape, ran, left⟩ := first
  obtain ⟨result', params', σ', shape', ran', left'⟩ := second
  obtain ⟨rfl, rfl⟩ := Ir.arguments_inj (shape.symm.trans shape')
  obtain rfl := ran.unique ran'
  exact Option.some.inj (left.symm.trans left')

theorem answersOnly_of_returns {f : Ir.Function} {given : List (Ir.Datum F)} {v : Value F Typed.Code} {w : Value F Plain.Code}
    {x : Ir.Datum F} (returns : Ir.Returns m A f given x) (place : f.resultName? = some "_result") (passed : Passes v w)
    (stored : Ir.Stored m.functions w x) : AnswersOnly m A (Corresponds m) f given v := by
  refine ⟨x, ⟨w, passed, stored⟩, fun y => ⟨fun answers => answers.2.unique returns, ?_⟩⟩
  rintro rfl
  exact ⟨place, returns⟩

section Code

variable {P : List Plain.Function} {L : Ir.Function} {params generics captures : List Sized.Variable} {envType : Ty}
  {body : Sized.Expr}

/-- The function behind a closure has the result in a variable of that name, and takes its parameters and an
environment. -/
theorem Ir.Lifted.shape (lifted : Ir.Lifted m.functions params generics captures envType body L) :
    L.resultName? = some "_result" ∧ L.arguments.length = 1 + params.length + 1 := by
  obtain ⟨-, -, -, -, -, returned, taken, -, -, -, arguments, -, -⟩ := lifted
  obtain ⟨x, entered, name, -⟩ := returned.entered
  constructor
  · rw [Ir.Function.resultName?, arguments]
    simp [entered, name]
  · rw [arguments, taken.declared.length_eq]
    simp
    omega

/-- A function has the result in a variable of its name, and takes its parameters and descriptions. -/
theorem Ir.FunctionCodes.shape {f : Sized.Function} {result : Sized.Variable}
    (coded : Ir.FunctionCodes m.functions f result params generics L) :
    L.resultName? = some result.name.mangled ∧ L.arguments.length = 1 + params.length + generics.length := by
  obtain ⟨-, -, is, js, ks, r, xs, ys, m₁, m₂, m₃, described, -, taken, -, -, arguments, -⟩ := coded
  have counts := taken.declared.length_eq
  have described := described.declared.length_eq
  constructor
  · cases taken with
    | cons first others =>
      obtain ⟨x, entered, name, -⟩ := first.adds.entered
      rw [Ir.Function.resultName?, arguments]
      simp [entered, name]
  · rw [arguments, described]
    simp at counts ⊢
    omega

/-- What a closure of a typed program has become runs its code. -/
theorem corresponds_closure (all : Compiled typed P) (carries : Ir.Carries m P)
    (names : (m.functions.map (·.name)).Nodup) {c : Typed.Code} {captured : List (Value F Typed.Code)} {d : Ir.Datum F}
    (same : Corresponds m (.closure c captured) d) : ∃ L ∈ m.functions, ∃ names descriptions kept,
      d = .closure L.name (.record names (descriptions ++ kept)) ∧ (∀ x ∈ descriptions, x = .description) ∧
      List.Forall₂ (Corresponds m) captured kept ∧ L.arguments.length = 1 + c.params.length + 1 ∧
      ∀ vs ds ρ v, List.Forall₂ (Corresponds m) vs ds → Typed.bindArguments c.params vs (c.locals captured) = some ρ →
        Typed.Eval typed A ρ c.body v →
        AnswersOnly m A (Corresponds m) L (ds ++ [.record names (descriptions ++ kept)]) v := by
  obtain ⟨w, passed, stored⟩ := same
  cases passed with
  | @closure _ c' _ ws opened captures each =>
    cases stored with
    | @closure params generics captures' _ body _ kept L known lifted count held =>
      obtain ⟨place, arity⟩ := lifted.shape
      have length : (Sized.variableTags params).length = c.params.length := opened.length
      rw [Sized.variableTags, List.length_map] at length
      refine ⟨L, known, _, _, kept, rfl, ?_, corresponds_iff_forall₂.mpr ⟨ws, each, held⟩, length ▸ arity, ?_⟩
      · simp
      intro vs ds ρ v given bound evaluates
      obtain ⟨vs', passed, stored⟩ := corresponds_iff_forall₂.mp given
      have old : ((Sized.variableTags captures').zip ws).map (·.1) ⊆ Sized.variableTags captures' := by
        intro t member
        obtain ⟨e, inside, rfl⟩ := List.mem_map.mp member
        exact (List.of_mem_zip inside).1
      have locals : c.locals captured = (Sized.variableTags captures').zip captured := by
        rw [Typed.Code.locals, ← captures]
      rw [locals] at bound
      obtain ⟨w, last, alike⟩ := opened.eval bound (agrees_zip each) old passed (eval_passes all evaluates)
      have computes := Ir.eval_computes carries names last
      have full : vs'.length = params.length := by
        rw [opened.count bound passed, Sized.variableTags, List.length_map]
      obtain ⟨x, returns, left⟩ := lifted.returns computes stored full held count
      exact answersOnly_of_returns returns place alike left

/-- What a function of a typed program has become runs its body. -/
theorem function_answers (all : Compiled typed P) (carries : Ir.Carries m P)
    (names : (m.functions.map (·.name)).Nodup) {f : Typed.Function} (member : f ∈ typed.functions) (known : L ∈ m.functions)
    (name : L.name = f.name.mangled) (place : L.resultName? = some "_result") {vs : List (Value F Typed.Code)}
    {ds : List (Ir.Datum F)} {ρ : Locals F Typed.Code} {v : Value F Typed.Code} (given : List.Forall₂ (Corresponds m) vs ds)
    (bound : Typed.bindArguments f.params vs [] = some ρ) (evaluates : Typed.Eval typed A ρ f.body v)
    (descriptions : List (Ir.Datum F)) : AnswersOnly m A (Corresponds m) L (ds ++ descriptions) v := by
  obtain ⟨vs', passed, stored⟩ := corresponds_iff_forall₂.mp given
  obtain ⟨f', inside, own, opened⟩ := all f member
  obtain ⟨g, result, params, generics, L', rfl, params', known', coded⟩ := carries f' inside
  obtain rfl : L = L' := by
    refine List.inj_on_of_nodup_map names known known' ?_
    rw [name, coded.name, ← own]
    rfl
  have nothing : Agrees ([] : Locals F Typed.Code) ([] : Locals F Plain.Code) := fun _ _ found => by cases found
  obtain ⟨w, last, alike⟩ := opened.eval bound nothing (List.nil_subset _) passed (eval_passes all evaluates)
  have count := opened.count bound passed
  rw [List.append_nil] at last
  rw [params'] at last count
  have computes := Ir.eval_computes carries names last
  rw [Sized.variableTags, List.length_map] at count
  obtain ⟨x, returns, left⟩ := coded.returns computes stored count descriptions
  exact answersOnly_of_returns returns place alike left

end Code

end Refinement

namespace Build

variable {o : Options} {name : String} {content : Bytes} {r : Outcome}

/-- The tree that a text was measured from. -/
theorem measured_of_sized (compiled : compileSource o name content = .ok r) {typed : Typed.Program}
    (known : r.trees.typed = some typed) {q : Sized.Program} (sized : r.trees.sized = some q) :
    Sized.measure (Explicit.pass typed) o.target = .ok q := by
  obtain ⟨e, explicit, measured⟩ := (compileSource_follows compiled).sized q sized
  obtain ⟨typed', known', rfl⟩ := (compileSource_follows compiled).explicit e explicit
  obtain rfl : typed' = typed := Option.some.inj (known'.symm.trans known)
  exact measured

/-- Every function of an accepted text has a lowered one of its name, which takes what the function takes, and a
description for each type parameter. -/
theorem functions_shaped (proper : IsModule o.unit) (compiled : compileSource o name content = .ok r)
    {typed : Typed.Program} (known : r.trees.typed = some typed) {q : Sized.Program} (sized : r.trees.sized = some q)
    {m : Ir.Program} (done : Ir.lower q = .ok m) : ∀ f ∈ typed.functions, ∃ L ∈ m.functions,
      L.name = f.name.mangled ∧ L.resultName? = some "_result" ∧
      L.arguments.length = 1 + f.params.length + f.generics.length := by
  intro f member
  have measured := measured_of_sized compiled known sized
  obtain ⟨R, _, -, kept⟩ := kept_of_accepted proper compiled known measured
  obtain ⟨c, N, -, -, -, whole⟩ := functions_coded proper compiled known measured done
  obtain ⟨f', passed, takes⟩ := exists_of_forall₂ (Explicit.pass_calls typed).flip f member
  obtain ⟨g, inside, same⟩ := exists_of_forall₂ kept.functions.flip f' passed
  obtain ⟨result, params, generics, own, named, L, lowered, coded⟩ := whole g inside
  obtain ⟨place, arity⟩ := coded.shape
  obtain ⟨r', ps, arguments, -, each⟩ := takes.arguments
  have counts := congrArg List.length (congrArg Callable.arguments same.callable)
  rw [arguments, Sized.Function.callable, List.length_map, own.arguments] at counts
  refine ⟨L, lowered, ?_, place.trans (congrArg some named.result.1), ?_⟩
  · rw [coded.name, ← takes.name, ← same.callable]
    rfl
  · have params := each.length_eq
    simp at counts
    omega

/-- The stages behind the type checker keep what a text means: where a function evaluates to a value, what it is
lowered to leaves what corresponds to the value in its variable `_result`. -/
theorem lowered_refines (proper : IsModule o.unit) (compiled : compileSource o name content = .ok r)
    {typed : Typed.Program} (known : r.trees.typed = some typed) {q : Sized.Program} (sized : r.trees.sized = some q)
    {m : Ir.Program} (done : Ir.lower q = .ok m) (names : (m.functions.map (·.name)).Nodup) {F : Type} (A : Arithmetic F) :
    Refines typed m A (Corresponds m) := by
  have measured := measured_of_sized compiled known sized
  obtain ⟨texts, accepted⟩ := (compileSource_follows compiled).accepted proper known
  obtain ⟨wellTyped, unit⟩ := accepted.wellTyped
  obtain ⟨R, _, -, kept⟩ := kept_of_accepted proper compiled known measured
  obtain ⟨c, N, -, -, -, whole⟩ := functions_coded proper compiled known measured done
  have all := compiled_of_wellTyped wellTyped (unit ▸ accepted.foreign)
  rw [← kept.plain_eq] at all
  have carries : Ir.Carries m (q.functions.map (·.plain)) := List.forall_mem_map.mpr fun g member => by
    obtain ⟨result, params, generics, own, -, L, lowered, coded⟩ := whole g member
    exact ⟨g, result, params, generics, L, rfl, own.plain_params, lowered, coded⟩
  refine ⟨fun x d => corresponds_scalar, fun names vs d => corresponds_record,
    fun c captured d => corresponds_closure all carries names, fun f member => ?_⟩
  obtain ⟨L, lowered, own, place, arity⟩ := functions_shaped proper compiled known sized done f member
  exact ⟨L, lowered, own, arity, fun vs ds ρ v given bound evaluates =>
    function_answers all carries names member lowered own place given bound evaluates _⟩

/-- The sample and its closure keep their meaning. -/
theorem sample_refines : ∃ r typed q m, compileSource sampleOptions "a" sampleText = .ok r ∧
    r.trees.typed = some typed ∧ r.trees.sized = some q ∧ Ir.lower q = .ok m ∧
    m.functions.map (·.name) = ["f", "_closure_0"] ∧ (m.functions.map (·.name)).Nodup ∧
    ∀ {F : Type} (A : Arithmetic F), Refines typed m A (Corresponds m) := by
  obtain ⟨r, typed, q, m, compiled, known, sized, lowered, functions, -⟩ := sample_lowered
  obtain ⟨q', sized', done, -⟩ := (compileSource_follows compiled).lowered m lowered
  obtain rfl : q' = q := Option.some.inj (sized'.symm.trans sized)
  have names : (m.functions.map (·.name)).Nodup := by
    rw [functions]
    decide
  exact ⟨r, typed, q', m, compiled, known, sized, done, functions, names,
    lowered_refines ⟨by decide, by decide⟩ compiled known sized done names⟩

set_option maxRecDepth 10000 in
/-- What the text of that module is lowered to. -/
def unrefinedTrees : { t // lowered? Tag.syntheticUnit Target.wide (sourceOf "a" sharedText) = some t ∧
    (t.2.2.functions.map (·.name)).Nodup ∧
    (∃ f ∈ t.1.functions, f.name.mangled = "g" ∧ f.params.isEmpty = true ∧ (f.body matches .number ..) = true) ∧
    ∀ f ∈ t.2.2.functions, f.name ≠ "g" ∨ f.resultName? ≠ some "_result" } :=
  obtained (by
    rw [sharedText, Utf8.ofString_ofList]
    decide +kernel)

/-- In the module whose tags are used for names that are made up, a function with no parameters evaluates to a
number, and what it is lowered to has no variable `_result` to leave the number in. -/
theorem sharedText_unrefined : ∃ r typed q m, compileSource sharedOptions "a" sharedText = .ok r ∧
    r.trees.typed = some typed ∧ r.trees.sized = some q ∧ Ir.lower q = .ok m ∧ (m.functions.map (·.name)).Nodup ∧
    ∀ (F : Type) (A : Arithmetic F) R, ¬ Refines typed m A R := by
  obtain ⟨⟨typed, q, m⟩, done, names, ⟨f, member, own, none, body⟩, wrong⟩ := unrefinedTrees
  obtain ⟨measured, lowered⟩ := lowered?_eq_some.mp done
  obtain ⟨r, compiled, known, sized⟩ := compileSource_of_sized (o := sharedOptions) rfl rfl measured
  refine ⟨r, typed, q, m, compiled, known, sized, lowered, names, fun F A R refines => ?_⟩
  obtain ⟨L, inside, same, -, answers⟩ := refines.function f member
  split at body
  · rename_i span text bits number
    have evaluates : Typed.Eval typed A [] f.body (.scalar (.number (A.number text bits))) := number ▸ .number
    have bound : Typed.bindArguments f.params ([] : List (Value F Typed.Code)) [] = some [] := by
      rw [List.isEmpty_iff.mp none]
      rfl
    obtain ⟨x, -, only⟩ := answers [] [] [] _ .nil bound evaluates
    have place := ((only x).mpr rfl).1
    have other := wrong L inside
    rw [same, place, own] at other
    exact absurd other (by decide)
  · cases body

end Build

end WitnessLang
