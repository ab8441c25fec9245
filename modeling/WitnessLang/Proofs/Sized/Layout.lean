import Mathlib.Data.List.TakeWhile
import WitnessLang.Proofs.Explicit.Scoped
import WitnessLang.Proofs.Run
import WitnessLang.Proofs.Sized.Scoped
import WitnessLang.Proofs.Types.Formed
import WitnessLang.Proofs.Types.Key

set_option autoImplicit false

namespace WitnessLang.Sized

open Explicit (tagsOf)

/-- How many types a name is applied to where values are measured: closure environments and
type descriptions have layouts too. -/
def Context.arity (c : Context) : Arity := fun tag =>
  if tag = .float ∨ tag = .bool ∨ tag = .witness then some 0
  else (c.struct? tag).map (·.generics.length)

/-- Structs whose fields are made of their own type parameters. -/
def Context.Formed (c : Context) : Prop :=
  ∀ s ∈ c.structs, ∀ f ∈ s.fields, f.type.Formed c.arity (tagsOf s.generics) []

structure Layout.For (c : Context) (t : Ty) (l : Layout) : Prop where
  names : ∀ x ∈ l.names, x.tag ∈ tagsOf t.parameters
  description : isWitnessType t = true → l = ⟨.type, ⟨c.target.witnessSize, []⟩⟩
  value : isWitnessType t = false → l.witness ≠ .type
  exact : Shape.Exact c ⟨t, l⟩

/-- What has been measured is right; `generics` are the type parameters of the program. -/
structure Sound (c : Context) (generics : List Tag) (st : State) : Prop where
  names : ∀ tag v, st.vars.lookup tag = some v → v.name.tag = tag
  layouts : ∀ tag v, st.vars.lookup tag = some v → v.shape.layout.For c v.shape.type
  descriptions : ∀ tag v, st.vars.lookup tag = some v → tag ∈ generics → v.shape.type = Ty.witness
  known : ∀ key l, st.known.lookup key = some l →
    ∀ t : Ty, t.cells = [] → t.key = key → l.For c t
  instances : ∀ i ∈ st.instances, Shape.Exact c ⟨i.type, i.layout⟩

def Holds (st : State) (tags : List Tag) : Prop := ∀ tag ∈ tags, ∃ v, st.vars.lookup tag = some v

/-- The ways in which measuring may stop that are no sign of a broken program. -/
def Stop.Declared : Stop → Prop
  | .inconsistent _ => False
  | _ => True

section Types

variable {c : Context} {l : Layout}

theorem isWitnessType_of_alike {t u : Ty} (alike : t.Alike u) :
    isWitnessType t = isWitnessType u := by
  have tags : ∀ t : Ty, isWitnessType t.erase = isWitnessType t := by
    intro t
    cases t <;> simp [isWitnessType]
  rw [← tags t, ← tags u, alike]

theorem Layout.For.alike {t u : Ty} (fits : l.For c t) (alike : t.Alike u) : l.For c u := by
  have same := isWitnessType_of_alike alike
  obtain ⟨x, takes, tells⟩ := fits.exact
  refine ⟨fun x member => ?_, fun kind => fits.description (same ▸ kind),
    fun kind => fits.value (same ▸ kind), x, takes.alike alike, tells⟩
  rw [tagsOf, ← alike.parameters]
  exact fits.names x member

end Types

section Lookup

variable {c : Context} {generics : List Tag} {st : State} {allowed : Stop → Prop}

theorem lookup_meets {name : Ident} {v : Variable} (found : st.vars.lookup name.tag = some v) :
    MeetsIn allowed (lookup name) c st fun v' st' => v' = v ∧ st' = st := by
  rw [lookup, meetsIn_get_bind, found, meetsIn_pure]
  exact ⟨rfl, rfl⟩

mutual

/-- Every variable of a description was defined, so it keeps its names. -/
theorem witness_meets (sound : Sound c generics st) : (w : WitnessExpr) →
    Holds st (tagsOf w.names) → MeetsIn allowed (witness w) c st fun w' st' =>
      tagsOf w'.names = tagsOf w.names ∧ st' = st
  | .var name, held => by
    obtain ⟨v, found⟩ := held name.tag (by simp [tagsOf, WitnessExpr.names])
    rw [witness, meetsIn_bind]
    refine (lookup_meets found).imp fun v' st' post => ?_
    obtain ⟨same, kept⟩ := post
    rw [meetsIn_pure, same, kept]
    refine ⟨?_, rfl⟩
    rw [tagsOf, tagsOf, WitnessExpr.names, WitnessExpr.names, List.map_cons, List.map_cons,
      sound.names _ v found]
  | .build constructor args, held => by
    rw [witness, meetsIn_bind]
    refine (witnesses_meets sound args held).imp fun args' st' post => ?_
    obtain ⟨same, kept⟩ := post
    rw [meetsIn_pure]
    exact ⟨same, kept⟩

theorem witnesses_meets (sound : Sound c generics st) : (ws : List WitnessExpr) →
    Holds st (tagsOf (WitnessExpr.namesAll ws)) →
    MeetsIn allowed (witnesses ws) c st fun ws' st' =>
      tagsOf (WitnessExpr.namesAll ws') = tagsOf (WitnessExpr.namesAll ws) ∧ st' = st
  | [], held => by
    rw [witnesses, meetsIn_pure]
    exact ⟨rfl, rfl⟩
  | w :: rest, held => by
    rw [WitnessExpr.namesAll, tagsOf, List.map_append] at held
    rw [witnesses, meetsIn_bind]
    refine (witness_meets sound w fun tag member => held tag (List.mem_append_left _ member)).imp
      fun w' st' post => ?_
    obtain ⟨same, kept⟩ := post
    rw [kept, meetsIn_bind]
    refine (witnesses_meets sound rest fun tag member =>
      held tag (List.mem_append_right _ member)).imp fun rest' st' post => ?_
    obtain ⟨same', kept⟩ := post
    rw [meetsIn_pure, kept]
    refine ⟨?_, rfl⟩
    rw [WitnessExpr.namesAll, WitnessExpr.namesAll, tagsOf, tagsOf, List.map_append, List.map_append]
    exact congrArg₂ _ same same'

end

end Lookup

/-- A way to lay out types that finds the right layouts and defines no variable. It is asked
only for types that it is able to lay out while some are open, and stops in allowed ways. -/
def LaysOut (c : Context) (generics : List Tag) (allowed : Stop → Prop)
    (able : List OpenType → Ty → Prop) (self : Ty → Measure Layout) : Prop :=
  ∀ (t : Ty) (own : List Tag) (st : State), able st.opened t → t.Formed c.arity own [] →
    Sound c generics st → Holds st own → MeetsIn allowed (self t) c st fun l st' =>
      l.For c t ∧ Sound c generics st' ∧ st'.vars = st.vars ∧ st'.opened = st.opened

/-- What has been added up so far tells what is taken. -/
structure Totals (size : Size) (trivial : Bool) (x : Space) : Prop where
  static : size.static = Int64.ofInt x.bytes
  parts : size.dynamic.map (·.tag) = x.parts
  plain : trivial = x.plain

section Layouts

variable {c : Context} {generics own : List Tag} {allowed : Stop → Prop}
  {able : List OpenType → Ty → Prop} {self : Ty → Measure Layout} {st : State} {l : Layout}

theorem Holds.of_vars {st' : State} {tags : List Tag} (held : Holds st tags)
    (kept : st'.vars = st.vars) : Holds st' tags := by
  intro tag member
  rw [kept]
  exact held tag member

/-- Two layouts one after the other. -/
theorem Totals.add {size : Size} {trivial : Bool} {x y : Space} (before : Totals size trivial x)
    (tells : l.Tells y) : Totals (size.add l.size) (trivial && l.witness.isTrivial) (x.add y) where
  static := by rw [Size.add, Space.add, before.static, tells.static, Int64.ofInt_add]
  parts := by rw [Size.add, Space.add, List.map_append, before.parts, tells.parts]
  plain := by rw [Space.add, before.plain, tells.plain]

/-- The sizes of fields mention their type parameters only, and add up. -/
theorem fieldsLayout_meets (lays : LaysOut c generics allowed able self) {ts : List Ty}
    {size : Size} {trivial : Bool} {x : Space} (possible : ∀ t ∈ ts, able st.opened t)
    (formed : ∀ t ∈ ts, t.Formed c.arity own []) (before : Totals size trivial x)
    (sound : Sound c generics st) (held : Holds st own) :
    MeetsIn allowed (fieldsLayout.go self size trivial ts) c st fun (size', trivial') st' =>
      (∀ x ∈ size'.dynamic, x ∈ size.dynamic ∨ ∃ t ∈ ts, x.tag ∈ tagsOf t.parameters) ∧
        (∃ xs, List.Forall₂ (Takes c.target c.structs) ts xs ∧
          Totals size' trivial' (xs.foldl Space.add x)) ∧
        Sound c generics st' ∧ st'.vars = st.vars ∧ st'.opened = st.opened := by
  induction ts generalizing size trivial x st with
  | nil =>
    rw [fieldsLayout.go, meetsIn_pure]
    exact ⟨fun x member => Or.inl member, ⟨[], .nil, before⟩, sound, rfl, rfl⟩
  | cons t rest ih =>
    rw [List.forall_mem_cons] at formed possible
    rw [fieldsLayout.go, meetsIn_bind]
    refine (lays t own st possible.1 formed.1 sound held).imp
      fun l st₁ post => ?_
    obtain ⟨fits, sound₁, kept, same⟩ := post
    obtain ⟨y, takes, tells⟩ := fits.exact
    refine (ih (same ▸ possible.2) formed.2 (before.add tells) sound₁ (held.of_vars kept)).imp
      fun made st₂ post => ?_
    obtain ⟨size', _⟩ := made
    obtain ⟨names, ⟨xs, others, totals⟩, sound₂, kept₂, same₂⟩ := post
    refine ⟨fun x member => ?_, ⟨y :: xs, .cons takes others, totals⟩, sound₂, kept₂.trans kept,
      same₂.trans same⟩
    rcases names x member with old | ⟨u, later, inside⟩
    · rcases List.mem_append.mp old with old | new
      · exact Or.inl old
      · exact Or.inr ⟨t, List.mem_cons_self, fits.names x (List.mem_append_right _ new)⟩
    · exact Or.inr ⟨u, List.mem_cons_of_mem _ later, inside⟩

theorem Context.arity_struct {tag : Tag} {n : Nat} (known : c.arity tag = some n)
    (basic : ¬ (tag = .float ∨ tag = .bool)) (other : tag ≠ .witness) :
    ∃ s, c.struct? tag = some s ∧ s ∈ c.structs ∧ s.generics.length = n := by
  rw [Context.arity, if_neg (by tauto)] at known
  obtain ⟨s, found, length⟩ := Option.map_eq_some_iff.mp known
  exact ⟨s, found, mem_of_findLast? found, length⟩

theorem structLayout_meets (whole : c.Formed) (lays : LaysOut c generics allowed able self)
    {name : Ident} {args : List Ty}
    (possible : ∀ t ∈ parts c.structs (.named name args), able st.opened t)
    (formed : (Ty.named name args).Formed c.arity own [])
    (basic : ¬ (name.tag = .float ∨ name.tag = .bool)) (other : name.tag ≠ .witness)
    (sound : Sound c generics st) (held : Holds st own) :
    MeetsIn allowed (structLayout self name args) c st fun l st' =>
      l.For c (.named name args) ∧ Sound c generics st' ∧ st'.vars = st.vars ∧
        st'.opened = st.opened := by
  obtain ⟨arity, given⟩ := Ty.formed_named.mp formed
  obtain ⟨s, found, member, length⟩ := c.arity_struct arity basic other
  have length' : args.length = (tagsOf s.generics).length := by rw [tagsOf, List.length_map, length]
  rw [structLayout, meetsIn_read_bind, found]
  simp only [length, ne_eq, not_true_eq_false, ↓reduceIte]
  rw [fieldsLayout, meetsIn_bind]
  have fields : ∀ t ∈ s.fields.map (fun f => f.type.substitute ((tagsOf s.generics).zip args)),
      t.Formed c.arity own [] := by
    intro t inside
    obtain ⟨f, field, rfl⟩ := List.mem_map.mp inside
    exact (whole s member f field).instantiate length' given
  rw [parts_struct basic other found] at possible
  refine (fieldsLayout_meets (x := {}) lays possible fields ⟨rfl, rfl, rfl⟩ sound held).imp
    fun made st₁ post => ?_
  obtain ⟨size, trivial⟩ := made
  obtain ⟨names, ⟨xs, takes, totals⟩, sound₁, kept, still⟩ := post
  have sized : ∀ x ∈ size.dynamic, x.tag ∈ tagsOf (Ty.named name args).parameters := by
    intro x member'
    rcases names x member' with impossible | ⟨t, inside, parameter⟩
    · cases impossible
    · obtain ⟨f, field, rfl⟩ := List.mem_map.mp inside
      obtain ⟨q, parameter, same⟩ := List.mem_map.mp parameter
      obtain ⟨u, arg, within⟩ := (whole s member f field).mem_parameters_instantiate length' parameter
      rw [← same, Ty.parameters_named]
      exact List.mem_map_of_mem (List.mem_flatMap.mpr ⟨u, arg, within⟩)
  have value : isWitnessType (.named name args) = false := by simpa [isWitnessType] using other
  have fits : ∀ w : Witness, w ≠ .type →
      (∀ x ∈ w.names, x.tag ∈ tagsOf (Ty.named name args).parameters) →
      w.isTrivial = trivial → (∀ n, w = .trivial n → n = size.static) →
      (Layout.mk w size).For c (.named name args) := by
    intro w kind names plain bytes
    refine ⟨fun x inside => ?_, fun wrong => ?_, fun _ => kind, _, takes_struct basic other found takes,
      totals.static, totals.parts, plain.trans totals.plain, bytes⟩
    · exact (List.mem_append.mp inside).elim (names x) (sized x)
    · rw [value] at wrong
      cases wrong
  have tag : s.name.tag = name.tag := by simpa using List.find?_some found
  have finish : ∀ l : Layout, l.For c (.named name args) →
      Sound c generics { st₁ with instances := st₁.instances ++ [⟨s.name, args, l⟩] } := by
    intro l fits
    have same : (Ty.named name args).Alike (.named s.name args) :=
      Ty.alike_named.mpr ⟨tag.symm, rfl⟩
    refine { sound₁ with instances := List.forall_mem_append.mpr ⟨sound₁.instances, ?_⟩ }
    exact List.forall_mem_singleton.mpr (fits.alike same).exact
  have described : Holds st₁ (tagsOf (Ty.named name args).witnessExpr.names) := by
    intro tag inside
    rw [Ty.names_witnessExpr formed.closed] at inside
    obtain ⟨q, parameter, rfl⟩ := List.mem_map.mp inside
    exact held.of_vars kept _ (formed.mem_parameters parameter)
  split
  · rename_i plain
    rw [meetsIn_pure_bind, meetsIn_modify_bind, meetsIn_pure]
    have own := fits (.trivial size.static) (by simp) (by simp [Witness.names])
      plain.symm (by simp)
    exact ⟨own, finish _ own, kept, still⟩
  · rename_i plain
    rw [meetsIn_bind, meetsIn_map]
    refine (witness_meets sound₁ _ described).imp fun w st₂ post => ?_
    obtain ⟨same, unchanged⟩ := post
    rw [meetsIn_modify_bind, meetsIn_pure, unchanged]
    have own := fits (.dynamic w) (by simp) (fun x inside => by
      rw [← Ty.names_witnessExpr formed.closed, ← same]
      exact List.mem_map_of_mem inside) (Bool.eq_false_iff.mpr plain).symm (by simp)
    exact ⟨own, finish _ own, kept, still⟩

/-- A type is laid out where its parts can be. -/
theorem computeLayout_meets (whole : c.Formed) (lays : LaysOut c generics allowed able self) :
    LaysOut c generics allowed (fun opened t => ∀ u ∈ parts c.structs t, able opened u)
      (computeLayout self) := by
  intro t own st possible formed sound held
  cases t with
  | named name args =>
    have plain : ¬ name.tag = .witness → isWitnessType (.named name args) = false := fun other => by
      simpa [isWitnessType] using other
    rw [computeLayout]
    split
    · rename_i basic
      rw [meetsIn_pure]
      have other : ¬ name.tag = .witness := by
        rcases basic with basic | basic <;> rw [basic] <;> decide
      refine ⟨⟨by simp [Layout.names, Witness.names], fun wrong => ?_, fun _ => by simp,
        _, ⟨1, if_pos basic⟩, rfl, rfl, rfl, by simp⟩, sound, rfl, rfl⟩
      rw [plain other] at wrong
      cases wrong
    · rename_i basic
      split
      · rename_i kind
        rw [meetsIn_read_bind, meetsIn_pure]
        refine ⟨⟨by simp [Layout.names, Witness.names], fun _ => rfl, fun wrong => ?_,
          _, ⟨1, by rw [space?, if_neg basic, if_pos kind]⟩, ?_, rfl, rfl, by simp⟩, sound, rfl, rfl⟩
        · simp [isWitnessType, kind] at wrong
        · simp [Target.witnessSize, Int64.ofInt_mul]
      · rename_i other
        exact structLayout_meets whole lays possible formed basic other sound held
  | generic name =>
    obtain ⟨v, found⟩ := held name.tag (Ty.formed_generic.mp formed)
    rw [computeLayout, meetsIn_bind]
    refine (lookup_meets found).imp fun v' st' post => ?_
    obtain ⟨same, kept⟩ := post
    rw [meetsIn_pure, same, kept]
    refine ⟨⟨fun x inside => ?_, fun wrong => by simp [isWitnessType] at wrong, fun _ => by simp,
      _, ⟨1, rfl⟩, rfl, by simp [sound.names _ v found], rfl, by simp⟩, sound, rfl, rfl⟩
    have name' : x = v.name := by
      simpa [Layout.names, Witness.names, WitnessExpr.names] using inside
    rw [name', sound.names _ v found]
    simp [tagsOf]
  | func args result =>
    have described : Holds st (tagsOf (Ty.func args result).witnessExpr.names) := by
      intro tag inside
      rw [Ty.names_witnessExpr formed.closed] at inside
      obtain ⟨q, parameter, rfl⟩ := List.mem_map.mp inside
      exact held _ (formed.mem_parameters parameter)
    rw [computeLayout, meetsIn_bind]
    refine (witness_meets sound _ described).imp fun w st' post => ?_
    obtain ⟨same, kept⟩ := post
    rw [meetsIn_read_bind, meetsIn_pure, kept]
    refine ⟨⟨fun x inside => ?_, fun wrong => by simp [isWitnessType] at wrong, fun _ => by simp,
      _, ⟨1, rfl⟩, by simp [Target.closureSize, Int64.ofInt_mul], rfl, rfl, by simp⟩, sound, rfl, rfl⟩
    rw [← Ty.names_witnessExpr formed.closed, ← same]
    exact List.mem_map_of_mem (by simpa [Layout.names, Witness.names] using inside)
  | cell cell => exact absurd (Ty.formed_cell.mp formed) List.not_mem_nil

/-- Work is done while a type is open, and leaves the others open. -/
theorem runs_whileOpen {α : Type} {o : OpenType} {m : Measure α} {s s' : State} {r : Except Stop α} :
    Runs (whileOpen o m) c s r s' ↔ ∃ s₁, Runs m c { s with opened := s.opened ++ [o] } r s₁ ∧
      s' = { s₁ with opened := s₁.opened.dropLast } := by
  rw [whileOpen, runs_modify_bind, runs_bind]
  simp only [runs_tryCatch, runs_modify_bind, runs_throw, runs_pure]
  cases r <;> grind

theorem meetsIn_whileOpen {α : Type} {o : OpenType} {m : Measure α} {s : State} {post : α → State → Prop} :
    MeetsIn allowed (whileOpen o m) c s post ↔ MeetsIn allowed m c { s with opened := s.opened ++ [o] } fun a s₁ =>
      post a { s₁ with opened := s₁.opened.dropLast } := by
  rw [meetsIn_iff, meetsIn_iff]
  simp only [runs_whileOpen]
  constructor
  · rintro ⟨result, failure⟩
    exact ⟨fun a s₁ runs => result a _ ⟨s₁, runs, rfl⟩, fun e s₁ runs => failure e _ ⟨s₁, runs, rfl⟩⟩
  · rintro ⟨result, failure⟩
    refine ⟨?_, ?_⟩
    · rintro a _ ⟨s₁, runs, rfl⟩
      exact result a s₁ runs
    · rintro e _ ⟨s₁, runs, rfl⟩
      exact failure e s₁ runs

/-- What does not depend on the open types is kept while one more is open. -/
theorem keeps_whileOpen {α : Type} {o : OpenType} {m : Measure α} {kind : State → Prop} {good : α → Prop}
    (anyway : ∀ s opened, kind s → kind { s with opened := opened }) (inner : Keeps allowed kind c m good) :
    Keeps allowed kind c (whileOpen o m) good := fun s known =>
  meetsIn_whileOpen.mpr ((inner _ (anyway s _ known)).imp fun _ s₁ ⟨known', own⟩ => ⟨anyway s₁ _ known', own⟩)

/-- Looking a layout up and remembering it, where `able'` knows whether a type is open. -/
theorem layoutStep_meets (able' : List OpenType → Ty → Prop) (whole : c.Formed)
    (lays : LaysOut c generics allowed able self)
    (possible : ∀ opened t, able' opened t →
      ∀ u ∈ parts c.structs t, able (opened ++ [⟨t.key, t.render⟩]) u)
    (repeated : ∀ opened t cause, able' opened t → (∃ o ∈ opened, o.key = t.key) →
      allowed (.fault cause {})) :
    LaysOut c generics allowed able' (layoutStep self) := by
  intro t own st can formed sound held
  rw [layoutStep, meetsIn_get_bind]
  cases found : st.known.lookup t.key with
  | some l =>
    rw [meetsIn_pure]
    exact ⟨sound.known _ l found t formed.closed rfl, sound, rfl, rfl⟩
  | none =>
    dsimp only
    split
    · rename_i again
      rw [meetsIn_throw_bind]
      refine repeated st.opened t _ can ?_
      simpa [List.dropWhile_eq_nil_iff] using again
    · rw [meetsIn_bind, meetsIn_whileOpen]
      have opened : Sound c generics { st with opened := st.opened ++ [⟨t.key, t.render⟩] } :=
        ⟨sound.names, sound.layouts, sound.descriptions, sound.known, sound.instances⟩
      refine (computeLayout_meets whole lays t own _ (possible _ t can) formed opened held).imp
        fun l st₁ post => ?_
      obtain ⟨fits, sound₁, kept, still⟩ := post
      rw [meetsIn_modify_bind, meetsIn_pure]
      refine ⟨fits, { sound₁ with known := fun key l' known u closed same => ?_ }, kept, ?_⟩
      · rw [List.lookup_cons] at known
        split at known
        · rename_i equal
          obtain rfl := Option.some.inj known
          exact fits.alike
            (Ty.alike_of_key formed.closed closed ((same.trans (eq_of_beq equal)).symm))
        · exact sound₁.known key l' known u closed same
      · change st₁.opened.dropLast = st.opened
        rw [still, List.dropLast_concat]

theorem layoutWithin_meets (whole : c.Formed) (n : Nat) :
    LaysOut c generics Stop.Declared (fun _ _ => True) (layoutWithin n) := by
  induction n with
  | zero => exact fun t own st _ _ _ _ => trivial
  | succ n ih =>
    exact layoutStep_meets _ whole ih (fun _ _ _ _ _ => trivial) fun _ _ _ _ _ => trivial

end Layouts

/-- Nothing is being laid out, and what has been measured is right. -/
structure Idle (c : Context) (generics : List Tag) (st : State) : Prop extends
    Sound c generics st where
  idle : st.opened = []

theorem idle_empty (c : Context) (generics : List Tag) : Idle c generics {} :=
  ⟨⟨by simp, by simp, by simp, by simp, by simp⟩, rfl⟩

/-- Some types have layouts, or the search for them stops in allowed ways, wherever it was made. -/
structure Lays (c : Context) (generics : List Tag) (allowed : Stop → Prop) (able : Ty → Prop) :
    Prop where
  layout : ∀ t own st, able t → t.Formed c.arity own [] → Idle c generics st → Holds st own →
    MeetsIn allowed (layoutOf t) c st fun l st' =>
      l.For c t ∧ Idle c generics st' ∧ st'.vars = st.vars
  placed : ∀ cause span span', allowed (.fault cause span) → allowed (.fault cause span')

/-- Giving a place to a fault changes nothing else. -/
theorem atSpan_keeps {α : Type} {allowed : Stop → Prop} {kind : State → Prop} {c : Context} {m : Measure α}
    {good : α → Prop} {span : Span} (first : Keeps allowed kind c m good)
    (placed : ∀ cause span span', allowed (.fault cause span) → allowed (.fault cause span')) :
    Keeps allowed kind c (atSpan span m) good := by
  refine keeps_tryCatch first fun e own => ?_
  cases e with
  | fault cause s => exact ⟨_, rfl, placed cause s _ own⟩
  | _ => exact ⟨_, rfl, own⟩

theorem lays_of_formed {c : Context} (whole : c.Formed) (generics : List Tag) :
    Lays c generics Stop.Declared fun _ => True where
  layout t own st _ formed sound held := by
    rw [layoutOf, meetsIn_read_bind]
    exact (layoutWithin_meets whole _ t own st trivial formed sound.toSound held).imp
      fun l st' ⟨fits, sound', kept, same⟩ => ⟨fits, ⟨sound', same.trans sound.idle⟩, kept⟩
  placed _ _ _ _ := trivial

end WitnessLang.Sized
