import WitnessLang.Proofs.Sized.Remembered

set_option autoImplicit false

/-! Where measuring gets to. Whatever was asked for and defined before, failures included, the layout of a type is
the one that would be found without a memory; and no type has two instances. -/
namespace WitnessLang.Sized

open Relation (ReflTransGen TransGen)

section Loops

variable {structs : List Explicit.Struct} {t u v : Ty}

/-- Types with the same tags hold types with the same tags. -/
theorem parts_alike (alike : t.Alike u) : List.Forall₂ Ty.Alike (parts structs t) (parts structs u) := by
  cases t with
  | named name args =>
    cases u with
    | named name' args' =>
      obtain ⟨tag, same⟩ := Ty.alike_named.mp alike
      rw [parts, parts, tag]
      split
      · exact .nil
      split
      · exact fieldTypes_alike same
      · exact .nil
    | _ => simp [Ty.Alike] at alike
  | generic name =>
    cases u with
    | generic name' => exact .nil
    | _ => simp [Ty.Alike] at alike
  | func args result =>
    cases u with
    | func args' result' => exact .nil
    | _ => simp [Ty.Alike] at alike
  | cell cell =>
    cases u with
    | cell other => exact .nil
    | _ => simp [Ty.Alike] at alike

theorem Finite.of_reaches (finite : Finite structs t) (reaches : ReflTransGen (HasPart structs) t u) :
    Finite structs u := by
  induction reaches with
  | refl => exact finite
  | tail _ part ih => exact ih.inv part

/-- A type that holds others only so deep does not hold itself. A type with the same tags holds the same types, so
a way back to it goes on from each of its parts. -/
theorem Finite.irrefl (finite : Finite structs t) (alike : u.Alike t) : ¬ TransGen (HasPart structs) t u := by
  induction finite generalizing u with
  | intro t _ ih =>
    intro held
    obtain ⟨w, part, later⟩ := TransGen.head'_iff.mp held
    obtain ⟨w', part', again⟩ := exists_of_forall₂ (parts_alike alike) w part
    exact ih w part again (.tail' later part')

/-- The first type of a cycle holds the last. -/
theorem Cycle.exists_holds {us : List Ty} (cycle : Cycle structs us t) :
    ∃ u ∈ us, u.key = t.key ∧ TransGen (HasPart structs) u t := by
  obtain ⟨chain, first, rest, rfl, key⟩ := cycle
  refine ⟨first, List.mem_cons_self, key, ?_⟩
  have steps : (first :: (rest ++ [t])).IsChain (TransGen (HasPart structs)) := chain.imp fun _ _ => .single
  exact steps.rel_cons (List.mem_append_right _ List.mem_cons_self)

end Loops

/-- The states that measuring gets to by asking for the layouts of some types and defining variables of them,
with or without success, and in whatever bounds. -/
inductive Reached (target : Target) (structs : List Explicit.Struct) (able : Ty → Prop) : State → Prop
  | start : Reached target structs able {}
  | asked {s s' : State} {depth : Nat} {t : Ty} {r : Except Stop Layout} (before : Reached target structs able s)
      (can : able t) (runs : Runs (layoutOf t) ⟨target, structs, depth⟩ s r s') : Reached target structs able s'
  | defined {s s' : State} {depth : Nat} {name : Ident} {t : Ty} {r : Except Stop Variable}
      (before : Reached target structs able s) (can : able t)
      (runs : Runs (define name t) ⟨target, structs, depth⟩ s r s') : Reached target structs able s'

section Reached

variable {c : Context} {able : Ty → Prop} {names : Ident → Prop} {f : Ident → Ident} {s s' : State} {t : Ty}

/-- A variable is new and defined once its layout is found, or all stays as it is after the search for the layout. -/
theorem runs_define {name : Ident} {r : Except Stop Variable} (runs : Runs (define name t) c s r s') :
    s' = s ∨ (∃ e, Runs (layoutOf t) c s (.error e) s') ∨
      ∃ l s₁, Runs (layoutOf t) c s (.ok l) s₁ ∧ s.vars.lookup name.tag = none ∧
        s' = { s₁ with vars := (name.tag, ⟨name, t, l⟩) :: s₁.vars } := by
  rw [define, runs_get_bind] at runs
  cases found : s.vars.lookup name.tag with
  | some v =>
    rw [found] at runs
    exact Or.inl (runs_pure.mp runs).2
  | none =>
    rw [found] at runs
    dsimp only at runs
    rw [shapeOf, runs_bind] at runs
    rcases runs with ⟨shape, s₁, shaped, runs⟩ | ⟨e, shaped, rfl⟩
    · obtain ⟨l, s₂, laid, shaped⟩ := runs_bind_ok.mp shaped
      obtain ⟨same, rfl⟩ := runs_pure.mp shaped
      obtain rfl := Except.ok.inj same
      rw [runs_modify_bind, runs_pure] at runs
      exact Or.inr (Or.inr ⟨l, s₁, laid, rfl, runs.2⟩)
    · rcases runs_bind.mp shaped with ⟨l, s₁, -, shaped⟩ | ⟨e', laid, -⟩
      · cases (runs_pure.mp shaped).1
      · exact Or.inr (Or.inl ⟨e', laid⟩)

theorem Reached.distinct {structs : List Explicit.Struct} {target : Target} (reached : Reached target structs able s) :
    Distinct s ∧ s.opened = [] := by
  have step : ∀ {c : Context} {s s' : State} {t : Ty} {r : Except Stop Layout}, Distinct s ∧ s.opened = [] →
      Runs (layoutOf t) c s r s' → Distinct s' ∧ s'.opened = [] := fun before runs =>
    have leads := layoutWithin_leads _ (runs_read_bind.mp runs)
    ⟨leads.distinct before.1, leads.opened.trans before.2⟩
  induction reached with
  | start => exact ⟨⟨List.nodup_nil, List.forall_mem_nil _, List.forall_mem_nil _⟩, rfl⟩
  | asked _ _ runs ih => exact step ih runs
  | defined _ _ runs ih =>
    rcases runs_define runs with rfl | ⟨e, laid⟩ | ⟨l, s₁, laid, -, rfl⟩
    · exact ih
    · exact step ih laid
    · obtain ⟨distinct, idle⟩ := step ih laid
      exact ⟨⟨distinct.once, distinct.listed, distinct.apart⟩, idle⟩

theorem extends_cons {vars : List (Tag × Variable)} {tag : Tag} (fresh : vars.lookup tag = none) (v : Variable) :
    Extends vars ((tag, v) :: vars) := by
  intro other w found
  rw [List.lookup_cons]
  split
  · rename_i same
    rw [eq_of_beq same, fresh] at found
    cases found
  · exact found

theorem layoutOf_answers (reads : ReadsTags names f) (settled : Settled c.structs names) (told : Told names t)
    (fits : Fits c names f s.vars [] s) {r : Except Stop Layout} (runs : Runs (layoutOf t) c s r s') :
    Fits c names f s.vars [] s' ∧ Answers c.structs (ReflTransGen (HasPart c.structs) t)
      (fun l l' => Layout.respell f l = Layout.respell f l')
      (fun n => plainLayout c.target c.structs s.vars n t) r := by
  obtain ⟨fits', answers⟩ := layoutWithin_answers reads settled c.depth told (.singleton t) s r s' fits
    (runs_read_bind.mp runs)
  exact ⟨fits', answers.imp fun u => by simp [Near]⟩

theorem Reached.fits (reached : Reached c.target c.structs (Told names) s) (reads : ReadsTags names f)
    (settled : Settled c.structs names) : Fits c names f s.vars [] s := by
  have step : ∀ {s s' : State} {depth : Nat} {t : Ty} {r : Except Stop Layout}, Fits c names f s.vars [] s →
      Told names t → Runs (layoutOf t) ⟨c.target, c.structs, depth⟩ s r s' → Fits c names f s'.vars [] s' := by
    intro s s' depth t r fits told runs
    obtain ⟨fits', -⟩ := layoutOf_answers (c := ⟨c.target, c.structs, depth⟩) reads settled told
      ⟨fits.same, fits.opened, fits.known⟩ runs
    exact ⟨rfl, fits'.opened, fits'.same ▸ fits'.known⟩
  induction reached with
  | start => exact ⟨rfl, rfl, List.forall_mem_nil _⟩
  | asked _ told runs ih => exact step ih told runs
  | defined _ told runs ih =>
    rcases runs_define runs with rfl | ⟨e, laid⟩ | ⟨l, s₁, laid, fresh, rfl⟩
    · exact ih
    · exact step ih told laid
    · have fits := step ih told laid
      have vars := (layoutWithin_leads _ (runs_read_bind.mp laid)).vars
      refine ⟨rfl, fits.opened, fun e known => ?_⟩
      obtain ⟨u, n, l', told', key, plain, same⟩ := fits.known e known
      obtain ⟨l'', plain', equal⟩ := plainLayout_alike reads (extends_cons (vars ▸ fresh) _) settled.spelled
        (Nat.le_refl n) (.refl u) told'.spelled told'.spelled plain
      exact ⟨u, n, l'', told', key, plain', same.trans equal.symm⟩

/-- Measuring stays among the states that are reached by asking for layouts and defining variables. -/
theorem walks_reached (c : Context) (able : Ty → Prop) :
    Walks c (fun _ => True) (Reached c.target c.structs able) able where
  lays _ can _ reached := meetsIn_iff.mpr ⟨fun _ _ runs => ⟨.asked reached can runs, trivial⟩, fun _ _ _ => trivial⟩
  defines _ _ can _ reached :=
    meetsIn_iff.mpr ⟨fun _ _ runs => ⟨.defined reached can runs, trivial⟩, fun _ _ _ => trivial⟩
  lacking _ := trivial
  unknown _ := trivial
  placed _ _ _ _ := trivial

/-- A type that holds itself nowhere meets only so many types. -/
theorem Finite.exists_keys {structs : List Explicit.Struct} (finite : Finite structs t) :
    ∃ keys, Meeting structs keys t := by
  induction finite with
  | intro t _ ih =>
    have all : ∀ ts : List Ty, (∀ u ∈ ts, ∃ keys, Meeting structs keys u) → ∃ keys, ∀ u ∈ ts, Meeting structs keys u := by
      intro ts each
      induction ts with
      | nil => exact ⟨[], List.forall_mem_nil _⟩
      | cons u rest ihRest =>
        rw [List.forall_mem_cons] at each
        obtain ⟨own, first⟩ := each.1
        obtain ⟨others, later⟩ := ihRest each.2
        exact ⟨own ++ others, List.forall_mem_cons.mpr ⟨fun v here => List.mem_append_left _ (first v here),
          fun u member v here => List.mem_append_right _ (later u member v here)⟩⟩
    obtain ⟨keys, each⟩ := all _ ih
    refine ⟨t.key :: keys, fun u reaches => ?_⟩
    rcases reaches.cases_head with rfl | ⟨v, part, later⟩
    · exact List.mem_cons_self
    · exact List.mem_cons_of_mem _ (each v part u later)

/-- The search for a layout in a bound that is wide enough is not given up. -/
theorem Reached.ends (reached : Reached c.target c.structs able s) (reaches : c.Reaches t) {r : Except Stop Layout}
    (runs : Runs (layoutOf t) c s r s') : r ≠ .error .endless := by
  rintro rfl
  exact (meetsIn_iff.mp ((walks_ends c).lays t reaches s reached.distinct.2)).2 _ _ runs

/-- A type that a reached type holds is a finished type of the program. -/
theorem Told.of_reaches (settled : Settled c.structs names) (told : Told names t) {u : Ty}
    (reaches : ReflTransGen (HasPart c.structs) t u) : Told names u := by
  induction reaches with
  | refl => exact told
  | tail _ part ih => exact ih.part settled part

/-- Wherever measuring has got to, the layout of a type that holds itself nowhere is found as if nothing was known. -/
theorem Reached.layoutOf_plain (reached : Reached c.target c.structs (Told names) s) (reads : ReadsTags names f)
    (settled : Settled c.structs names) (told : Told names t) (finite : Finite c.structs t) (reaches : c.Reaches t)
    (deep : plainLayout c.target c.structs s.vars c.depth t ≠ .error .endless) {r : Except Stop Layout}
    (runs : Runs (layoutOf t) c s r s') :
    r.map (Layout.respell f) = (plainLayout c.target c.structs s.vars c.depth t).map (Layout.respell f) := by
  have settles : ∀ {n r}, plainLayout c.target c.structs s.vars n t = r → r ≠ .error .endless →
      plainLayout c.target c.structs s.vars c.depth t = r := by
    intro n r plain ended
    have wider := plainLayout_completes (Nat.le_max_left n c.depth) t (by rw [plain]; exact ended)
    rw [← plain, ← wider, plainLayout_completes (Nat.le_max_right n c.depth) t deep]
  obtain ⟨-, answers⟩ := layoutOf_answers reads settled told (reached.fits reads settled) runs
  cases answers with
  | found plain same => rw [settles plain nofun, Except.map, Except.map, same]
  | failed plain other => rw [settles plain fun wrong => other (Except.error.inj wrong)]
  | looped cycle inside =>
    obtain ⟨u, member, key, holds⟩ := cycle.exists_holds
    have first := inside u (List.mem_append_left _ member)
    have last := inside _ List.mem_concat_self
    refine absurd holds ((finite.of_reaches first).irrefl ?_)
    exact Ty.alike_of_key (told.of_reaches settled last).closed (told.of_reaches settled first).closed key.symm
  | endless => exact absurd rfl (reached.ends reaches runs)

end Reached

section Programs

/-- The structs of a program in terms of their type parameters, and what there is once they have been measured. -/
def metadata (depth : Nat) (p : Explicit.Program) (target : Target) : Except Failure (List Struct × State) :=
  eachDefinition ⟨target, p.structs, depth⟩ (·.name) (fun s => struct s (p.builder? s.name.tag)) {} p.structs

variable {p : Explicit.Program} {target : Target} {depth : Nat} {able : Ty → Prop}

theorem reached_of_metadata (description : able Ty.witness) (fields : ∀ d ∈ p.structs, ∀ x ∈ d.fields, able x.type)
    {metas : List Struct} {st : State} (done : metadata depth p target = .ok (metas, st)) :
    Reached target p.structs able st :=
  (eachDefinition_keeps (fun d member => (walks_reached _ able).struct description (fields d member)) .start done).2

/-- A program that has been measured has no two instances of the same type. -/
theorem nodup_instances {q : Program} (done : measureWithin depth p target = .ok q) :
    (q.instances.map (·.type.key)).Nodup := by
  rw [measureWithin] at done
  obtain ⟨⟨metas, s₁⟩, first, done⟩ := Except.bind_eq_ok.mp done
  obtain ⟨⟨functions, s₂⟩, second, done⟩ := Except.bind_eq_ok.mp done
  obtain rfl := Except.ok.inj done
  have reached : Reached target p.structs (fun _ => True) s₁ :=
    reached_of_metadata trivial (fun _ _ _ _ => trivial) first
  have last := (eachDefinition_keeps (fun f _ => (walks_reached _ _).function (fun _ _ => trivial) fun _ _ => trivial)
    reached second).2
  exact last.distinct.1.once

/-- Asks for the layouts of types one after the other, whether they are found or not. -/
def ask (c : Context) : State → List Ty → List (Except Stop Layout) × State
  | s, [] => ([], s)
  | s, t :: rest =>
    let (r, s) := outcome (layoutOf t c) s
    let (rs, s) := ask c s rest
    (r :: rs, s)

theorem spelled_anyway (t : Ty) : t.Spelled (typeNames fun _ => True) := by
  induction t with
  | named name args ih => exact Ty.spelled_named.mpr ⟨trivial, ih⟩
  | generic name => exact Ty.spelled_generic.mpr trivial
  | func args result ih ihResult => exact Ty.spelled_func.mpr ⟨ih, ihResult⟩
  | cell cell => exact Ty.spelled_cell

/-- Each answer is found without regard to the questions before. -/
theorem ask_plain {c : Context} {names : Ident → Prop} {f : Ident → Ident} {s : State} {ts : List Ty}
    (reached : Reached c.target c.structs (Told names) s) (reads : ReadsTags names f) (settled : Settled c.structs names)
    (told : ∀ t ∈ ts, Told names t) (finite : ∀ t ∈ ts, Finite c.structs t) (reaches : ∀ t ∈ ts, c.Reaches t)
    (deep : ∀ t ∈ ts, plainLayout c.target c.structs s.vars c.depth t ≠ .error .endless) :
    Reached c.target c.structs (Told names) (ask c s ts).2 ∧ (ask c s ts).1.map (·.map (Layout.respell f)) =
      ts.map fun t => (plainLayout c.target c.structs s.vars c.depth t).map (Layout.respell f) := by
  induction ts generalizing s with
  | nil => exact ⟨reached, rfl⟩
  | cons t rest ih =>
    rw [List.forall_mem_cons] at told finite reaches deep
    have runs : Runs (layoutOf t) c s (outcome (layoutOf t c) s).1 (outcome (layoutOf t c) s).2 := rfl
    have next := Reached.asked reached told.1 runs
    have vars := (layoutWithin_leads _ (runs_read_bind.mp runs)).vars
    obtain ⟨last, others⟩ := ih next told.2 finite.2 reaches.2 (by rw [vars]; exact deep.2)
    rw [vars] at others
    exact ⟨last, congrArg₂ List.cons (reached.layoutOf_plain reads settled told.1 finite.1 reaches.1 deep.1 runs) others⟩

/-- The tags in some types tell their names apart. -/
def TagsTell (ts : List Ty) : Prop :=
  ∃ names : Ident → Prop, (∀ t ∈ ts, t.Spelled (typeNames names)) ∧ ∀ i j, names i → names j → i.tag = j.tag → i = j

/-- Remembering layouts makes no difference: from where the structs of a program have been measured, the answers to
any questions for the layouts of types that hold themselves nowhere are those that are found without a memory, one
by one. No two instances are those of the same type, neither behind the questions nor in a measured program. -/
theorem ask_metadata (settled : ∀ d ∈ p.structs, ∀ x ∈ d.fields, x.type.cells = []) {ts : List Ty}
    (closed : ∀ t ∈ ts, t.cells = []) (finite : ∀ t ∈ ts, Finite p.structs t) :
    (∀ q, measure p target = .ok q → (q.instances.map (·.type.key)).Nodup) ∧
    ∃ bound, ∀ depth ≥ bound, ∀ within metas st, metadata within p target = .ok (metas, st) →
      let c : Context := ⟨target, p.structs, depth⟩
      (∀ t ∈ ts, plainLayout target p.structs st.vars depth t ≠ .error .endless) ∧
      (ask c st ts).1.map (·.map (Layout.respell Ident.erase)) =
        ts.map (fun t => (plainLayout target p.structs st.vars depth t).map (Layout.respell Ident.erase)) ∧
      (TagsTell (Ty.witness :: ts ++ p.structs.flatMap fun d => d.fields.map (·.type)) →
        (ask c st ts).1 = ts.map (plainLayout target p.structs st.vars depth)) ∧
      ((ask c st ts).2.instances.map (·.type.key)).Nodup := by
  refine ⟨fun q done => (exists_measureWithin done).elim fun _ within => nodup_instances within, ?_⟩
  obtain ⟨bound, wide⟩ : ∃ bound, ∀ n ≥ bound, ∀ t ∈ ts, (Context.mk target p.structs n).Reaches t ∧
      ∀ vars, plainLayout target p.structs vars n t ≠ .error .endless := exists_bound fun t member => by
    obtain ⟨keys, meeting⟩ := (finite t member).exists_keys
    obtain ⟨deep, ends⟩ := (finite t member).exists_depth target
    refine ⟨max (keys.length + 1) deep, fun n large => ⟨⟨keys, ?_, meeting⟩, ends n ?_⟩⟩
    · exact Nat.le_trans (Nat.le_max_left _ _) large
    · exact Nat.le_trans (Nat.le_max_right _ _) large
  refine ⟨bound, fun depth large within metas st done => ?_⟩
  dsimp only
  -- The answers for some way of writing names that the tags tell apart.
  have right : ∀ {names : Ident → Prop} {f : Ident → Ident}, ReadsTags names f → Ty.witness.Spelled (typeNames names) →
      (∀ t ∈ ts, t.Spelled (typeNames names)) → Names p.structs names →
      Reached target p.structs (Told names) (ask ⟨target, p.structs, depth⟩ st ts).2 ∧
      (ask ⟨target, p.structs, depth⟩ st ts).1.map (·.map (Layout.respell f)) =
        ts.map fun t => (plainLayout target p.structs st.vars depth t).map (Layout.respell f) := by
    intro names f reads description asked spelled
    have fields : Settled p.structs names := fun d member x field => ⟨settled d member x field, spelled d member x field⟩
    exact ask_plain (reached_of_metadata ⟨rfl, description⟩ fields done) reads fields
      (fun t member => ⟨closed t member, asked t member⟩) finite (fun t member => (wide depth large t member).1)
      fun t member => (wide depth large t member).2 _
  have anyway : ReadsTags (fun _ => True) Ident.erase := fun i j _ _ same => Ident.erase_inj.mpr same
  obtain ⟨reached, erased⟩ := right anyway (spelled_anyway _) (fun t _ => spelled_anyway t)
    fun _ _ x _ => spelled_anyway x.type
  refine ⟨fun t member => (wide depth large t member).2 _, erased, ?_, reached.distinct.1.once⟩
  rintro ⟨names, spelled, apart⟩
  rw [List.cons_append, List.forall_mem_cons, List.forall_mem_append, List.forall_mem_flatMap] at spelled
  obtain ⟨description, asked, fields⟩ := spelled
  have exactly := (right (f := id) apart description asked
    fun d member x field => fields d member x.type (List.mem_map_of_mem field)).2
  have same : ∀ r : Except Stop Layout, r.map (Layout.respell id) = r := fun r => by
    cases r with
    | ok l => exact congrArg Except.ok l.respell_id
    | error e => rfl
  simpa only [same, List.map_id'] using exactly

/-- The name of a struct that a sample declares. -/
def structName (key : Nat) (name : String) : Ident := ⟨⟨1, key⟩, name, true⟩

/-- The type parameter of the box in the samples. -/
def boxedName : Ident := ⟨⟨1, 2⟩, "a", false⟩

def boxStruct : Explicit.Struct := ⟨{}, structName 1 "Box", [boxedName], [⟨"v", .generic boxedName⟩]⟩

def boxOf (t : Ty) : Ty := .named (structName 1 "Box") [t]

def pairType : Ty := .named (structName 0 "Pair") []

/-- A program with a pair of numbers, and a box. -/
def boxes : Explicit.Program :=
  let structs := [⟨{}, structName 0 "Pair", [], [⟨"a", .float⟩, ⟨"b", .float⟩]⟩, boxStruct]
  ⟨1, structs, structs.map Explicit.builderOf, []⟩

/-- A box is asked for before what it holds, and once more behind it. -/
def boxTypes : List Ty := [boxOf pairType, boxOf (.generic boxedName), pairType, boxOf pairType]

theorem boxes_asked : ∃ metas st bound, metadata 9 boxes .wide = .ok (metas, st) ∧ ∀ depth ≥ bound,
    let answers := ask ⟨.wide, boxes.structs, depth⟩ st boxTypes
    answers.1 = boxTypes.map (plainLayout .wide boxes.structs st.vars depth) ∧
      (answers.2.instances.map (·.type.key)).Nodup := by
  obtain ⟨⟨metas, st⟩, made⟩ : ∃ made, (metadata 9 boxes .wide).toOption = some made :=
    Option.isSome_iff_exists.mp (by decide +kernel)
  have done := Except.toOption_eq_some.mp made
  have pair : Finite boxes.structs pairType :=
    finite_of_plainLayout (show plainLayout .wide boxes.structs [] 9 pairType = .ok _ from rfl)
  have boxed : Finite boxes.structs (boxOf pairType) :=
    finite_of_plainLayout (show plainLayout .wide boxes.structs [] 9 (boxOf pairType) = .ok _ from rfl)
  have parametric : Finite boxes.structs (boxOf (.generic boxedName)) :=
    ⟨_, fun t part => ⟨t, fun u inner => by
      obtain rfl := List.mem_singleton.mp (show t ∈ [Ty.generic boxedName] from part)
      cases inner⟩⟩
  have finite : ∀ t ∈ boxTypes, Finite boxes.structs t :=
    List.forall_mem_cons.mpr ⟨boxed, List.forall_mem_cons.mpr ⟨parametric, by simp [pair, boxed]⟩⟩
  obtain ⟨-, bound, right⟩ := @ask_metadata boxes .wide (by decide +kernel) boxTypes (by decide +kernel) finite
  refine ⟨metas, st, bound, done, fun depth deep => ?_⟩
  obtain ⟨-, -, same, once⟩ := right depth deep 9 metas st done
  let names : List Ident := [⟨.witness, "Type", true⟩, ⟨.float, "F64", true⟩, structName 0 "Pair", structName 1 "Box"]
  refine ⟨same ⟨(· ∈ names), ?_, ?_⟩, once⟩
  · simp [names, Ty.witness, Ty.float, typeNames, boxes, boxStruct, boxTypes, boxOf, pairType]
  · intro i j own other
    revert j
    revert i
    decide +kernel

end Programs

end WitnessLang.Sized
