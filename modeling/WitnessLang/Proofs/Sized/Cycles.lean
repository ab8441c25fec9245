import WitnessLang.Proofs.Sized.Reached

set_option autoImplicit false

/-! Types that hold themselves. Where only so many types are met inside of a type, the search for its layout
comes to an end, whatever was asked for before. It fails for recursion exactly if one of these types holds
itself, and tells the way from there back to it. Functions hold nothing, so no such way leads through one. -/
namespace WitnessLang

structure Spelling.Apart (S : Spelling) : Prop where
  bound : ∀ i j, S.bound i → S.bound j → i.tag = j.tag → i = j
  type : ∀ i j, S.type i → S.type j → i.tag = j.tag → i = j

namespace Sized

open Relation (ReflTransGen TransGen)

/-- In a wider bound, the second does what the first does, unless that one gives up. -/
def Deepens (target : Target) (structs : List Explicit.Struct) (n m : Nat) {α : Type} (x y : Measure α) : Prop :=
  ∀ s r s', Runs x ⟨target, structs, n⟩ s r s' → r ≠ .error .endless → Runs y ⟨target, structs, m⟩ s r s'

section Deepens

variable {target : Target} {structs : List Explicit.Struct} {n m : Nat} {self self' : Ty → Measure Layout}

theorem deepens_pure {α : Type} (a : α) : Deepens target structs n m (pure a) (pure a) :=
  fun _ _ _ runs _ => runs_pure.mpr (runs_pure.mp runs)

theorem deepens_throw {α : Type} (e : Stop) : Deepens target structs n m (throw e : Measure α) (throw e) :=
  fun _ _ _ runs _ => runs_throw.mpr (runs_throw.mp runs)

theorem deepens_throw_bind {α β : Type} (e : Stop) (f g : α → Measure β) :
    Deepens target structs n m ((throw e : Measure α) >>= f) (throw e >>= g) :=
  fun _ _ _ runs _ => runs_throw_bind.mpr (runs_throw_bind.mp runs)

theorem deepens_modify (f : State → State) : Deepens target structs n m (modify f) (modify f) :=
  fun _ _ _ runs _ => runs_modify.mpr (runs_modify.mp runs)

theorem deepens_get_bind {β : Type} {f g : State → Measure β} (next : ∀ s, Deepens target structs n m (f s) (g s)) :
    Deepens target structs n m (get >>= f) (get >>= g) :=
  fun s _ _ runs ended => runs_get_bind.mpr (next s _ _ _ (runs_get_bind.mp runs) ended)

theorem deepens_read_bind {β : Type} {f g : Context → Measure β}
    (next : Deepens target structs n m (f ⟨target, structs, n⟩) (g ⟨target, structs, m⟩)) :
    Deepens target structs n m (read >>= f) (read >>= g) :=
  fun _ _ _ runs ended => runs_read_bind.mpr (next _ _ _ (runs_read_bind.mp runs) ended)

theorem Deepens.bind {α β : Type} {x y : Measure α} {f g : α → Measure β} (first : Deepens target structs n m x y)
    (next : ∀ a, Deepens target structs n m (f a) (g a)) : Deepens target structs n m (x >>= f) (y >>= g) := by
  intro s r s' runs ended
  rcases runs_bind.mp runs with ⟨a, s₁, front, back⟩ | ⟨e, front, rfl⟩
  · exact runs_bind.mpr (Or.inl ⟨a, s₁, first _ _ _ front (fun wrong => by cases wrong), next a _ _ _ back ended⟩)
  · exact runs_bind.mpr (Or.inr ⟨e, first _ _ _ front fun wrong => ended (by cases wrong; rfl), rfl⟩)

theorem Deepens.whileOpen {α : Type} {x y : Measure α} (deepens : Deepens target structs n m x y) (o : OpenType) :
    Deepens target structs n m (whileOpen o x) (whileOpen o y) := by
  intro s r s' runs ended
  obtain ⟨s₁, inner, rfl⟩ := runs_whileOpen.mp runs
  exact runs_whileOpen.mpr ⟨s₁, deepens _ _ _ inner ended, rfl⟩

/-- Looking at what there is does not depend on the bound. -/
theorem Deepens.of_looks {α : Type} {x : Measure α} {answer : State → Except Stop α}
    (looks : ∀ c : Context, Looks c x answer) : Deepens target structs n m x x := by
  intro s r s' runs _
  obtain ⟨rfl, rfl⟩ := (looks _).of_runs runs
  exact looks _ _

theorem fieldsLayout_deepens (each : ∀ t, Deepens target structs n m (self t) (self' t)) (size : Size) (plain : Bool)
    (ts : List Ty) :
    Deepens target structs n m (fieldsLayout.go self size plain ts) (fieldsLayout.go self' size plain ts) := by
  induction ts generalizing size plain with
  | nil => exact deepens_pure _
  | cons t rest ih =>
    rw [fieldsLayout.go, fieldsLayout.go]
    exact (each t).bind fun l => ih _ _

theorem structLayout_deepens (each : ∀ t, Deepens target structs n m (self t) (self' t)) (name : Ident)
    (args : List Ty) : Deepens target structs n m (structLayout self name args) (structLayout self' name args) := by
  rw [structLayout, structLayout]
  refine deepens_read_bind ?_
  dsimp only [Context.struct?]
  cases structs.reverse.find? fun d => d.name.tag == name.tag with
  | none => exact deepens_throw _
  | some d =>
    dsimp only
    by_cases arity : d.generics.length ≠ args.length
    · rw [if_pos arity, if_pos arity]
      exact deepens_throw_bind _ _ _
    rw [if_neg arity, if_neg arity]
    refine (fieldsLayout_deepens each _ _ _).bind fun made => ?_
    have instanced : ∀ w : Witness, Deepens target structs n m
        (modify (fun s : State => { s with instances := s.instances ++ [⟨d.name, args, ⟨w, made.1⟩⟩] }) >>= fun _ =>
          (pure ⟨w, made.1⟩ : Measure Layout))
        (modify (fun s : State => { s with instances := s.instances ++ [⟨d.name, args, ⟨w, made.1⟩⟩] }) >>= fun _ =>
          pure ⟨w, made.1⟩) := fun w => (deepens_modify _).bind fun _ => deepens_pure _
    by_cases plain : made.2 = true
    · rw [if_pos plain]
      exact (deepens_pure _).bind instanced
    · rw [if_neg plain]
      exact (Deepens.of_looks fun c => dynamic_looks _).bind instanced

theorem computeLayout_deepens (each : ∀ t, Deepens target structs n m (self t) (self' t)) (t : Ty) :
    Deepens target structs n m (computeLayout self t) (computeLayout self' t) := by
  cases t with
  | named name args =>
    rw [computeLayout, computeLayout]
    by_cases basic : name.tag = .float ∨ name.tag = .bool
    · rw [if_pos basic, if_pos basic]
      exact deepens_pure _
    rw [if_neg basic, if_neg basic]
    by_cases other : name.tag = .witness
    · rw [if_pos other, if_pos other]
      exact deepens_read_bind (deepens_pure _)
    rw [if_neg other, if_neg other]
    exact structLayout_deepens each name args
  | generic name =>
    rw [computeLayout, computeLayout]
    exact (Deepens.of_looks fun c => lookup_looks name).bind fun v => deepens_pure _
  | func args result =>
    rw [computeLayout, computeLayout]
    exact (Deepens.of_looks fun c => witness_looks _).bind fun w => deepens_read_bind (deepens_pure _)
  | cell cell =>
    rw [computeLayout, computeLayout]
    exact deepens_throw _

theorem layoutStep_deepens (each : ∀ t, Deepens target structs n m (self t) (self' t)) (t : Ty) :
    Deepens target structs n m (layoutStep self t) (layoutStep self' t) := by
  rw [layoutStep, layoutStep]
  refine deepens_get_bind fun s => ?_
  cases s.known.lookup t.key with
  | some l => exact deepens_pure l
  | none =>
    dsimp only
    by_cases within : (!(s.opened.dropWhile fun o => o.key != t.key).isEmpty) = true
    · rw [if_pos within, if_pos within]
      exact deepens_throw_bind _ _ _
    rw [if_neg within, if_neg within]
    exact ((computeLayout_deepens each t).whileOpen _).bind fun l => (deepens_modify _).bind fun _ => deepens_pure l

/-- Searching deeper changes nothing where the search was not given up. -/
theorem layoutWithin_deepens {k l : Nat} (deeper : k ≤ l) (t : Ty) :
    Deepens target structs n m (layoutWithin k t) (layoutWithin l t) := by
  induction k generalizing l t with
  | zero => exact fun _ _ _ runs ended => absurd (runs_throw.mp runs).1 ended
  | succ k ih =>
    obtain ⟨l, rfl⟩ : ∃ i, l = i + 1 := ⟨l - 1, by omega⟩
    exact layoutStep_deepens (fun t => ih (by omega) t) t

theorem layoutOf_deepens (deeper : n ≤ m) (t : Ty) : Deepens target structs n m (layoutOf t) (layoutOf t) :=
  deepens_read_bind (layoutWithin_deepens deeper t)

end Deepens

section Cycles

variable {target : Target} {structs : List Explicit.Struct} {t last : Ty} {us : List Ty} {s s' : State}

/-- A type that holds another of its key holds itself: types are the same if their keys are. -/
def HoldsItself (structs : List Explicit.Struct) (t : Ty) : Prop :=
  ∃ u, TransGen (HasPart structs) t u ∧ u.key = t.key

/-- The search has found a type that holds itself. -/
def IsRecursive (r : Except Stop Layout) : Prop := ∃ text way span, r = .error (.fault (.recursive text way) span)

/-- The way from a type back to it, inside of `t`. Each type holds the next, and all of them are structs. -/
structure LeadsBack (structs : List Explicit.Struct) (t : Ty) (us : List Ty) (last : Ty) : Prop where
  cycle : Cycle structs us last
  inside : ∀ u ∈ us ++ [last], ReflTransGen (HasPart structs) t u
  struct : ∀ u ∈ us ++ [last], ∃ name args, u = .named name args
  same : ∀ S : Spelling, S.Apart → t.Spelled S → (∀ d ∈ structs, ∀ x ∈ d.fields, x.type.Spelled S) →
    us.head? = some last

theorem Reached.mono {able able' : Ty → Prop} (reached : Reached target structs able s)
    (wider : ∀ t, able t → able' t) : Reached target structs able' s := by
  induction reached with
  | start => exact .start
  | asked _ can runs ih => exact .asked ih (wider _ can) runs
  | defined _ can runs ih => exact .defined ih (wider _ can) runs

theorem spelled_of_reaches {S : Spelling} (whole : ∀ d ∈ structs, ∀ x ∈ d.fields, x.type.Spelled S)
    (spelled : t.Spelled S) {u : Ty} (reaches : ReflTransGen (HasPart structs) t u) : u.Spelled S := by
  induction reaches with
  | refl => exact spelled
  | tail _ part ih => exact part.spelled whole ih

/-- All types on a way but the last hold another, and the last is the first again. -/
theorem Cycle.struct (cycle : Cycle structs us last) (closed : ∀ u ∈ us ++ [last], u.cells = []) :
    ∀ u ∈ us ++ [last], ∃ name args, u = .named name args := by
  have holding : ∀ u ∈ us, ∃ name args, u = .named name args := by
    intro u member
    obtain ⟨before, after, rfl⟩ := List.append_of_mem member
    have chain := cycle.holds
    rw [List.append_assoc] at chain
    have chain := chain.right_of_append
    have part : ∃ v, HasPart structs u v := by
      cases after with
      | nil => exact ⟨last, List.isChain_pair.mp chain⟩
      | cons v rest => exact ⟨v, (List.isChain_cons_cons.mp chain).1⟩
    obtain ⟨v, part⟩ := part
    obtain ⟨name, args, same, -⟩ := part.exists_field
    exact ⟨name, args, same⟩
  refine List.forall_mem_append.mpr ⟨holding, List.forall_mem_singleton.mpr ?_⟩
  obtain ⟨-, first, rest, rfl, key⟩ := cycle
  obtain ⟨name, args, rfl⟩ := holding first List.mem_cons_self
  have alike : (Ty.named name args).Alike last :=
    Ty.alike_of_key (closed _ List.mem_cons_self) (closed _ List.mem_concat_self) key
  cases last with
  | named name' args' => exact ⟨name', args', rfl⟩
  | _ => simp [Ty.Alike] at alike

theorem Cycle.leadsBack (cycle : Cycle structs us last)
    (inside : ∀ u ∈ us ++ [last], ReflTransGen (HasPart structs) t u) (closed : ∀ u ∈ us ++ [last], u.cells = []) :
    LeadsBack structs t us last := by
  refine ⟨cycle, inside, cycle.struct closed, fun S apart own whole => ?_⟩
  have spelled : ∀ u ∈ us ++ [last], u.Spelled S := fun u member => spelled_of_reaches whole own (inside u member)
  obtain ⟨-, first, rest, rfl, key⟩ := cycle
  rw [List.head?_cons, Option.some.injEq]
  apply Ty.Spelled.eq_of_alike apart.bound apart.type (spelled _ List.mem_cons_self) (spelled _ List.mem_concat_self)
  exact Ty.alike_of_key (closed _ List.mem_cons_self) (closed _ List.mem_concat_self) key

/-- Where only so many types are met inside of a type, the search for its layout ends, in every bound that is wider
than that and with the same answer. Whatever was asked for before, it finds the layout unless one of these types
holds itself; then it tells how that type leads back to itself, through structs only. -/
theorem layoutOf_recursive (whole : (Context.mk target structs 0).Formed) {own : List Tag}
    (formed : t.Formed (Context.mk target structs 0).arity own []) {keys : List String}
    (meeting : Meeting structs keys t) (reached : Reached target structs (·.cells = []) s)
    (held : ∀ tag ∈ own, ∃ v, s.vars.lookup tag = some v) :
    ∃ r s', (∀ depth > keys.length, Runs (layoutOf t) ⟨target, structs, depth⟩ s r s') ∧
      ((∃ l, r = .ok l) ∨ IsRecursive r) ∧
      (IsRecursive r ↔ ∃ u, ReflTransGen (HasPart structs) t u ∧ HoldsItself structs u) ∧
      ∀ text way span, r = .error (.fault (.recursive text way) span) →
        ∃ us last, text = last.render ∧ way = (us ++ [last]).map Ty.render ∧ LeadsBack structs t us last := by
  -- Names do not matter for what is found here, so they are all taken to be the same.
  have anyway : ReadsTags (fun _ => True) Ident.erase := fun i j _ _ same => Ident.erase_inj.mpr same
  have settled : Settled structs fun _ => True := fun d member x field =>
    ⟨(whole d member x field).closed, spelled_anyway _⟩
  have told : Told (fun _ => True) t := ⟨formed.closed, spelled_anyway t⟩
  let c : Context := ⟨target, structs, keys.length + 1⟩
  have closed : ∀ {u}, ReflTransGen (HasPart structs) t u → u.cells = [] := fun reaches =>
    (told.of_reaches (c := c) settled reaches).closed
  obtain ⟨r, s', runs⟩ : ∃ r s', Runs (layoutOf t) c s r s' := ⟨_, _, rfl⟩
  have ends : r ≠ .error .endless := reached.ends (c := c) ⟨keys, Nat.lt_succ_self _, meeting⟩ runs
  have reached : Reached target structs (Told fun _ => True) s := reached.mono fun u own => ⟨own, spelled_anyway u⟩
  obtain ⟨-, answers⟩ := layoutOf_answers (c := c) anyway settled told (reached.fits (c := c) anyway settled) runs
  refine ⟨r, s', fun depth wide => layoutOf_deepens wide t s r s' runs ends, ?_⟩
  cases answers with
  | found plain same =>
    have finite : Finite structs t := finite_of_plainLayout plain
    refine ⟨Or.inl ⟨_, rfl⟩, ⟨?_, ?_⟩, fun text way span wrong => by cases wrong⟩
    · rintro ⟨text, way, span, wrong⟩
      cases wrong
    · rintro ⟨u, reaches, v, held, key⟩
      have alike : v.Alike u := Ty.alike_of_key (closed (reaches.trans held.to_reflTransGen)) (closed reaches) key
      exact absurd held ((finite.of_reaches reaches).irrefl alike)
  | failed plain other =>
    rename_i n e
    have gives : Gives (· = .endless) (plainLayout target structs s.vars n t) fun _ => True :=
      plainLayout_formed whole held formed
    rw [show plainLayout target structs s.vars n t = .error e from plain] at gives
    exact absurd gives other
  | looped cycle inside =>
    refine ⟨Or.inr ⟨_, _, _, rfl⟩, ⟨fun _ => ?_, fun _ => ⟨_, _, _, rfl⟩⟩, fun text way span same => ?_⟩
    · obtain ⟨u, member, key, holds⟩ := cycle.exists_holds
      exact ⟨u, inside u (List.mem_append_left _ member), _, holds, key.symm⟩
    · cases same
      exact ⟨_, _, rfl, rfl, cycle.leadsBack inside fun u member => closed (inside u member)⟩
  | endless => exact absurd rfl ends

/-- A struct that holds itself in a box in a box. -/
def knotType : Ty := .named (structName 3 "Knot") []

/-- A program with a knot, and a box that is met twice on the way back to it. -/
def knots : List Explicit.Struct := [boxStruct, ⟨{}, structName 3 "Knot", [], [⟨"own", boxOf (boxOf knotType)⟩]⟩]

theorem knots_recursive : ∃ s', ∀ depth > 3, Runs (layoutOf knotType) ⟨.wide, knots, depth⟩ {}
    (.error (.fault (.recursive "Knot" ["Knot", "Box[Box[Knot]]", "Box[Knot]", "Knot"]) {})) s' := by
  have outer : parts knots knotType = [boxOf (boxOf knotType)] := rfl
  have middle : parts knots (boxOf (boxOf knotType)) = [boxOf knotType] := rfl
  have inner : parts knots (boxOf knotType) = [knotType] := rfl
  let keys := [knotType, boxOf (boxOf knotType), boxOf knotType].map Ty.key
  have meeting : Meeting knots keys knotType := by
    intro u reaches
    apply List.mem_map_of_mem
    induction reaches with
    | refl => exact List.mem_cons_self
    | tail _ part ih =>
      simp only [List.mem_cons, List.not_mem_nil, or_false] at ih ⊢
      rcases ih with rfl | rfl | rfl <;> simp_all [HasPart]
  have boxed : ∀ t : Ty, t.Formed (Context.mk .wide knots 0).arity [] [] →
      (boxOf t).Formed (Context.mk .wide knots 0).arity [] [] := fun t inner =>
    Ty.formed_named.mpr ⟨rfl, List.forall_mem_singleton.mpr inner⟩
  have formed : knotType.Formed (Context.mk .wide knots 0).arity [] [] :=
    Ty.formed_named.mpr ⟨rfl, List.forall_mem_nil _⟩
  have whole : (Context.mk .wide knots 0).Formed := by
    refine List.forall_mem_cons.mpr ⟨List.forall_mem_singleton.mpr ?_, List.forall_mem_singleton.mpr ?_⟩
    · exact Ty.formed_generic.mpr List.mem_cons_self
    · exact List.forall_mem_singleton.mpr (boxed _ (boxed _ formed))
  have answer : Runs (layoutOf knotType) ⟨.wide, knots, 4⟩ {}
      (.error (.fault (.recursive "Knot" ["Knot", "Box[Box[Knot]]", "Box[Knot]", "Knot"]) {})) {} := rfl
  obtain ⟨r, s', runs, -⟩ := layoutOf_recursive whole formed meeting .start (List.forall_mem_nil _)
  obtain ⟨rfl, rfl⟩ := (runs 4 (by decide)).unique answer
  exact ⟨_, runs⟩

end Cycles

end Sized
end WitnessLang
