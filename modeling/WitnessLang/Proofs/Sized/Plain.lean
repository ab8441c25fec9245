import WitnessLang.Proofs.Sized.Finite
import WitnessLang.Proofs.Types.Spelled

set_option autoImplicit false

namespace WitnessLang

mutual

/-- A description with other names for its constructors. -/
def WitnessExpr.respell (f : Ident → Ident) : WitnessExpr → WitnessExpr
  | .var name => .var name
  | .build constructor args => .build (f constructor) (respellAll f args)

def WitnessExpr.respellAll (f : Ident → Ident) : List WitnessExpr → List WitnessExpr
  | [] => []
  | w :: rest => w.respell f :: respellAll f rest

end

mutual

theorem WitnessExpr.respell_id : (w : WitnessExpr) → w.respell id = w
  | .var _ => rfl
  | .build constructor args => congrArg (build constructor) (respellAll_id args)

theorem WitnessExpr.respellAll_id : (ws : List WitnessExpr) → respellAll id ws = ws
  | [] => rfl
  | w :: rest => congrArg₂ List.cons (respell_id w) (respellAll_id rest)

end

namespace Sized

/-- How a type is copied and destroyed, with other names for the constructors of its description. -/
def Witness.respell (f : Ident → Ident) : Witness → Witness
  | .dynamic w => .dynamic (w.respell f)
  | w => w

/-- A layout with other names for the constructors of its description. -/
def Layout.respell (f : Ident → Ident) (l : Layout) : Layout := { l with witness := l.witness.respell f }

theorem Layout.isTrivial_respell (f : Ident → Ident) (l : Layout) :
    (l.respell f).witness.isTrivial = l.witness.isTrivial := by
  obtain ⟨w, size⟩ := l
  cases w <;> rfl

theorem Layout.respell_id (l : Layout) : l.respell id = l := by
  obtain ⟨w, size⟩ := l
  cases w with
  | dynamic w => exact congrArg (fun w => Layout.mk (.dynamic w) size) w.respell_id
  | _ => rfl

section Definition

variable (target : Target) (structs : List Explicit.Struct) (vars : List (Tag × Variable))

/-- The variable of a name, which has to be defined. -/
def variableOf (name : Ident) : Except Stop Variable :=
  match vars.lookup name.tag with
  | some v => .ok v
  | none => .error (.inconsistent ("sizer: variable " ++ name.mangled ++ " not in scope"))

mutual

/-- The computation of a description, with the names of the variables as they were defined. -/
def described : WitnessExpr → Except Stop WitnessExpr
  | .var name => return .var (← variableOf vars name).name
  | .build constructor args => return .build constructor (← describedAll args)

/-- The same for several computations, in order. -/
def describedAll : List WitnessExpr → Except Stop (List WitnessExpr)
  | [] => return []
  | w :: rest => do
    let w ← described w
    return w :: (← describedAll rest)

end

def totalSize (ls : List Layout) : Size := (ls.map (·.size)).foldl Size.add {}

/-- The layout of a struct value: it is as large as its fields together, and plain bytes if all of them are. -/
def joined (t : Ty) (size : Size) (plain : Bool) : Except Stop Layout :=
  if plain then .ok ⟨.trivial size.static, size⟩
  else return ⟨.dynamic (← described vars t.witnessExpr), size⟩

/-- The layout of a type from those of its parts, which `self` gives. -/
def fromParts (self : Ty → Except Stop Layout) (t : Ty) : Except Stop Layout := do
  let ls ← (parts structs t).mapM self
  joined vars t (totalSize ls) (ls.all (·.witness.isTrivial))

/-- The layout of a type whose parts nest at most `n` deep, found without a memory. -/
def plainLayout : Nat → Ty → Except Stop Layout
  | 0, _ => .error .endless
  | n + 1, .named name args =>
    if name.tag = .float ∨ name.tag = .bool then .ok ⟨.trivial 8, ⟨8, []⟩⟩
    else if name.tag = .witness then .ok ⟨.type, ⟨target.witnessSize, []⟩⟩
    else match structs.reverse.find? fun s => s.name.tag == name.tag with
      | none => .error (.fault (.unknownStruct (Ty.named name args).render) {})
      | some s =>
        if s.generics.length ≠ args.length then
          .error (.inconsistent ("sizer: " ++ s.name.mangled ++ " applied to "
            ++ toString args.length ++ " arguments"))
        else do
          let fields ← (fieldTypes s args).mapM (plainLayout n)
          joined vars (.named name args) (totalSize fields) (fields.all (·.witness.isTrivial))
  | _ + 1, .generic name => do
    let v ← variableOf vars name
    return ⟨.dynamic (.var v.name), ⟨0, [v.name]⟩⟩
  | _ + 1, .func args result =>
    return ⟨.dynamic (← described vars (Ty.func args result).witnessExpr), ⟨target.closureSize, []⟩⟩
  | _ + 1, .cell c => .error (.inconsistent ("sizer: layout of unresolved type " ++ (Ty.cell c).render))

end Definition

section Plain

variable {target : Target} {structs : List Explicit.Struct} {vars vars' : List (Tag × Variable)} {n m : Nat}
  {t u : Ty} {r : Except Stop Layout}

theorem plainLayout_struct {name : Ident} {args : List Ty} {d : Explicit.Struct}
    (basic : ¬ (name.tag = .float ∨ name.tag = .bool)) (other : name.tag ≠ .witness)
    (found : structs.reverse.find? (fun s => s.name.tag == name.tag) = some d) (arity : d.generics.length = args.length) :
    plainLayout target structs vars (n + 1) (.named name args) =
      fromParts structs vars (plainLayout target structs vars n) (.named name args) := by
  rw [plainLayout, if_neg basic, if_neg other, found, fromParts, parts_struct basic other found]
  dsimp only
  rw [if_neg (not_not.mpr arity)]

/-- What stands in the way of a layout, other than types that hold themselves. -/
def Stop.Plain : Stop → Prop
  | .fault (.unknownStruct _) _ | .inconsistent _ => True
  | _ => False

theorem variableOf_gives (name : Ident) : Gives Stop.Plain (variableOf vars name) fun _ => True := by
  rw [variableOf]
  split <;> trivial

mutual

theorem described_gives : (w : WitnessExpr) → Gives Stop.Plain (described vars w) fun _ => True
  | .var name => by
    rw [described]
    exact (variableOf_gives name).bind fun _ _ => trivial
  | .build constructor args => by
    rw [described]
    exact (describedAll_gives args).bind fun _ _ => trivial

theorem describedAll_gives : (ws : List WitnessExpr) → Gives Stop.Plain (describedAll vars ws) fun _ => True
  | [] => trivial
  | w :: rest => by
    rw [describedAll]
    exact (described_gives w).bind fun _ _ => (describedAll_gives rest).bind fun _ _ => trivial

end

theorem joined_gives (t : Ty) (size : Size) (plain : Bool) :
    Gives Stop.Plain (joined vars t size plain) fun _ => True := by
  rw [joined]
  split
  · trivial
  · exact (described_gives _).bind fun _ _ => trivial

/-- The layout of a type is put together from those of its parts, or does not depend on how deep the search goes. -/
theorem plainLayout_cases (target : Target) (structs : List Explicit.Struct) (vars : List (Tag × Variable)) (t : Ty) :
    (∀ n, plainLayout target structs vars (n + 1) t = fromParts structs vars (plainLayout target structs vars n) t) ∨
    ∃ r, (∀ n, plainLayout target structs vars (n + 1) t = r) ∧ Gives Stop.Plain r fun _ => parts structs t = [] := by
  cases t with
  | named name args =>
    by_cases basic : name.tag = .float ∨ name.tag = .bool
    · exact Or.inr ⟨.ok _, fun n => by rw [plainLayout, if_pos basic], if_pos (Or.inl basic)⟩
    by_cases other : name.tag = .witness
    · exact Or.inr ⟨.ok _, fun n => by rw [plainLayout, if_neg basic, if_pos other], if_pos (Or.inr other)⟩
    cases found : structs.reverse.find? fun s => s.name.tag == name.tag with
    | none =>
      refine Or.inr ⟨.error (.fault (.unknownStruct (Ty.named name args).render) {}), fun n => ?_, trivial⟩
      rw [plainLayout, if_neg basic, if_neg other, found]
    | some d =>
      by_cases arity : d.generics.length = args.length
      · exact Or.inl fun n => plainLayout_struct basic other found arity
      · refine Or.inr ⟨.error (.inconsistent ("sizer: " ++ d.name.mangled ++ " applied to "
          ++ toString args.length ++ " arguments")), fun n => ?_, trivial⟩
        rw [plainLayout, if_neg basic, if_neg other, found]
        exact if_pos arity
  | generic name => exact Or.inr ⟨_, fun n => plainLayout.eq_3 .., (variableOf_gives name).bind fun _ _ => rfl⟩
  | func args result => exact Or.inr ⟨_, fun n => plainLayout.eq_4 .., (described_gives _).bind fun _ _ => rfl⟩
  | cell cell => exact Or.inr ⟨_, fun n => plainLayout.eq_5 .., trivial⟩

/-- The second gives what the first does, unless that one was given up. -/
def Completes {α : Type} (x x' : Except Stop α) : Prop := x ≠ .error .endless → x' = x

theorem Completes.bind {α β : Type} {x x' : Except Stop α} {f f' : α → Except Stop β} (first : Completes x x')
    (next : ∀ a, Completes (f a) (f' a)) : Completes (x >>= f) (x' >>= f') := by
  intro ended
  cases x with
  | error e => rw [first fun wrong => ended (by cases wrong; rfl)]; rfl
  | ok a =>
    rw [first (by simp)]
    exact next a ended

theorem Completes.mapM {self self' : Ty → Except Stop Layout} (each : ∀ t, Completes (self t) (self' t)) (ts : List Ty) :
    Completes (ts.mapM self) (ts.mapM self') := by
  induction ts with
  | nil => exact fun _ => rfl
  | cons t rest ih =>
    rw [List.mapM_cons, List.mapM_cons]
    exact (each t).bind fun _ => ih.bind fun _ _ => rfl

/-- Looking deeper gives the same. -/
theorem plainLayout_completes (deeper : n ≤ m) (t : Ty) :
    Completes (plainLayout target structs vars n t) (plainLayout target structs vars m t) := by
  induction n generalizing m t with
  | zero => exact fun ended => absurd rfl ended
  | succ n ih =>
    obtain ⟨m, rfl⟩ : ∃ k, m = k + 1 := ⟨m - 1, by omega⟩
    rcases plainLayout_cases target structs vars t with struct | ⟨r, alone, -⟩
    · rw [struct, struct]
      exact (Completes.mapM (ih (by omega)) _).bind fun _ _ => rfl
    · rw [alone, alone]
      exact fun _ => rfl

theorem parts_of_mapM {self : Ty → Except Stop Layout} {ts : List Ty} {ls : List Layout} (done : ts.mapM self = .ok ls) :
    ∀ t ∈ ts, ∃ l, self t = .ok l := by
  induction ts generalizing ls with
  | nil => exact List.forall_mem_nil _
  | cons t rest ih =>
    rw [List.mapM_cons, Except.bind_eq_ok] at done
    obtain ⟨l, first, done⟩ := done
    obtain ⟨rest', later, -⟩ := Except.bind_eq_ok.mp done
    exact List.forall_mem_cons.mpr ⟨⟨l, first⟩, ih later⟩

/-- A type that has a layout holds itself nowhere. -/
theorem finite_of_plainLayout {l : Layout} (done : plainLayout target structs vars n t = .ok l) : Finite structs t := by
  induction n generalizing t l with
  | zero => cases done
  | succ n ih =>
    refine ⟨t, fun u part => ?_⟩
    rcases plainLayout_cases target structs vars t with struct | ⟨r, alone, gives⟩
    · rw [struct, fromParts] at done
      obtain ⟨ls, fields, -⟩ := Except.bind_eq_ok.mp done
      obtain ⟨l', found⟩ := parts_of_mapM fields u part
      exact ih found
    · rw [alone] at done
      subst done
      rw [show parts structs t = [] from gives] at part
      cases part

theorem mapM_ne_endless {self : Ty → Except Stop Layout} {ts : List Ty} (each : ∀ t ∈ ts, self t ≠ .error .endless) :
    ts.mapM self ≠ .error .endless := by
  induction ts with
  | nil => exact nofun
  | cons t rest ih =>
    rw [List.forall_mem_cons] at each
    rw [List.mapM_cons]
    cases first : self t with
    | error e => exact fun wrong => each.1 (by rw [first]; cases wrong; rfl)
    | ok l =>
      cases later : rest.mapM self with
      | error e => exact fun wrong => ih each.2 (by rw [later]; cases wrong; rfl)
      | ok ls => exact nofun

/-- The search for the layout of a type that holds itself nowhere comes to an end. -/
theorem Finite.exists_depth (target : Target) (finite : Finite structs t) :
    ∃ bound, ∀ n ≥ bound, ∀ vars, plainLayout target structs vars n t ≠ .error .endless := by
  induction finite with
  | intro t _ ih =>
    obtain ⟨bound, each⟩ := exists_bound ih
    refine ⟨bound + 1, fun n deep vars => ?_⟩
    obtain ⟨n, rfl⟩ : ∃ k, n = k + 1 := ⟨n - 1, by omega⟩
    rcases plainLayout_cases target structs vars t with struct | ⟨r, alone, gives⟩
    · rw [struct, fromParts]
      have fields := mapM_ne_endless fun u part => each n (by omega) u part vars
      cases made : (parts structs t).mapM (plainLayout target structs vars n) with
      | error e => exact fun wrong => fields (by rw [made]; cases wrong; rfl)
      | ok ls =>
        have ends : Gives Stop.Plain (joined vars t (totalSize ls) (ls.all (·.witness.isTrivial))) fun _ => True :=
          joined_gives t (totalSize ls) (ls.all (·.witness.isTrivial))
        exact fun wrong => by rw [show joined _ _ _ _ = _ from wrong] at ends; exact ends
    · rw [alone]
      rintro rfl
      exact gives

/-- Variables that were defined stay as they are. -/
def Extends (vars vars' : List (Tag × Variable)) : Prop :=
  ∀ tag v, vars.lookup tag = some v → vars'.lookup tag = some v

theorem variableOf_extends (more : Extends vars vars') {name name' : Ident} (same : name.tag = name'.tag) {v : Variable}
    (found : variableOf vars name = .ok v) : variableOf vars' name' = .ok v := by
  rw [variableOf] at found ⊢
  split at found
  · rename_i v' own
    obtain rfl := Except.ok.inj found
    rw [more _ _ (same ▸ own)]
  · cases found

end Plain

section Names

variable {target : Target} {structs : List Explicit.Struct} {vars vars' : List (Tag × Variable)} {n m : Nat}
  {names : Ident → Prop} {f : Ident → Ident}

/-- All names of structs and built-in types are among some. -/
def typeNames (names : Ident → Prop) : Spelling := ⟨fun _ => True, names, fun _ => True⟩

/-- A way of writing names that tells at most those apart that their tags tell apart. -/
def ReadsTags (names : Ident → Prop) (f : Ident → Ident) : Prop :=
  ∀ i j, names i → names j → i.tag = j.tag → f i = f j

/-- Types with the same tags as this one have the same description. -/
def DescribedAlike (names : Ident → Prop) (f : Ident → Ident) (vars vars' : List (Tag × Variable)) (t : Ty) : Prop :=
  ∀ u w, t.Alike u → t.Spelled (typeNames names) → u.Spelled (typeNames names) →
    described vars t.witnessExpr = .ok w → ∃ w', described vars' u.witnessExpr = .ok w' ∧ w'.respell f = w.respell f

/-- A constructor that is applied to the descriptions of some types. -/
theorem describedAll_alike {ts us : List Ty} (each : ∀ t ∈ ts, DescribedAlike names f vars vars' t)
    (alike : ts.map Ty.erase = us.map Ty.erase) (own : ∀ t ∈ ts, t.Spelled (typeNames names))
    (other : ∀ u ∈ us, u.Spelled (typeNames names)) {ws : List WitnessExpr}
    (done : describedAll vars (Ty.witnessExprs ts) = .ok ws) :
    ∃ ws', describedAll vars' (Ty.witnessExprs us) = .ok ws' ∧
      WitnessExpr.respellAll f ws' = WitnessExpr.respellAll f ws := by
  induction ts generalizing us ws with
  | nil =>
    cases us with
    | nil => exact ⟨ws, done, rfl⟩
    | cons u rest => cases alike
  | cons t rest ih =>
    cases us with
    | nil => cases alike
    | cons u others =>
      obtain ⟨same, alike⟩ := List.cons.inj alike
      rw [List.forall_mem_cons] at each own other
      rw [Ty.witnessExprs, describedAll, Except.bind_eq_ok] at done
      obtain ⟨w, first, done⟩ := done
      rw [Except.bind_eq_ok] at done
      obtain ⟨ws, later, done⟩ := done
      obtain rfl := Except.ok.inj done
      obtain ⟨w', first', equal⟩ := each.1 u w same own.1 other.1 first
      obtain ⟨ws', later', equals⟩ := ih each.2 alike own.2 other.2 later
      refine ⟨w' :: ws', ?_, congrArg₂ List.cons equal equals⟩
      rw [Ty.witnessExprs, describedAll, first', later']
      rfl

theorem described_build {k k' : Ident} (constructor : f k' = f k) {ts us : List Ty}
    (each : ∀ t ∈ ts, DescribedAlike names f vars vars' t) (alike : ts.map Ty.erase = us.map Ty.erase)
    (own : ∀ t ∈ ts, t.Spelled (typeNames names)) (other : ∀ u ∈ us, u.Spelled (typeNames names)) {w : WitnessExpr}
    (done : described vars (.build k (Ty.witnessExprs ts)) = .ok w) :
    ∃ w', described vars' (.build k' (Ty.witnessExprs us)) = .ok w' ∧ w'.respell f = w.respell f := by
  rw [described, Except.bind_eq_ok] at done
  obtain ⟨ws, done, same⟩ := done
  obtain rfl := Except.ok.inj same
  obtain ⟨ws', done', equal⟩ := describedAll_alike each alike own other done
  refine ⟨.build k' ws', by rw [described, done']; rfl, ?_⟩
  rw [WitnessExpr.respell, WitnessExpr.respell, constructor, equal]

theorem witnessExpr_func (args : List Ty) (result : Ty) :
    (Ty.func args result).witnessExpr = .build (functionWitness args.length) (Ty.witnessExprs (args ++ [result])) := by
  rw [Ty.witnessExpr_func, Ty.witnessExprs_eq_map, List.map_append, List.map_singleton]

/-- Only tags count for descriptions, apart from how the names are written. -/
theorem described_alike (reads : ReadsTags names f) (more : Extends vars vars') (t : Ty) :
    DescribedAlike names f vars vars' t := by
  induction t with
  | named name args ih =>
    intro u w alike own other done
    cases u with
    | named name' args' =>
      obtain ⟨tag, same⟩ := Ty.alike_named.mp alike
      rw [Ty.spelled_named] at own other
      exact described_build (reads _ _ other.1 own.1 tag.symm) ih same own.2 other.2 done
    | _ => simp [Ty.Alike] at alike
  | generic name =>
    intro u w alike own other done
    cases u with
    | generic name' =>
      have tag : name.tag = name'.tag := by simpa [Ty.Alike, Ident.erase_inj] using alike
      rw [Ty.witnessExpr, described, Except.bind_eq_ok] at done
      obtain ⟨v, found, done⟩ := done
      obtain rfl := Except.ok.inj done
      refine ⟨.var v.name, ?_, rfl⟩
      rw [Ty.witnessExpr, described, variableOf_extends more tag found]
      rfl
    | _ => simp [Ty.Alike] at alike
  | func args result ih ihResult =>
    intro u w alike own other done
    cases u with
    | func args' result' =>
      obtain ⟨same, alike⟩ := Ty.alike_func.mp alike
      rw [Ty.spelled_func] at own other
      rw [witnessExpr_func] at done ⊢
      have length : args.length = args'.length := by simpa using congrArg List.length same
      refine described_build (by rw [length]) (List.forall_mem_append.mpr ⟨ih, List.forall_mem_singleton.mpr ihResult⟩)
        ?_ (List.forall_mem_append.mpr ⟨own.1, List.forall_mem_singleton.mpr own.2⟩)
        (List.forall_mem_append.mpr ⟨other.1, List.forall_mem_singleton.mpr other.2⟩) done
      rw [List.map_append, List.map_append, same, List.map_singleton, List.map_singleton, alike]
    | _ => simp [Ty.Alike] at alike
  | cell cell =>
    intro u w alike own other done
    obtain rfl : Ty.cell cell = u := by
      cases u with
      | cell other => exact alike
      | _ => simp [Ty.Alike] at alike
    rw [Ty.witnessExpr, described, Except.bind_eq_ok] at done
    obtain ⟨v, found, done⟩ := done
    obtain rfl := Except.ok.inj done
    refine ⟨.var v.name, ?_, rfl⟩
    rw [Ty.witnessExpr, described, variableOf_extends more rfl found]
    rfl

theorem joined_alike (reads : ReadsTags names f) (more : Extends vars vars') {t u : Ty} (alike : t.Alike u)
    (own : t.Spelled (typeNames names)) (other : u.Spelled (typeNames names)) {size : Size} {plain : Bool} {l : Layout}
    (done : joined vars t size plain = .ok l) :
    ∃ l', joined vars' u size plain = .ok l' ∧ l'.respell f = l.respell f := by
  rw [joined] at done ⊢
  cases plain with
  | true => exact ⟨l, done, rfl⟩
  | false =>
    obtain ⟨w, found, same⟩ := Except.bind_eq_ok.mp done
    obtain rfl := Except.ok.inj same
    obtain ⟨w', found', equal⟩ := described_alike reads more t u w alike own other found
    refine ⟨⟨.dynamic w', size⟩, by rw [found']; rfl, ?_⟩
    rw [Layout.respell, Layout.respell, Witness.respell, Witness.respell, equal]

/-- Sizes, and whether all values are plain bytes, do not depend on names. -/
theorem same_of_respell {ls ls' : List Layout} (same : ls'.map (Layout.respell f) = ls.map (Layout.respell f)) :
    totalSize ls' = totalSize ls ∧ ls'.all (·.witness.isTrivial) = ls.all (·.witness.isTrivial) := by
  have sizes : ∀ ls : List Layout, (ls.map (Layout.respell f)).map (·.size) = ls.map (·.size) := fun ls => by
    rw [List.map_map]
    rfl
  have plain : ∀ ls : List Layout, (ls.map (Layout.respell f)).all (·.witness.isTrivial) = ls.all (·.witness.isTrivial) :=
    fun ls => by
      rw [List.all_map]
      exact congrArg (ls.all ·) (funext fun l => l.isTrivial_respell f)
  exact ⟨by rw [totalSize, totalSize, ← sizes, same, sizes], by rw [← plain, same, plain]⟩

/-- The names of the structs that a program speaks of in its structs. -/
def Names (structs : List Explicit.Struct) (names : Ident → Prop) : Prop :=
  ∀ d ∈ structs, ∀ x ∈ d.fields, x.type.Spelled (typeNames names)

theorem spelled_fieldTypes {S : Spelling} (whole : ∀ d ∈ structs, ∀ x ∈ d.fields, x.type.Spelled S)
    {d : Explicit.Struct} (member : d ∈ structs) {args : List Ty} (given : ∀ t ∈ args, t.Spelled S) :
    ∀ t ∈ fieldTypes d args, t.Spelled S := by
  intro t field
  obtain ⟨x, inside, rfl⟩ := List.mem_map.mp field
  exact (whole d member x inside).substitute fun e entry => given e.2 (List.of_mem_zip entry).2

/-- Results that are made from types with the same tags. -/
theorem mapM_alike {self self' : Ty → Except Stop Layout} {ts us : List Ty} (alike : List.Forall₂ Ty.Alike ts us)
    (own : ∀ t ∈ ts, t.Spelled (typeNames names)) (other : ∀ u ∈ us, u.Spelled (typeNames names))
    (each : ∀ t u l, t.Alike u → t.Spelled (typeNames names) → u.Spelled (typeNames names) → self t = .ok l →
      ∃ l', self' u = .ok l' ∧ l'.respell f = l.respell f) {ls : List Layout} (done : ts.mapM self = .ok ls) :
    ∃ ls', us.mapM self' = .ok ls' ∧ ls'.map (Layout.respell f) = ls.map (Layout.respell f) := by
  induction alike generalizing ls with
  | nil => exact ⟨ls, done, rfl⟩
  | cons same _ ih =>
    rw [List.forall_mem_cons] at own other
    rw [List.mapM_cons, Except.bind_eq_ok] at done
    obtain ⟨l, first, done⟩ := done
    obtain ⟨rest, later, done⟩ := Except.bind_eq_ok.mp done
    obtain rfl := Except.ok.inj done
    obtain ⟨l', first', equal⟩ := each _ _ l same own.1 other.1 first
    obtain ⟨rest', later', equals⟩ := ih own.2 other.2 later
    refine ⟨l' :: rest', ?_, congrArg₂ List.cons equal equals⟩
    rw [List.mapM_cons, first', later']
    rfl

/-- Only tags count for layouts, apart from how the names are written; more variables and a deeper search
change nothing. -/
theorem plainLayout_alike (reads : ReadsTags names f) (more : Extends vars vars') (whole : Names structs names)
    (deeper : n ≤ m) {t u : Ty} (alike : t.Alike u) (own : t.Spelled (typeNames names))
    (other : u.Spelled (typeNames names)) {l : Layout} (done : plainLayout target structs vars n t = .ok l) :
    ∃ l', plainLayout target structs vars' m u = .ok l' ∧ l'.respell f = l.respell f := by
  induction n generalizing m t u l with
  | zero => cases done
  | succ n ih =>
    obtain ⟨m, rfl⟩ : ∃ k, m = k + 1 := ⟨m - 1, by omega⟩
    cases t with
    | named name args =>
      cases u with
      | named name' args' =>
        obtain ⟨tag, same⟩ := Ty.alike_named.mp alike
        by_cases basic : name.tag = .float ∨ name.tag = .bool
        · rw [plainLayout, if_pos basic] at done
          exact ⟨l, by rwa [plainLayout, if_pos (tag ▸ basic)], rfl⟩
        by_cases description : name.tag = .witness
        · rw [plainLayout, if_neg basic, if_pos description] at done
          exact ⟨l, by rwa [plainLayout, if_neg (tag ▸ basic), if_pos (tag ▸ description)], rfl⟩
        cases found : structs.reverse.find? fun s => s.name.tag == name.tag with
        | none =>
          rw [plainLayout, if_neg basic, if_neg description, found] at done
          cases done
        | some d =>
          have length : args.length = args'.length := by simpa using congrArg List.length same
          by_cases arity : d.generics.length = args.length
          swap
          · rw [plainLayout, if_neg basic, if_neg description, found] at done
            dsimp only at done
            rw [if_pos arity] at done
            cases done
          rw [plainLayout_struct basic description found arity, fromParts, parts_struct basic description found] at done
          rw [plainLayout_struct (tag ▸ basic) (tag ▸ description) (tag ▸ found) (arity.trans length), fromParts,
            parts_struct (tag ▸ basic) (tag ▸ description) (tag ▸ found)]
          obtain ⟨ls, fields, done⟩ := Except.bind_eq_ok.mp done
          have member := mem_of_findLast? found
          obtain ⟨ls', fields', equal⟩ := mapM_alike (fieldTypes_alike same)
            (spelled_fieldTypes whole member (Ty.spelled_named.mp own).2)
            (spelled_fieldTypes whole member (Ty.spelled_named.mp other).2)
            (fun t u l alike own other done => ih (Nat.le_of_succ_le_succ deeper) alike own other done) fields
          rw [fields']
          change ∃ l', joined _ _ (totalSize ls') _ = _ ∧ _
          rw [(same_of_respell equal).1, (same_of_respell equal).2]
          exact joined_alike reads more alike own other done
      | _ => simp [Ty.Alike] at alike
    | generic name =>
      cases u with
      | generic name' =>
        have tag : name.tag = name'.tag := by simpa [Ty.Alike, Ident.erase_inj] using alike
        rw [plainLayout] at done ⊢
        obtain ⟨v, found, done⟩ := Except.bind_eq_ok.mp done
        exact ⟨l, by rw [variableOf_extends more tag found]; exact done, rfl⟩
      | _ => simp [Ty.Alike] at alike
    | func args result =>
      cases u with
      | func args' result' =>
        rw [plainLayout] at done ⊢
        obtain ⟨w, found, done⟩ := Except.bind_eq_ok.mp done
        obtain rfl := Except.ok.inj done
        obtain ⟨w', found', equal⟩ := described_alike reads more _ _ w alike own other found
        refine ⟨_, by rw [found']; rfl, ?_⟩
        rw [Layout.respell, Layout.respell, Witness.respell, Witness.respell, equal]
      | _ => simp [Ty.Alike] at alike
    | cell cell => cases done

end Names

section Formed

variable {c : Context} {vars : List (Tag × Variable)} {own : List Tag}

mutual

theorem exists_described : (w : WitnessExpr) → (∀ x ∈ w.names, ∃ v, vars.lookup x.tag = some v) →
    ∃ w', described vars w = .ok w'
  | .var name, held => by
    obtain ⟨v, found⟩ := held name List.mem_cons_self
    exact ⟨.var v.name, by rw [described, variableOf, found]; rfl⟩
  | .build constructor args, held => by
    obtain ⟨args', done⟩ := exists_describedAll args held
    exact ⟨.build constructor args', by rw [described, done]; rfl⟩

theorem exists_describedAll : (ws : List WitnessExpr) → (∀ x ∈ WitnessExpr.namesAll ws, ∃ v, vars.lookup x.tag = some v) →
    ∃ ws', describedAll vars ws = .ok ws'
  | [], _ => ⟨[], rfl⟩
  | w :: rest, held => by
    rw [WitnessExpr.namesAll, List.forall_mem_append] at held
    obtain ⟨w', first⟩ := exists_described w held.1
    obtain ⟨rest', later⟩ := exists_describedAll rest held.2
    exact ⟨w' :: rest', by rw [describedAll, first, later]; rfl⟩

end

/-- A type of a program that hangs together has a layout, unless the search is given up. -/
theorem plainLayout_formed (whole : c.Formed) (held : ∀ tag ∈ own, ∃ v, vars.lookup tag = some v) {n : Nat} {t : Ty}
    (formed : t.Formed c.arity own []) : Gives (· = .endless) (plainLayout c.target c.structs vars n t) fun _ => True := by
  have describes : ∀ {t : Ty}, t.Formed c.arity own [] → ∃ w, described vars t.witnessExpr = .ok w := fun formed => by
    refine exists_described _ fun x inside => held _ ?_
    rw [Ty.names_witnessExpr formed.closed] at inside
    exact formed.mem_parameters inside
  induction n generalizing t with
  | zero => rfl
  | succ n ih =>
    cases t with
    | named name args =>
      by_cases basic : name.tag = .float ∨ name.tag = .bool
      · rw [plainLayout, if_pos basic]
        trivial
      by_cases other : name.tag = .witness
      · rw [plainLayout, if_neg basic, if_pos other]
        trivial
      obtain ⟨arity, given⟩ := Ty.formed_named.mp formed
      obtain ⟨d, found, member, length⟩ := c.arity_struct arity basic other
      rw [plainLayout_struct basic other found length, fromParts, parts_struct basic other found]
      have fields := formed_fieldTypes whole member length given
      generalize fieldTypes d args = ts at fields
      have all : Gives (· = .endless) (ts.mapM (plainLayout c.target c.structs vars n)) fun _ => True := by
        induction ts with
        | nil => trivial
        | cons t rest ihRest =>
          rw [List.forall_mem_cons] at fields
          rw [List.mapM_cons]
          exact (ih fields.1).bind fun _ _ => (ihRest fields.2).bind fun _ _ => trivial
      refine all.bind fun ls _ => ?_
      rw [joined]
      split
      · trivial
      · obtain ⟨w, done⟩ := describes formed
        rw [done]
        trivial
    | generic name =>
      obtain ⟨v, found⟩ := held name.tag (Ty.formed_generic.mp formed)
      rw [plainLayout, variableOf, found]
      trivial
    | func args result =>
      obtain ⟨w, done⟩ := describes formed
      rw [plainLayout, done]
      trivial
    | cell cell => exact absurd (Ty.formed_cell.mp formed) List.not_mem_nil

end Formed

end Sized
end WitnessLang
