import WitnessLang.Proofs.Ir.Codes
import WitnessLang.Proofs.Meaning.Semantics

set_option autoImplicit false

namespace WitnessLang.Ir

open Ownership (isWitness)

section Data

variable {F : Type}

/-- A value, and what a variable of a lowered function holds for it. -/
inductive Stored (fs : List Function) : WitnessLang.Value F Plain.Code → Datum F → Prop
  | scalar {x : Scalar F} : Stored fs (.scalar x) (.scalar x)
  | record {names vs ds} (each : List.Forall₂ (Stored fs) vs ds) : Stored fs (.record names vs) (.record names ds)
  /-- The function of a closure is one of the program, and was made from the closure. -/
  | closure {params generics captures envType body vs ds} {L : Function} (known : L ∈ fs)
      (lifted : Lifted fs params generics captures envType body L) (count : ds.length = captures.length)
      (each : List.Forall₂ (Stored fs) vs ds) :
      Stored fs (.closure ⟨Sized.variableTags params, Sized.variableTags captures, body.plain⟩ vs)
        (.closure L.name (.record ((generics ++ captures).map (·.name.mangled))
          (generics.map (fun _ => .description) ++ ds)))

/-- Whatever has a value has a variable that holds it. -/
def Matches (fs : List Function) (vs : Variables) (m : Mark) (σ : Store F) (ρ : Locals F Plain.Code) : Prop :=
  ∀ t v, ρ.lookup t = some v → ∃ x d, m.scope.lookup t = some x ∧ x < m.size ∧ isWitness vs x = false ∧
    σ x = some d ∧ Stored fs v d

variable {fs : List Function} {vs : Variables} {m m' : Mark} {σ τ : Store F} {ρ ρ' : Locals F Plain.Code}

theorem Stored.field? {v part : WitnessLang.Value F Plain.Code} {d : Datum F} {name : String} (holds : Stored fs v d)
    (found : v.field? name = some part) : ∃ names fields x, d = .record names fields ∧
      (names.zip fields).lookup name = some x ∧ Stored fs part x := by
  cases holds with
  | record each =>
    obtain ⟨x, here, same⟩ := exists_lookup_zip_of_forall₂ each found
    exact ⟨_, _, x, rfl, here, same⟩
  | _ => cases found

/-- Behind a mark everything is where it was, unless it was overwritten. -/
theorem Matches.later (holds : Matches fs vs m σ ρ) (leads : m.Leads m') (kept : ∀ x < m.size, τ x = σ x) :
    Matches fs vs m' τ ρ := by
  intro t v found
  obtain ⟨x, d, here, inside, kind, held, same⟩ := holds t v found
  exact ⟨x, d, leads.scope t x here, Nat.lt_of_lt_of_le inside leads.size, kind, (kept x inside).trans held, same⟩

theorem Matches.cons {t : Tag} {x : VarId} {v : WitnessLang.Value F Plain.Code} {d : Datum F} (holds : Matches fs vs m σ ρ)
    (found : m.scope.lookup t = some x) (inside : x < m.size) (kind : isWitness vs x = false) (held : σ x = some d)
    (same : Stored fs v d) : Matches fs vs m σ ((t, v) :: ρ) := by
  intro u w here
  rw [List.lookup_cons] at here
  split at here
  · rename_i equal
    obtain rfl := eq_of_beq equal
    obtain rfl := Option.some.inj here
    exact ⟨x, d, found, inside, kind, held, same⟩
  · exact holds u w here

theorem Matches.append (first : Matches fs vs m σ ρ) (second : Matches fs vs m σ ρ') :
    Matches fs vs m σ (ρ ++ ρ') := by
  intro t v found
  rw [List.lookup_append] at found
  cases here : ρ.lookup t with
  | some w =>
    rw [here] at found
    exact first t v (here.trans found)
  | none =>
    rw [here] at found
    exact second t v found

theorem matches_nil : Matches fs vs m σ [] := fun _ _ found => by cases found

theorem read_value {x : VarId} (kind : isWitness vs x = false) : read vs σ x = σ x := by
  rw [read, kind]
  rfl

theorem read_description {x : VarId} (kind : isWitness vs x = true) : read vs σ x = some .description := by
  rw [read, kind]
  rfl

/-- Declared variables, each with a value. -/
theorem matches_zip {m₀ : Mark} {us : List Sized.Variable} {xs : List VarId} {ws : List (WitnessLang.Value F Plain.Code)}
    {ds : List (Datum F)} (declared : List.Forall₂ (Declared vs m₀ m) us xs) (kinds : ∀ x ∈ xs, isWitness vs x = false)
    (held : List.Forall₂ (fun x d => σ x = some d) xs ds) (same : List.Forall₂ (Stored fs) ws ds) :
    Matches fs vs m σ ((Sized.variableTags us).zip ws) := by
  induction declared generalizing ws ds with
  | nil => exact matches_nil
  | cons own others ih =>
    rw [List.forall_mem_cons] at kinds
    cases held with
    | cons here rest =>
      cases same with
      | cons alike each => exact (ih kinds.2 rest each).cons own.found own.inside kinds.1 here alike

end Data

section Blocks

variable {F : Type} {p : Program} {A : Arithmetic F} {vs : Variables} {m m' : Mark} {is : Block} {σ : Store F}

/-- What builds type descriptions leaves the store as it is. -/
theorem quiet_exec (quiet : Quiet vs is) : Exec p A vs is σ σ := by
  induction is with
  | nil => exact .done
  | cons i rest ih =>
    obtain ⟨⟨function, dst, args, rfl, kind⟩, others⟩ := List.forall_mem_cons.mp quiet
    exact .describe kind (ih others)

/-- Declared variables have increasing numbers. -/
theorem DeclaresAll.increasing {behind : Sized.Variable → VarId → Block} {us : List Sized.Variable} {xs : List VarId}
    (all : DeclaresAll vs behind us m is xs m') : xs.Pairwise (· < ·) ∧ ∀ x ∈ xs, m.size ≤ x := by
  induction all with
  | nil => exact ⟨.nil, List.forall_mem_nil _⟩
  | cons first others ih =>
    have new := first.adds.new
    have inside := first.adds.inside
    refine ⟨.cons (fun y member => Nat.lt_of_lt_of_le inside (ih.2 y member)) ih.1,
      List.forall_mem_cons.mpr ⟨new, fun y member => ?_⟩⟩
    exact Nat.le_trans (Nat.le_trans new (Nat.le_of_lt inside)) (ih.2 y member)

theorem DeclaresAll.nodup {behind : Sized.Variable → VarId → Block} {us : List Sized.Variable} {xs : List VarId}
    (all : DeclaresAll vs behind us m is xs m') : xs.Nodup := all.increasing.1.imp Nat.ne_of_lt

/-- Captured variables get what the environment has under their names, and nothing else changes. -/
theorem DeclaresAll.unpack {env : VarId} {us : List Sized.Variable} {xs : List VarId} {names : List String}
    {fields ds : List (Datum F)} (all : DeclaresAll vs (unpacked env) us m is xs m') (value : isWitness vs env = false)
    (inside : env < m.size) (whole : σ env = some (.record names fields))
    (parts : List.Forall₂ (fun u d => (names.zip fields).lookup u.name.mangled = some d) us ds) :
    ∃ τ, Exec p A vs is σ τ ∧ (∀ y, y < m.size ∨ m'.size ≤ y → τ y = σ y) ∧
      List.Forall₂ (fun x d => τ x = some d) xs ds := by
  induction us generalizing m is xs σ ds with
  | nil =>
    cases all
    cases parts
    exact ⟨σ, .done, fun _ _ => rfl, .nil⟩
  | cons u rest ih =>
    cases all with
    | @cons _ _ _ is x m₁ js xs _ first others =>
      cases parts with
      | @cons _ d _ ds part parts =>
        have new : m.size ≤ x := first.adds.new
        have next : x < m₁.size := first.adds.inside
        have apart : ∀ y, y < m.size ∨ m'.size ≤ y → σ.put x (some d) y = σ y := by
          intro y outside
          refine Function.update_of_ne ?_ _ _
          rintro rfl
          rcases outside with before | behind
          · exact Nat.not_le.mpr before new
          · exact Nat.not_lt.mpr (Nat.le_trans others.leads.size behind) next
        obtain ⟨τ, ran, kept, held⟩ := ih others (Nat.lt_of_lt_of_le inside first.leads.size)
          ((apart env (Or.inl inside)).trans whole) parts
        have here : τ x = some d := by
          rw [kept x (Or.inl next)]
          exact Function.update_self ..
        refine ⟨τ, ?_, fun y outside => ?_, .cons here held⟩
        · have one : Exec p A vs (unpacked env u x) σ (σ.put x (some d)) :=
            .unpack ((read_value value).trans whole) part .done
          exact ((quiet_exec first.adds.quiet).append one).append ran
        · rw [kept y (outside.imp_left fun before => Nat.lt_of_lt_of_le before first.leads.size), apart y outside]

end Blocks

section Pieces

variable {F : Type} (p : Program) (A : Arithmetic F) (vs : Variables)

/-- Instructions that leave a value in some place. Unless they end a function, they change nothing else that was
there before. -/
def Leaves (dst : VarId) (v : WitnessLang.Value F Plain.Code) (tail : Bool) (m : Mark) (is : Block) (σ : Store F) : Prop :=
  ∃ τ d, Exec p A vs is σ τ ∧ τ dst = some d ∧ Stored p.functions v d ∧
    (tail = false → ∀ x < m.size, x ≠ dst → τ x = σ x)

/-- Instructions behind which values can be read, and everything is there that was there before. -/
def Yields (xs : List VarId) (ws : List (WitnessLang.Value F Plain.Code)) (m : Mark) (is : Block) (m' : Mark)
    (σ : Store F) : Prop :=
  ∃ τ ds, Exec p A vs is σ τ ∧ (∀ y < m.size, τ y = σ y) ∧ (∀ x ∈ xs, x < m'.size) ∧
    List.Forall₂ (fun x d => read vs τ x = some d) xs ds ∧ List.Forall₂ (Stored p.functions) ws ds

variable {p A vs} {dst : VarId} {v : WitnessLang.Value F Plain.Code} {tail : Bool} {m m' m'' : Mark} {is js : Block}
  {σ : Store F} {xs ys : List VarId} {ws us : List (WitnessLang.Value F Plain.Code)}

theorem read_eq {σ τ : Store F} {x : VarId} (same : τ x = σ x) : read vs τ x = read vs σ x := by
  rw [read, read, same]

/-- One operand after the other. -/
theorem Yields.append (first : Yields p A vs xs ws m is m' σ) (before : m.Leads m') (behind : m'.Leads m'')
    (second : ∀ τ : Store F, (∀ y < m.size, τ y = σ y) → Yields p A vs ys us m' js m'' τ) :
    Yields p A vs (xs ++ ys) (ws ++ us) m (is ++ js) m'' σ := by
  obtain ⟨τ, ds, ran, kept, inside, held, same⟩ := first
  obtain ⟨τ', es, ran', kept', inside', held', same'⟩ := second τ kept
  have still : List.Forall₂ (fun x d => read vs τ' x = some d) xs ds :=
    forall₂_of_mem held fun x member d found => (read_eq (kept' x (inside x member))).trans found
  refine ⟨τ', ds ++ es, ran.append ran', fun y old => ?_, ?_, List.rel_append still held', List.rel_append same same'⟩
  · rw [kept' y (Nat.lt_of_lt_of_le old before.size), kept y old]
  · exact List.forall_mem_append.mpr ⟨fun x member => Nat.lt_of_lt_of_le (inside x member) behind.size, inside'⟩

/-- Operands first, then what is done with them. -/
theorem Yields.leave (yields : Yields p A vs xs ws m is m' σ)
    (last : ∀ (τ : Store F) ds, (∀ y < m.size, τ y = σ y) → List.Forall₂ (fun x d => read vs τ x = some d) xs ds →
      List.Forall₂ (Stored p.functions) ws ds → Leaves p A vs dst v tail m js τ) :
    Leaves p A vs dst v tail m (is ++ js) σ := by
  obtain ⟨τ, ds, ran, kept, -, held, same⟩ := yields
  obtain ⟨τ', d, ran', here, alike, kept'⟩ := last τ ds kept held same
  refine ⟨τ', d, ran.append ran', here, alike, fun middle x old other => ?_⟩
  rw [kept' middle x old other, kept x old]

/-- Nothing but the place is written. -/
theorem leaves_put {i : Instr} {d : Datum F} (ran : Exec p A vs [i] σ (σ.put dst (some d)))
    (same : Stored p.functions v d) : Leaves p A vs dst v tail m [i] σ :=
  ⟨_, d, ran, Function.update_self .., same, fun _ _ _ other => Function.update_of_ne other _ _⟩

end Pieces

section Expressions

variable {F : Type} (p : Program) (A : Arithmetic F)

/-- The code of an expression leaves its value where it is to be left. -/
structure Computes (ρ : Locals F Plain.Code) (E : Plain.Expr) (v : WitnessLang.Value F Plain.Code) : Prop where
  leaves : ∀ {e : Sized.Expr} {vs : Variables} {tail : Bool} {dst : VarId} {m m' : Mark} {is : Block} {σ : Store F}, e.plain = E →
    Codes p.functions e vs tail dst m is m' → Matches p.functions vs m σ ρ → isWitness vs dst = false →
    Leaves p A vs dst v tail m is σ

/-- The code of several expressions leaves their values. -/
structure ComputesAll (ρ : Locals F Plain.Code) (Es : List Plain.Expr) (ws : List (WitnessLang.Value F Plain.Code)) :
    Prop where
  yields : ∀ {es : List Sized.Expr} {vs : Variables} {xs : List VarId} {m m' : Mark} {is : Block} {σ : Store F},
    Sized.Expr.plainAll es = Es → Operands p.functions es vs xs m is m' → Matches p.functions vs m σ ρ →
    Yields p A vs xs ws m is m' σ

/-- The code of bindings leaves the values of what they bind. -/
structure ComputesLets (ρ : Locals F Plain.Code) (Bs : List Plain.Let) (ρ' : Locals F Plain.Code) : Prop where
  leaves : ∀ {bs : List Sized.Let} {vs : Variables} {m m' : Mark} {is : Block} {σ : Store F}, Sized.Expr.plainLets bs = Bs →
    LetCodes p.functions bs vs m is m' → Matches p.functions vs m σ ρ →
    ∃ τ, Exec p A vs is σ τ ∧ (∀ y < m.size, τ y = σ y) ∧ Matches p.functions vs m' τ ρ'

variable {p A} {P : List Plain.Function} {vs : Variables} {m m' : Mark} {is : Block} {σ : Store F}
  {ρ : Locals F Plain.Code} {v : WitnessLang.Value F Plain.Code}

theorem Operand.yields {e : Sized.Expr} {x : VarId} (operand : Operand p.functions e vs x m is m')
    (holds : Matches p.functions vs m σ ρ) (value : Plain.Eval P A ρ e.plain v) (computes : Computes p A ρ e.plain v) :
    Yields p A vs [x] [v] m is m' σ := by
  cases operand with
  | named found =>
    cases value with
    | var here =>
      obtain ⟨x', d, found', inside, kind, held, same⟩ := holds _ _ here
      obtain rfl := Option.some.inj (found.symm.trans found')
      exact ⟨σ, [d], .done, fun _ _ => rfl, List.forall_mem_singleton.mpr inside,
        .cons ((read_value kind).trans held) .nil, .cons same .nil⟩
  | temporary adds kind filled =>
    obtain ⟨τ, d, ran, held, same, kept⟩ := computes.leaves rfl filled (holds.later adds.leads fun _ _ => rfl) kind
    refine ⟨τ, [d], (quiet_exec adds.quiet).append ran, fun y old => ?_,
      List.forall_mem_singleton.mpr (Nat.lt_of_lt_of_le adds.inside filled.leads.size),
      .cons ((read_value kind).trans held) .nil, .cons same .nil⟩
    exact kept rfl y (Nat.lt_of_lt_of_le old adds.leads.size) (Nat.ne_of_lt (Nat.lt_of_lt_of_le old adds.new))

/-- The fields of a struct value are operands, too. -/
theorem FieldCodes.operands {fs : List Function} {fields : List Sized.PackField} {values : List PackField}
    (codes : FieldCodes fs fields vs values m is m') :
    Operands fs (fields.map (·.value)) vs (values.map (·.value.var)) m is m' ∧
      values.map (·.name) = fields.map (·.name) ∧ ∀ f ∈ values, f.value.mode = .move → m.size ≤ f.value.var := by
  induction fields generalizing m is values with
  | nil =>
    cases codes
    exact ⟨.nil, rfl, List.forall_mem_nil _⟩
  | cons f rest ih =>
    cases codes with
    | cons first new others =>
      obtain ⟨operands, names, moved⟩ := ih others
      refine ⟨.cons first operands, congrArg _ names, List.forall_mem_cons.mpr ⟨new, fun f member move => ?_⟩⟩
      exact Nat.le_trans first.leads.size (moved f member move)

/-- What is not moved stays. -/
theorem without_of_kept {x : VarId} {operands : List Value} (kept : ∀ o ∈ operands, o.mode = .move → o.var ≠ x) :
    σ.without operands x = σ x := by
  rw [Store.without, if_neg]
  intro moved
  exact kept _ (List.contains_iff_mem.mp moved) rfl rfl

/-- An environment is made of the type descriptions and the values that a closure takes along. -/
theorem Packs.holds {taken : List Sized.Variable} {fields : List PackField} {ds : List (Datum F)}
    (packs : Packs m taken fields) (held : List.Forall₂ (fun v d => ∃ x, m.scope.lookup v.name.tag = some x ∧
      read vs σ x = some d) taken ds) : List.Forall₂ (fun (f : PackField) d => read vs σ f.value.var = some d) fields ds := by
  induction packs generalizing ds with
  | nil =>
    cases held
    exact .nil
  | cons first _ ih =>
    obtain ⟨x, found, rfl⟩ := first
    cases held with
    | cons here others =>
      obtain ⟨y, found', read⟩ := here
      obtain rfl := Option.some.inj (found.symm.trans found')
      exact .cons read (ih others)

/-- What a function is given, under the numbers of its parameters. -/
theorem enter_held {ys zs : List VarId} {ds es : List (Datum F)} (once : ys.Nodup) (count : ds.length = ys.length) :
    List.Forall₂ (fun y d => enter (ys ++ zs) (ds ++ es) y = some d) ys ds := by
  simp only [enter, List.zip_append count.symm]
  exact forall₂_lookup_zip once count _

theorem enter_last {ys : List VarId} {ds : List (Datum F)} {z : VarId} {d : Datum F} (new : z ∉ ys)
    (count : ds.length = ys.length) : enter (ys ++ [z]) (ds ++ [d]) z = some d := by
  have missing : (ys.zip ds).lookup z = none := List.lookup_eq_none_iff.mpr fun e member => by
    rw [bne_iff_ne]
    rintro rfl
    exact new (List.of_mem_zip member).1
  rw [enter, List.zip_append count.symm, List.lookup_append, missing]
  simp

/-- A declared function returns the value of its body. -/
theorem FunctionCodes.returns {g : Sized.Function} {result : Sized.Variable} {params generics : List Sized.Variable}
    {L : Function} {ws : List (WitnessLang.Value F Plain.Code)} {ds : List (Datum F)}
    (coded : FunctionCodes p.functions g result params generics L)
    (body : Computes p A ((Sized.variableTags params).zip ws) g.body.plain v)
    (same : List.Forall₂ (Stored p.functions) ws ds) (count : ws.length = params.length) (descriptions : List (Datum F)) :
    ∃ d, Returns p A L (ds ++ descriptions) d ∧ Stored p.functions v d := by
  obtain ⟨-, -, is, js, ks, r, xs, ys, m₁, m₂, m₃, described, -, taken, kinds, code, arguments, whole⟩ := coded
  rw [List.forall_mem_cons] at kinds
  have declared := taken.declared
  cases declared with
  | cons _ declared =>
    have length : ds.length = ys.length := by rw [← same.length_eq, count, declared.length_eq]
    have held : List.Forall₂ (fun y d => enter (ys ++ xs) (ds ++ descriptions) y = some d) ys ds :=
      enter_held (List.nodup_cons.mp taken.nodup).2 length
    obtain ⟨τ, d, ran, left, alike, -⟩ := body.leaves rfl code (matches_zip declared kinds.2 held same) kinds.1
    refine ⟨d, ⟨r, ys ++ xs, τ, arguments, ?_, (read_value kinds.1).trans left⟩, alike⟩
    rw [whole]
    exact ((quiet_exec described.quiet).append (quiet_exec taken.quiet)).append ran

/-- The function of a closure returns the value of the body of the closure. -/
theorem Lifted.returns {params generics captures : List Sized.Variable} {envType : Ty} {body : Sized.Expr} {L : Function}
    {ws us : List (WitnessLang.Value F Plain.Code)} {ds es : List (Datum F)}
    (lifted : Lifted p.functions params generics captures envType body L)
    (computes : Computes p A ((Sized.variableTags params).zip ws ++ (Sized.variableTags captures).zip us) body.plain v)
    (same : List.Forall₂ (Stored p.functions) ws ds) (count : ws.length = params.length)
    (captured : List.Forall₂ (Stored p.functions) us es) (whole : es.length = captures.length) :
    ∃ d, Returns p A L (ds ++ [.record ((generics ++ captures).map (·.name.mangled))
      (generics.map (fun _ => .description) ++ es)]) d ∧ Stored p.functions v d := by
  obtain ⟨distinct, -, plain, described, -, returned, taken, unpacking, values, filled, arguments, code, -⟩ := lifted
  rename_i xs m₁ is result m₂ js ys m₃ ks zs m₄ last m₅
  rw [List.forall_mem_cons, List.forall_mem_append] at values
  obtain ⟨valueR, valuesP, valuesC⟩ := values
  have first : (1 : Nat) ≤ m₁.size := described.leads.size
  have behind : ∀ y ∈ ys, m₁.size ≤ y := fun y member => Nat.le_trans returned.leads.size (taken.increasing.2 y member)
  have late : 0 ∉ ys := fun member => Nat.not_le.mpr (Nat.lt_of_lt_of_le Nat.zero_lt_one first) (behind 0 member)
  have length : ds.length = ys.length := by rw [← same.length_eq, count, taken.declared.length_eq]
  generalize envIs : Datum.record ((generics ++ captures).map (·.name.mangled))
    (generics.map (fun _ => .description) ++ es) = env
  have held : List.Forall₂ (fun y d => enter (ys ++ [0]) (ds ++ [env]) y = some d) ys ds :=
    enter_held taken.nodup length
  have environment := (enter_last (d := env) late length).trans (congrArg some envIs.symm)
  -- Every name of the environment finds its own field.
  have full : (generics.map (fun _ => Datum.description) ++ es).length =
      ((generics ++ captures).map (·.name.mangled)).length := by simp [whole]
  have entries := forall₂_lookup_zip distinct full []
  rw [List.append_nil, List.map_append] at entries
  obtain ⟨descriptions, parts⟩ := forall₂_split entries (by simp)
  rw [List.forall₂_map_left_iff] at descriptions parts
  rw [← List.map_append] at descriptions parts
  obtain ⟨τ₁, ran₁, kept₁, -⟩ := described.unpack (p := p) (A := A) plain Nat.zero_lt_one environment descriptions
  have still : 0 < m₃.size :=
    Nat.lt_of_lt_of_le first (returned.leads.trans taken.leads).size
  obtain ⟨τ₂, ran₂, kept₂, taken₂⟩ := unpacking.unpack (p := p) (A := A) plain still
    ((kept₁ 0 (Or.inl Nat.zero_lt_one)).trans environment) parts
  have held₂ : List.Forall₂ (fun y d => τ₂ y = some d) ys ds := forall₂_of_mem held fun y member d found => by
    obtain ⟨u, -, own⟩ := exists_of_forall₂ taken.declared y member
    rw [kept₂ y (Or.inl own.inside), kept₁ y (Or.inr (behind y member)), found]
  have agrees := (matches_zip (taken.declared.imp fun u y own => own.later unpacking.leads) valuesP held₂ same).append
    (matches_zip unpacking.declared valuesC taken₂ captured)
  obtain ⟨τ, d, ran, left, alike, -⟩ := computes.leaves rfl filled agrees valueR
  refine ⟨d, ⟨result, ys ++ [0], τ, arguments, ?_, (read_value valueR).trans left⟩, alike⟩
  rw [code]
  exact (((ran₁.append (quiet_exec returned.quiet)).append (quiet_exec taken.quiet)).append ran₂).append ran

/-- What a closure captures is in variables. -/
theorem Matches.captured {us : List Sized.Variable} {ws : List (WitnessLang.Value F Plain.Code)}
    (holds : Matches p.functions vs m σ ρ)
    (taken : List.Forall₂ (fun (u : Sized.Variable) v => ρ.lookup u.name.tag = some v) us ws) :
    ∃ ds, List.Forall₂ (fun u d => ∃ x, m.scope.lookup u.name.tag = some x ∧ read vs σ x = some d) us ds ∧
      List.Forall₂ (Stored p.functions) ws ds := by
  induction taken with
  | nil => exact ⟨[], .nil, .nil⟩
  | cons found _ ih =>
    obtain ⟨x, d, here, -, kind, held, same⟩ := holds _ _ found
    obtain ⟨ds, others, each⟩ := ih
    exact ⟨d :: ds, .cons ⟨x, here, (read_value kind).trans held⟩ others, .cons same each⟩

/-- The variables of type parameters hold type descriptions. -/
theorem described_descriptions {us : List Sized.Variable}
    (described : ∀ g ∈ us, ∃ x, m.scope.lookup g.name.tag = some x ∧ isWitness vs x = true) :
    List.Forall₂ (fun u d => ∃ x, m.scope.lookup u.name.tag = some x ∧ read vs σ x = some d) us
      (us.map fun _ => .description) := by
  rw [List.forall₂_map_right_iff, List.forall₂_same]
  intro g member
  obtain ⟨x, found, kind⟩ := described g member
  exact ⟨x, found, read_description kind⟩

/-- A closure is made of its function, and of an environment that has been filled. -/
theorem closure_computes {params captures : List Tag} {body : Plain.Expr} {captured : List (WitnessLang.Value F Plain.Code)}
    (taken : List.Forall₂ (fun t v => ρ.lookup t = some v) captures captured) :
    Computes p A ρ (.closure params captures body) (.closure ⟨params, captures, body⟩ captured) := by
  constructor
  intro e vs tail dst m m' is σ same code holds kind
  cases code with
  | @closure _ params' generics captures' _ envShape body' _ _ _ e fields _ js _ L known lifted described adds value packed =>
    obtain ⟨rfl, rfl, rfl⟩ := Plain.Expr.closure.inj same
    obtain ⟨name, adds⟩ := adds
    rw [List.forall₂_map_left_iff] at taken
    obtain ⟨ds, held, each⟩ := holds.captured taken
    have packed : Packs m' (generics ++ captures') fields := packed
    have parts : List.Forall₂ (fun (f : PackField) d => read vs σ f.value.var = some d) fields
        (generics.map (fun _ => .description) ++ ds) :=
      (packed.behind adds.scope.symm).holds (List.rel_append (described_descriptions described) held)
    have names := packed.names
    generalize fieldsIs : generics.map (fun _ => Datum.description) ++ ds = data at parts
    have made : Stored p.functions (.closure ⟨Sized.variableTags params', Sized.variableTags captures', body'.plain⟩ captured)
        (.closure L.name (.record (fields.map (·.name)) data)) := by
      rw [names, ← fieldsIs]
      exact .closure known lifted (held.length_eq.symm) each
    have full : read vs ((σ.without (fields.map (·.value))).put e (some (.record (fields.map (·.name)) data))) e =
        some (.record (fields.map (·.name)) data) := (read_value value).trans (Function.update_self ..)
    refine ⟨_, _, (quiet_exec adds.quiet).append (.pack parts (.makeClosure full .done)), Function.update_self .., made,
      fun _ x old other => ?_⟩
    have apart : x ≠ e := Nat.ne_of_lt (Nat.lt_of_lt_of_le old adds.new)
    rw [Store.put, Function.update_of_ne other, without_of_kept (List.forall_mem_singleton.mpr fun _ => apart.symm),
      Store.put, Function.update_of_ne apart, without_of_kept (List.forall_mem_map.mpr fun f member move => ?_)]
    rw [packed.copies f member] at move
    cases move
  | _ => cases same

/-- Every function is one of a lowered program. -/
def Carries (p : Program) (P : List Plain.Function) : Prop :=
  ∀ f ∈ P, ∃ g result params generics L, g.plain = f ∧ f.params = Sized.variableTags params ∧ L ∈ p.functions ∧
    FunctionCodes p.functions g result params generics L

/-- A function is found by its name. -/
theorem find_function (names : (p.functions.map (·.name)).Nodup) {L : Function} (known : L ∈ p.functions) :
    p.functions.find? (·.name == L.name) = some L := find?_of_nodup names known

theorem call_leaves {tail : Bool} {dst : VarId} {function : String} {xs ws : List VarId} {ds : List (Datum F)}
    {d : Datum F} {L : Function} (names : (p.functions.map (·.name)).Nodup) (known : L ∈ p.functions)
    (name : L.name = function) (kind : isWitness vs dst = false)
    (held : List.Forall₂ (fun x d => read vs σ x = some d) xs ds) (described : ∀ w ∈ ws, isWitness vs w = true)
    (returns : Returns p A L (ds ++ ws.map fun _ => .description) d) (same : Stored p.functions v d) :
    Leaves p A vs dst v tail m [.callDirect function (callArgs dst (xs ++ ws))] σ := by
  obtain ⟨result, params, τ, arguments, ran, left⟩ := returns
  have passed : List.Forall₂ (fun x d => read vs σ x = some d) (xs ++ ws) (ds ++ ws.map fun _ => .description) := by
    refine List.rel_append held ?_
    rw [List.forall₂_map_right_iff, List.forall₂_same]
    exact fun w member => read_description (described w member)
  exact leaves_put (.callDirect kind (name ▸ find_function names known) arguments passed ran left .done) same

section Cases

variable {P : List Plain.Function} {ρ : Locals F Plain.Code} {v : WitnessLang.Value F Plain.Code}

theorem var_computes {tag : Tag} (found : ρ.lookup tag = some v) : Computes p A ρ (.var tag) v := by
  constructor
  intro e vs tail dst m m' is σ same code holds kind
  obtain ⟨x, d, here, inside, value, held, alike⟩ := holds _ _ found
  have source : read vs σ x = some d := (read_value value).trans held
  cases code with
  | copy found' =>
    obtain rfl := Plain.Expr.var.inj same
    obtain rfl := Option.some.inj (here.symm.trans found')
    exact leaves_put (.copy source .done) alike
  | move found' =>
    obtain rfl := Plain.Expr.var.inj same
    obtain rfl := Option.some.inj (here.symm.trans found')
    exact ⟨_, d, .move source .done, Function.update_self .., alike, fun middle => by cases middle⟩
  | _ => cases same

theorem callDirect_computes (carries : Carries p P) (names : (p.functions.map (·.name)).Nodup) {args : List Plain.Expr}
    {ds : List (WitnessLang.Value F Plain.Code)} {f : Plain.Function} (known : f ∈ P) (all : ComputesAll p A ρ args ds)
    (count : ds.length = f.params.length) (inner : Computes p A (f.params.zip ds) f.body v) :
    Computes p A ρ (.callDirect f.name args) v := by
  obtain ⟨g, result, params, generics, L, rfl, params', member, coded⟩ := carries _ known
  rw [params'] at inner count
  constructor
  intro e vs tail dst m m' is σ same code holds kind
  cases code with
  | callDirect passed described =>
    obtain ⟨rfl, arguments⟩ := Plain.Expr.callDirect.inj same
    rw [List.append_assoc]
    refine (all.yields arguments passed holds).leave fun τ ds kept held each => ?_
    obtain ⟨d, returns, alike⟩ := coded.returns inner each (by simpa [Sized.variableTags] using count) _
    have last : Leaves p A vs dst _ tail m _ τ :=
      call_leaves names member coded.name kind held described.kinds returns alike
    obtain ⟨τ', d', ran, rest⟩ := last
    exact ⟨τ', d', (quiet_exec described.quiet).append ran, rest⟩
  | _ => cases same

theorem callClosure_computes (names : (p.functions.map (·.name)).Nodup) {callee : Plain.Expr} {args : List Plain.Expr}
    {captured ds : List (WitnessLang.Value F Plain.Code)} {c : Plain.Code}
    (function : Plain.Eval P A ρ callee (.closure c captured)) (called : Computes p A ρ callee (.closure c captured))
    (all : ComputesAll p A ρ args ds) (count : ds.length = c.params.length)
    (inner : Computes p A (c.params.zip ds ++ c.captures.zip captured) c.body v) :
    Computes p A ρ (.callClosure callee args) v := by
  constructor
  intro e vs tail dst m m' is σ same code holds kind
  cases code with
  | callClosure operand passed =>
    obtain ⟨rfl, rfl⟩ := Plain.Expr.callClosure.inj same
    have operands := (operand.yields holds function called).append operand.leads passed.leads fun τ kept =>
      all.yields rfl passed (holds.later operand.leads kept)
    refine operands.leave fun τ ds kept held each => ?_
    cases each with
    | cons closure each =>
      cases held with
      | cons called held =>
        cases closure with
        | closure known lifted whole captured =>
          obtain ⟨d, ⟨result, params, τ', arguments, ran, left⟩, alike⟩ :=
            lifted.returns inner each (by simpa [Sized.variableTags] using count) captured whole
          exact leaves_put (.callClosure called (find_function names known) arguments held ran left .done) alike
  | _ => cases same

theorem pack_computes {names : List String} {fields : List Plain.Expr} {ds : List (WitnessLang.Value F Plain.Code)}
    (all : ComputesAll p A ρ fields ds) : Computes p A ρ (.pack names fields) (.record names ds) := by
  constructor
  intro e vs tail dst m m' is σ same code holds kind
  cases code with
  | pack packed =>
    obtain ⟨rfl, fields⟩ := Plain.Expr.pack.inj same
    obtain ⟨operands, named, moved⟩ := packed.operands
    refine (all.yields ((Sized.plainFields_eq _).symm.trans fields) operands holds).leave fun τ ds kept held each => ?_
    rw [List.forall₂_map_left_iff] at held
    rw [← named]
    refine ⟨_, _, .pack held .done, Function.update_self .., .record each, fun middle x old other => ?_⟩
    rw [Store.put, Function.update_of_ne other, without_of_kept (List.forall_mem_map.mpr fun f member move => ?_)]
    exact Nat.ne_of_gt (Nat.lt_of_lt_of_le old (moved f member move))
  | _ => cases same

theorem cond_computes {test yes no : Plain.Expr} {b : Bool} (tested : Plain.Eval P A ρ test (.scalar (.truth b)))
    (tests : Computes p A ρ test (.scalar (.truth b))) (branch : Computes p A ρ (if b then yes else no) v) :
    Computes p A ρ (.cond test yes no) v := by
  constructor
  intro e vs tail dst m m' is σ same code holds kind
  cases code with
  | cond operand first second =>
    obtain ⟨rfl, rfl, rfl⟩ := Plain.Expr.cond.inj same
    refine (operand.yields holds tested tests).leave fun τ ds kept held each => ?_
    cases each with
    | cons truth each =>
      cases truth
      cases held with
      | cons test held =>
        have before := holds.later operand.leads kept
        have leads := operand.leads.trans first.leads
        cases b with
        | true =>
          obtain ⟨τ', d, ran, here, alike, kept'⟩ := branch.leaves rfl first before kind
          refine ⟨τ', d, .cond test ran .done, here, alike, fun middle x old other => ?_⟩
          exact kept' middle x (Nat.lt_of_lt_of_le old operand.leads.size) other
        | false =>
          obtain ⟨τ', d, ran, here, alike, kept'⟩ :=
            branch.leaves rfl second (before.later first.leads fun _ _ => rfl) kind
          refine ⟨τ', d, .cond test ran .done, here, alike, fun middle x old other => ?_⟩
          exact kept' middle x (Nat.lt_of_lt_of_le old leads.size) other
  | _ => cases same

end Cases

mutual

/-- Lowering keeps the meaning of an expression. -/
theorem eval_computes (carries : Carries p P) (names : (p.functions.map (·.name)).Nodup) {ρ : Locals F Plain.Code}
    {E : Plain.Expr} {v : WitnessLang.Value F Plain.Code} : Plain.Eval P A ρ E v → Computes p A ρ E v
  | .number => by
    constructor
    intro e vs tail dst m m' is σ same code holds kind
    cases code with
    | number =>
      obtain ⟨rfl, rfl⟩ := Plain.Expr.number.inj same
      exact leaves_put (.set .done) .scalar
    | _ => cases same
  | .bool => by
    constructor
    intro e vs tail dst m m' is σ same code holds kind
    cases code with
    | bool =>
      obtain rfl := Plain.Expr.bool.inj same
      exact leaves_put (.set .done) .scalar
    | _ => cases same
  | .var found => var_computes found
  | .callDirect known given count body => callDirect_computes carries names known (evalAll_computes carries names given) count
    (eval_computes carries names body)
  | .callClosure function given count body => callClosure_computes names function (eval_computes carries names function)
    (evalAll_computes carries names given) count (eval_computes carries names body)
  | .primitive first second => by
    have left := eval_computes carries names first
    have right := eval_computes carries names second
    constructor
    intro e vs tail dst m m' is σ same code holds kind
    cases code with
    | primitive one other =>
      obtain ⟨rfl, rfl, rfl⟩ := Plain.Expr.primitive.inj same
      have operands := (one.yields holds first left).append one.leads other.leads fun τ kept =>
        other.yields (holds.later one.leads kept) second right
      refine operands.leave fun τ ds kept held each => ?_
      cases each with
      | cons left each =>
        cases each with
        | cons right each =>
          cases left
          cases right
          cases each
          cases held with
          | cons first held =>
            cases held with
            | cons second held => exact leaves_put (.primitive first second .done) .scalar
    | _ => cases same
  | .block bound last => by
    have lets := evalLets_computes carries names bound
    have result := eval_computes carries names last
    constructor
    intro e vs tail dst m m' is σ same code holds kind
    cases code with
    | block bindings final =>
      obtain ⟨own, rfl⟩ := Plain.Expr.block.inj same
      obtain ⟨τ, ran, kept, holds⟩ := lets.leaves own bindings holds
      obtain ⟨τ', d, ran', here, alike, kept'⟩ := result.leaves rfl final holds kind
      refine ⟨τ', d, ran.append ran', here, alike, fun middle x old other => ?_⟩
      rw [kept' middle x (Nat.lt_of_lt_of_le old bindings.leads.size) other, kept x old]
    | _ => cases same
  | .pack given => pack_computes (evalAll_computes carries names given)
  | .unpack whole found => by
    have value := eval_computes carries names whole
    constructor
    intro e vs tail dst m m' is σ same code holds kind
    cases code with
    | unpack operand =>
      obtain ⟨rfl, rfl⟩ := Plain.Expr.unpack.inj same
      refine (operand.yields holds whole value).leave fun τ ds kept held each => ?_
      cases each with
      | cons holds each =>
        cases held with
        | cons source held =>
          obtain ⟨names, fields, x, rfl, part, alike⟩ := holds.field? found
          exact leaves_put (.unpack source part .done) alike
    | _ => cases same
  | .cond tested chosen => cond_computes tested (eval_computes carries names tested) (eval_computes carries names chosen)
  | .closure taken => closure_computes taken

theorem evalAll_computes (carries : Carries p P) (names : (p.functions.map (·.name)).Nodup) {ρ : Locals F Plain.Code}
    {Es : List Plain.Expr} {ws : List (WitnessLang.Value F Plain.Code)} :
    Plain.EvalAll P A ρ Es ws → ComputesAll p A ρ Es ws
  | .nil => by
    constructor
    intro es vs xs m m' is σ same codes holds
    cases codes with
    | nil => exact ⟨σ, [], .done, fun _ _ => rfl, List.forall_mem_nil _, .nil, .nil⟩
    | cons => cases same
  | .cons first others => by
    have one := eval_computes carries names first
    have rest := evalAll_computes carries names others
    constructor
    intro es vs xs m m' is σ same codes holds
    cases codes with
    | nil => cases same
    | cons own more =>
      obtain ⟨rfl, rfl⟩ := List.cons.inj same
      exact (own.yields holds first one).append own.leads more.leads fun τ kept =>
        rest.yields rfl more (holds.later own.leads kept)

theorem evalLets_computes (carries : Carries p P) (names : (p.functions.map (·.name)).Nodup) {ρ ρ' : Locals F Plain.Code}
    {Bs : List Plain.Let} : Plain.EvalLets P A ρ Bs ρ' → ComputesLets p A ρ Bs ρ'
  | .nil => by
    constructor
    intro bs vs m m' is σ same codes holds
    cases codes with
    | nil => exact ⟨σ, .done, fun _ _ => rfl, holds⟩
    | cons => cases same
  | .cons first others => by
    have one := eval_computes carries names first
    have rest := evalLets_computes carries names others
    constructor
    intro bs vs m m' is σ same codes holds
    cases codes with
    | nil => cases same
    | cons declared kind filled more =>
      obtain ⟨head, rfl⟩ := List.cons.inj same
      obtain ⟨rfl, rfl⟩ := Plain.Let.mk.inj head
      have before := declared.leads.trans filled.leads
      obtain ⟨τ, d, ran, here, alike, kept⟩ := one.leaves rfl filled (holds.later declared.leads fun _ _ => rfl) kind
      have kept' : ∀ y < m.size, τ y = σ y := fun y old => kept rfl y
        (Nat.lt_of_lt_of_le old declared.leads.size) (Nat.ne_of_lt (Nat.lt_of_lt_of_le old declared.adds.new))
      have own := declared.declared.later filled.leads
      obtain ⟨τ', ran', kept'', agrees⟩ := rest.leaves rfl more
        ((holds.later before kept').cons own.found own.inside kind here alike)
      refine ⟨τ', ((quiet_exec declared.adds.quiet).append ran).append ran', fun y old => ?_, agrees⟩
      rw [kept'' y (Nat.lt_of_lt_of_le old before.size), kept' y old]

end

end Expressions

end WitnessLang.Ir
