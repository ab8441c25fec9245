import Mathlib.Data.List.Forall2
import Mathlib.Logic.Basic

set_option autoImplicit false

namespace WitnessLang

/-- A computation in two steps gives a result exactly if both steps do. -/
theorem Except.bind_eq_ok {ε α β : Type} {first : Except ε α} {next : α → Except ε β} {b : β} :
    (first >>= next) = .ok b ↔ ∃ a, first = .ok a ∧ next a = .ok b := by
  cases first with
  | error e => simp [bind, Except.bind]
  | ok a => simp [bind, Except.bind]

theorem Except.toOption_eq_some {ε α : Type} {r : Except ε α} {a : α} : r.toOption = some a ↔ r = .ok a := by
  cases r <;> simp [Except.toOption]

/-- A check of every element succeeds exactly if each single check does. -/
theorem forM_eq_ok {ε α : Type} {check : α → Except ε Unit} {items : List α} :
    items.forM check = .ok () ↔ ∀ a ∈ items, check a = .ok () := by
  induction items with
  | nil => simp [List.forM, pure, Except.pure]
  | cons a rest ih =>
    rw [List.forM, Except.bind_eq_ok, List.forall_mem_cons]
    constructor
    · rintro ⟨⟨⟩, own, others⟩
      exact ⟨own, ih.mp others⟩
    · rintro ⟨own, others⟩
      exact ⟨(), own, ih.mpr others⟩

/-- A result as said, or a failure of an allowed kind. -/
def Gives {ε α : Type} (allowed : ε → Prop) (r : Except ε α) (post : α → Prop) : Prop :=
  match r with
  | .ok a => post a
  | .error e => allowed e

theorem Gives.bind {ε α β : Type} {allowed : ε → Prop} {r : Except ε α} {f : α → Except ε β}
    {post : α → Prop} {post' : β → Prop} (first : Gives allowed r post)
    (next : ∀ a, post a → Gives allowed (f a) post') : Gives allowed (r >>= f) post' := by
  cases r with
  | error e => exact first
  | ok a => exact next a first

section Stateful

variable {ε σ α β : Type}

/-- What a computation does from a state: its result, and the state it leaves. -/
def outcome (m : ExceptT ε (StateM σ) α) (s : σ) : Except ε α × σ := m.run.run s

/-- A computation ends with a result, in a state. -/
def Ends (m : ExceptT ε (StateM σ) α) (s : σ) (r : Except ε α) (s' : σ) : Prop :=
  outcome m s = (r, s')

variable {m : ExceptT ε (StateM σ) α} {f : α → ExceptT ε (StateM σ) β} {s s' : σ}

theorem outcome_bind (m : ExceptT ε (StateM σ) α) (f : α → ExceptT ε (StateM σ) β) (s : σ) :
    outcome (m >>= f) s =
      match outcome m s with
      | (.ok a, s') => outcome (f a) s'
      | (.error e, s') => (.error e, s') := by
  simp only [outcome, bind, ExceptT.bind, ExceptT.run, ExceptT.mk, StateT.bind, StateT.run]
  rcases m s with ⟨⟨e⟩ | ⟨a⟩, s'⟩ <;> rfl

theorem outcome_tryCatch (m : ExceptT ε (StateM σ) α) (handle : ε → ExceptT ε (StateM σ) α)
    (s : σ) :
    outcome (tryCatch m handle) s =
      match outcome m s with
      | (.ok a, s') => (.ok a, s')
      | (.error e, s') => outcome (handle e) s' := by
  simp only [outcome, tryCatch, tryCatchThe, MonadExceptOf.tryCatch, ExceptT.tryCatch, ExceptT.run,
    ExceptT.mk, bind, StateT.bind, StateT.run]
  rcases m s with ⟨⟨e⟩ | ⟨a⟩, s'⟩ <;> rfl

theorem ends_iff {r : Except ε α} : Ends m s r s' ↔ (outcome m s).1 = r ∧ (outcome m s).2 = s' := by
  rw [Ends, Prod.ext_iff]

/-- A run has one end. -/
theorem Ends.unique {r r' : Except ε α} {t t' : σ} (first : Ends m s r t)
    (second : Ends m s r' t') : r = r' ∧ t = t' := by
  rw [Ends] at first second
  rw [first] at second
  exact Prod.mk.inj second

@[simp] theorem ends_pure {a : α} {r : Except ε α} :
    Ends (pure a : ExceptT ε (StateM σ) α) s r s' ↔ r = .ok a ∧ s' = s := by
  rw [ends_iff, eq_comm, eq_comm (a := (outcome _ s).2)]
  exact Iff.rfl

@[simp] theorem ends_throw {e : ε} {r : Except ε α} :
    Ends (throw e : ExceptT ε (StateM σ) α) s r s' ↔ r = .error e ∧ s' = s := by
  rw [ends_iff, eq_comm, eq_comm (a := (outcome _ s).2)]
  exact Iff.rfl

@[simp] theorem ends_get {r : Except ε σ} :
    Ends (get : ExceptT ε (StateM σ) σ) s r s' ↔ r = .ok s ∧ s' = s := by
  rw [ends_iff, eq_comm, eq_comm (a := (outcome _ s).2)]
  exact Iff.rfl

@[simp] theorem ends_set {x : σ} {r : Except ε PUnit} :
    Ends (set x : ExceptT ε (StateM σ) PUnit) s r s' ↔ r = .ok ⟨⟩ ∧ s' = x := by
  rw [ends_iff, eq_comm, eq_comm (a := (outcome _ s).2)]
  exact Iff.rfl

@[simp] theorem ends_modify {g : σ → σ} {r : Except ε PUnit} :
    Ends (modify g : ExceptT ε (StateM σ) PUnit) s r s' ↔ r = .ok ⟨⟩ ∧ s' = g s := by
  rw [ends_iff, eq_comm, eq_comm (a := (outcome _ s).2)]
  exact Iff.rfl

theorem ends_bind {r : Except ε β} {s'' : σ} :
    Ends (m >>= f) s r s'' ↔
      (∃ a s', Ends m s (.ok a) s' ∧ Ends (f a) s' r s'') ∨
        ∃ e, Ends m s (.error e) s'' ∧ r = .error e := by
  simp only [Ends, outcome_bind]
  rcases outcome m s with ⟨⟨e⟩ | ⟨a⟩, s'⟩
  · simp only [Prod.mk.injEq, reduceCtorEq, false_and, Except.error.injEq]
    grind
  · simp only [Prod.mk.injEq, Except.ok.injEq, reduceCtorEq, false_and]
    grind

@[simp] theorem ends_get_bind {f : σ → ExceptT ε (StateM σ) β} {r : Except ε β} :
    Ends (get >>= f) s r s' ↔ Ends (f s) s r s' := Iff.rfl

@[simp] theorem ends_set_bind {x : σ} {f : PUnit → ExceptT ε (StateM σ) β} {r : Except ε β} :
    Ends (set x >>= f) s r s' ↔ Ends (f ⟨⟩) x r s' := Iff.rfl

@[simp] theorem ends_modify_bind {g : σ → σ} {f : PUnit → ExceptT ε (StateM σ) β}
    {r : Except ε β} : Ends (modify g >>= f) s r s' ↔ Ends (f ⟨⟩) (g s) r s' := Iff.rfl

@[simp] theorem ends_throw_bind {e : ε} {r : Except ε β} :
    Ends ((throw e : ExceptT ε (StateM σ) α) >>= f) s r s' ↔ r = .error e ∧ s' = s := by
  rw [← ends_throw]
  exact Iff.rfl

@[simp] theorem ends_pure_bind {a : α} {r : Except ε β} :
    Ends ((pure a : ExceptT ε (StateM σ) α) >>= f) s r s' ↔ Ends (f a) s r s' := Iff.rfl

theorem ends_bind_ok {b : β} {s'' : σ} :
    Ends (m >>= f) s (.ok b) s'' ↔ ∃ a s', Ends m s (.ok a) s' ∧ Ends (f a) s' (.ok b) s'' := by
  simp [ends_bind]

theorem ends_map {g : α → β} {r : Except ε β} :
    Ends (g <$> m) s r s' ↔
      (∃ a, Ends m s (.ok a) s' ∧ r = .ok (g a)) ∨ ∃ e, Ends m s (.error e) s' ∧ r = .error e := by
  rw [map_eq_pure_bind, ends_bind]
  simp only [ends_pure]
  grind

/-- Results are made one after the other. -/
theorem ends_mapM_cons {g : β → ExceptT ε (StateM σ) α} {x : β} {xs : List β} {ys : List α} :
    Ends ((x :: xs).mapM g) s (.ok ys) s' ↔ ∃ y s₁ rest, Ends (g x) s (.ok y) s₁ ∧
      Ends (xs.mapM g) s₁ (.ok rest) s' ∧ ys = y :: rest := by
  rw [List.mapM_cons, ends_bind_ok]
  simp only [ends_bind_ok, ends_pure, Except.ok.injEq]
  grind

@[simp] theorem ends_mapM_nil {g : β → ExceptT ε (StateM σ) α} {ys : List α} :
    Ends ([].mapM g) s (.ok ys) s' ↔ ys = [] ∧ s' = s := by
  rw [List.mapM_nil, ends_pure, Except.ok.injEq]

theorem ends_tryCatch {handle : ε → ExceptT ε (StateM σ) α} {r : Except ε α} {s'' : σ} :
    Ends (tryCatch m handle) s r s'' ↔
      (∃ a, Ends m s (.ok a) s'' ∧ r = .ok a) ∨
        ∃ e s', Ends m s (.error e) s' ∧ Ends (handle e) s' r s'' := by
  simp only [Ends, outcome_tryCatch]
  rcases outcome m s with ⟨⟨e⟩ | ⟨a⟩, s'⟩
  · simp only [Prod.mk.injEq, Except.error.injEq, reduceCtorEq, false_and]
    grind
  · simp only [Prod.mk.injEq, Except.ok.injEq, reduceCtorEq, false_and]
    grind

end Stateful

section Conditions

variable {ε σ α β : Type}

/-- From a state, a computation that cannot fail leaves a result and a state as said. -/
def Leaves (m : StateM σ α) (s : σ) (post : α → σ → Prop) : Prop :=
  post (m.run s).1 (m.run s).2

@[simp] theorem leaves_pure {a : α} {s : σ} {post : α → σ → Prop} :
    Leaves (pure a) s post ↔ post a s := Iff.rfl

theorem leaves_bind {m : StateM σ α} {f : α → StateM σ β} {s : σ} {post : β → σ → Prop} :
    Leaves (m >>= f) s post ↔ Leaves m s fun a s' => Leaves (f a) s' post := Iff.rfl

@[simp] theorem leaves_get_bind {f : σ → StateM σ β} {s : σ} {post : β → σ → Prop} :
    Leaves (get >>= f) s post ↔ Leaves (f s) s post := Iff.rfl

@[simp] theorem leaves_modify_bind {g : σ → σ} {f : PUnit → StateM σ β} {s : σ}
    {post : β → σ → Prop} : Leaves (modify g >>= f) s post ↔ Leaves (f ⟨⟩) (g s) post := Iff.rfl

theorem Leaves.imp {m : StateM σ α} {s : σ} {post post' : α → σ → Prop} (leaves : Leaves m s post)
    (weaker : ∀ a s', post a s' → post' a s') : Leaves m s post' := weaker _ _ leaves

/-- From a state, a computation leaves a result and a state as said, or fails in an allowed
way. -/
def Meets (allowed : ε → Prop) (m : ExceptT ε (StateM σ) α) (s : σ) (post : α → σ → Prop) : Prop :=
  match outcome m s with
  | (.ok a, s') => post a s'
  | (.error e, _) => allowed e

variable {allowed : ε → Prop} {m : ExceptT ε (StateM σ) α} {f : α → ExceptT ε (StateM σ) β} {s : σ}

theorem meets_iff {post : α → σ → Prop} :
    Meets allowed m s post ↔ (∀ a s', Ends m s (.ok a) s' → post a s') ∧
      ∀ e s', Ends m s (.error e) s' → allowed e := by
  simp only [Meets, Ends]
  rcases outcome m s with ⟨⟨e⟩ | ⟨a⟩, s'⟩ <;> simp

@[simp] theorem meets_pure {a : α} {post : α → σ → Prop} :
    Meets allowed (pure a : ExceptT ε (StateM σ) α) s post ↔ post a s := Iff.rfl

@[simp] theorem meets_throw {e : ε} {post : α → σ → Prop} :
    Meets allowed (throw e : ExceptT ε (StateM σ) α) s post ↔ allowed e := Iff.rfl

theorem meets_bind {post : β → σ → Prop} :
    Meets allowed (m >>= f) s post ↔
      Meets allowed m s fun a s' => Meets allowed (f a) s' post := by
  simp only [Meets, outcome_bind]
  rcases outcome m s with ⟨⟨e⟩ | ⟨a⟩, s'⟩ <;> rfl

theorem Meets.bind {post : α → σ → Prop} {post' : β → σ → Prop} (first : Meets allowed m s post)
    (next : ∀ a s', post a s' → Meets allowed (f a) s' post') :
    Meets allowed (m >>= f) s post' := by
  rw [meets_bind]
  simp only [Meets] at first ⊢
  split
  · rename_i a s' ends
    rw [ends] at first
    exact next a s' first
  · rename_i e s' ends
    rw [ends] at first
    exact first

theorem Meets.imp {post post' : α → σ → Prop} (meets : Meets allowed m s post)
    (weaker : ∀ a s', post a s' → post' a s') : Meets allowed m s post' := by
  rw [meets_iff] at meets ⊢
  exact ⟨fun a s' ends => weaker a s' (meets.1 a s' ends), meets.2⟩

theorem Meets.weaken {allowed' : ε → Prop} {post : α → σ → Prop} (meets : Meets allowed m s post)
    (more : ∀ e, allowed e → allowed' e) : Meets allowed' m s post := by
  rw [meets_iff] at meets ⊢
  exact ⟨meets.1, fun e s' ends => more e (meets.2 e s' ends)⟩

@[simp] theorem meets_get_bind {f : σ → ExceptT ε (StateM σ) β} {post : β → σ → Prop} :
    Meets allowed (get >>= f) s post ↔ Meets allowed (f s) s post := Iff.rfl

@[simp] theorem meets_modify {g : σ → σ} {post : PUnit → σ → Prop} :
    Meets allowed (modify g : ExceptT ε (StateM σ) PUnit) s post ↔ post ⟨⟩ (g s) := Iff.rfl

@[simp] theorem meets_modify_bind {g : σ → σ} {f : PUnit → ExceptT ε (StateM σ) β}
    {post : β → σ → Prop} :
    Meets allowed (modify g >>= f) s post ↔ Meets allowed (f ⟨⟩) (g s) post := Iff.rfl

@[simp] theorem meets_pure_bind {a : α} {post : β → σ → Prop} :
    Meets allowed ((pure a : ExceptT ε (StateM σ) α) >>= f) s post ↔
      Meets allowed (f a) s post := Iff.rfl

@[simp] theorem meets_throw_bind {e : ε} {post : β → σ → Prop} :
    Meets allowed ((throw e : ExceptT ε (StateM σ) α) >>= f) s post ↔ allowed e := Iff.rfl

end Conditions

section Reading

variable {ρ ε σ α β : Type}

/-- A computation that may look at something ends with a result, in a state. -/
def Runs (m : ReaderT ρ (ExceptT ε (StateM σ)) α) (c : ρ) (s : σ) (r : Except ε α) (s' : σ) : Prop :=
  Ends (m c) s r s'

variable {m : ReaderT ρ (ExceptT ε (StateM σ)) α} {f : α → ReaderT ρ (ExceptT ε (StateM σ)) β}
  {c : ρ} {s s' : σ}

theorem Runs.unique {r r' : Except ε α} {t t' : σ} (first : Runs m c s r t)
    (second : Runs m c s r' t') : r = r' ∧ t = t' := Ends.unique first second

@[simp] theorem runs_pure {a : α} {r : Except ε α} :
    Runs (pure a : ReaderT ρ (ExceptT ε (StateM σ)) α) c s r s' ↔ r = .ok a ∧ s' = s := ends_pure

@[simp] theorem runs_throw {e : ε} {r : Except ε α} :
    Runs (throw e : ReaderT ρ (ExceptT ε (StateM σ)) α) c s r s' ↔ r = .error e ∧ s' = s :=
  ends_throw

theorem runs_get {r : Except ε σ} :
    Runs (get : ReaderT ρ (ExceptT ε (StateM σ)) σ) c s r s' ↔ r = .ok s ∧ s' = s := ends_get

@[simp] theorem runs_modify {g : σ → σ} {r : Except ε PUnit} :
    Runs (modify g : ReaderT ρ (ExceptT ε (StateM σ)) PUnit) c s r s' ↔ r = .ok ⟨⟩ ∧ s' = g s :=
  ends_modify

theorem runs_bind {r : Except ε β} {s'' : σ} :
    Runs (m >>= f) c s r s'' ↔
      (∃ a s', Runs m c s (.ok a) s' ∧ Runs (f a) c s' r s'') ∨
        ∃ e, Runs m c s (.error e) s'' ∧ r = .error e := ends_bind

@[simp] theorem runs_get_bind {f : σ → ReaderT ρ (ExceptT ε (StateM σ)) β} {r : Except ε β} :
    Runs (get >>= f) c s r s' ↔ Runs (f s) c s r s' := Iff.rfl

@[simp] theorem runs_read_bind {f : ρ → ReaderT ρ (ExceptT ε (StateM σ)) β} {r : Except ε β} :
    Runs (read >>= f) c s r s' ↔ Runs (f c) c s r s' := Iff.rfl

@[simp] theorem runs_modify_bind {g : σ → σ} {f : PUnit → ReaderT ρ (ExceptT ε (StateM σ)) β}
    {r : Except ε β} : Runs (modify g >>= f) c s r s' ↔ Runs (f ⟨⟩) c (g s) r s' := Iff.rfl

@[simp] theorem runs_throw_bind {e : ε} {r : Except ε β} :
    Runs ((throw e : ReaderT ρ (ExceptT ε (StateM σ)) α) >>= f) c s r s' ↔
      r = .error e ∧ s' = s := ends_throw_bind (f := fun a => f a c)

@[simp] theorem runs_pure_bind {a : α} {r : Except ε β} :
    Runs ((pure a : ReaderT ρ (ExceptT ε (StateM σ)) α) >>= f) c s r s' ↔ Runs (f a) c s r s' :=
  Iff.rfl

theorem runs_bind_ok {b : β} {s'' : σ} :
    Runs (m >>= f) c s (.ok b) s'' ↔
      ∃ a s', Runs m c s (.ok a) s' ∧ Runs (f a) c s' (.ok b) s'' := ends_bind_ok

theorem runs_map_ok {h : α → β} {b : β} :
    Runs (h <$> m) c s (.ok b) s' ↔ ∃ a, Runs m c s (.ok a) s' ∧ b = h a := by
  rw [map_eq_pure_bind, runs_bind_ok]
  simp

theorem runs_tryCatch {handle : ε → ReaderT ρ (ExceptT ε (StateM σ)) α} {r : Except ε α} {s'' : σ} :
    Runs (tryCatch m handle) c s r s'' ↔
      (∃ a, Runs m c s (.ok a) s'' ∧ r = .ok a) ∨
        ∃ e s', Runs m c s (.error e) s' ∧ Runs (handle e) c s' r s'' := ends_tryCatch

/-- The same as `Meets`, for a computation that may look at something. -/
def MeetsIn (allowed : ε → Prop) (m : ReaderT ρ (ExceptT ε (StateM σ)) α) (c : ρ) (s : σ)
    (post : α → σ → Prop) : Prop := Meets allowed (m c) s post

variable {allowed : ε → Prop}

theorem meetsIn_iff {post : α → σ → Prop} :
    MeetsIn allowed m c s post ↔ (∀ a s', Runs m c s (.ok a) s' → post a s') ∧
      ∀ e s', Runs m c s (.error e) s' → allowed e := meets_iff

@[simp] theorem meetsIn_pure {a : α} {post : α → σ → Prop} :
    MeetsIn allowed (pure a : ReaderT ρ (ExceptT ε (StateM σ)) α) c s post ↔ post a s := Iff.rfl

@[simp] theorem meetsIn_throw {e : ε} {post : α → σ → Prop} :
    MeetsIn allowed (throw e : ReaderT ρ (ExceptT ε (StateM σ)) α) c s post ↔ allowed e := Iff.rfl

theorem meetsIn_bind {post : β → σ → Prop} :
    MeetsIn allowed (m >>= f) c s post ↔
      MeetsIn allowed m c s fun a s' => MeetsIn allowed (f a) c s' post :=
  meets_bind (f := fun a => f a c)

theorem meetsIn_map {h : α → β} {post : β → σ → Prop} :
    MeetsIn allowed (h <$> m) c s post ↔ MeetsIn allowed m c s fun a s' => post (h a) s' := by
  rw [map_eq_pure_bind, meetsIn_bind]
  rfl

theorem MeetsIn.imp {post post' : α → σ → Prop} (meets : MeetsIn allowed m c s post)
    (weaker : ∀ a s', post a s' → post' a s') : MeetsIn allowed m c s post' :=
  Meets.imp meets weaker

theorem MeetsIn.weaken {allowed' : ε → Prop} {post : α → σ → Prop} (meets : MeetsIn allowed m c s post)
    (more : ∀ e, allowed e → allowed' e) : MeetsIn allowed' m c s post :=
  Meets.weaken meets more

@[simp] theorem meetsIn_get_bind {f : σ → ReaderT ρ (ExceptT ε (StateM σ)) β}
    {post : β → σ → Prop} :
    MeetsIn allowed (get >>= f) c s post ↔ MeetsIn allowed (f s) c s post := Iff.rfl

@[simp] theorem meetsIn_read_bind {f : ρ → ReaderT ρ (ExceptT ε (StateM σ)) β}
    {post : β → σ → Prop} :
    MeetsIn allowed (read >>= f) c s post ↔ MeetsIn allowed (f c) c s post := Iff.rfl

@[simp] theorem meetsIn_modify_bind {g : σ → σ} {f : PUnit → ReaderT ρ (ExceptT ε (StateM σ)) β}
    {post : β → σ → Prop} :
    MeetsIn allowed (modify g >>= f) c s post ↔ MeetsIn allowed (f ⟨⟩) c (g s) post := Iff.rfl

@[simp] theorem meetsIn_pure_bind {a : α} {post : β → σ → Prop} :
    MeetsIn allowed ((pure a : ReaderT ρ (ExceptT ε (StateM σ)) α) >>= f) c s post ↔
      MeetsIn allowed (f a) c s post := Iff.rfl

@[simp] theorem meetsIn_throw_bind {e : ε} {post : β → σ → Prop} :
    MeetsIn allowed ((throw e : ReaderT ρ (ExceptT ε (StateM σ)) α) >>= f) c s post ↔ allowed e :=
  Iff.rfl

/-- A handler that fails in an allowed way whenever it is called in one. -/
theorem meetsIn_tryCatch {handle : ε → ReaderT ρ (ExceptT ε (StateM σ)) α} {post : α → σ → Prop}
    (meets : MeetsIn allowed m c s post)
    (handled : ∀ e, allowed e → ∀ s', MeetsIn allowed (handle e) c s' post) :
    MeetsIn allowed (tryCatch m handle) c s post := by
  have same : outcome (tryCatch m handle c) s = _ := outcome_tryCatch (m c) (fun e => handle e c) s
  simp only [MeetsIn, Meets] at meets handled ⊢
  rw [same]
  rcases ends : outcome (m c) s with ⟨⟨e⟩ | ⟨a⟩, s'⟩
  · rw [ends] at meets
    exact handled e meets s'
  · rw [ends] at meets
    exact meets

/-- From every state of some kind, a computation leaves a state of that kind and a result as said,
unless it fails in an allowed way. -/
def Keeps (allowed : ε → Prop) (kind : σ → Prop) (c : ρ) (m : ReaderT ρ (ExceptT ε (StateM σ)) α)
    (good : α → Prop) : Prop :=
  ∀ s, kind s → MeetsIn allowed m c s fun a s' => kind s' ∧ good a

/-- The same for a computation that may fail in any way. -/
abbrev Preserves (kind : σ → Prop) (c : ρ) (m : ReaderT ρ (ExceptT ε (StateM σ)) α) (good : α → Prop) : Prop :=
  Keeps (fun _ => True) kind c m good

variable {kind : σ → Prop} {good : α → Prop} {good' : β → Prop}

theorem keeps_pure {a : α} (own : good a) :
    Keeps allowed kind c (pure a : ReaderT ρ (ExceptT ε (StateM σ)) α) good := fun _ known =>
  meetsIn_pure.mpr ⟨known, own⟩

theorem keeps_throw {e : ε} (own : allowed e) :
    Keeps allowed kind c (throw e : ReaderT ρ (ExceptT ε (StateM σ)) α) good := fun _ _ =>
  meetsIn_throw.mpr own

theorem keeps_throw_bind {e : ε} (own : allowed e) :
    Keeps allowed kind c ((throw e : ReaderT ρ (ExceptT ε (StateM σ)) α) >>= f) good' := fun _ _ =>
  meetsIn_throw_bind.mpr own

theorem preserves_throw {e : ε} :
    Preserves kind c (throw e : ReaderT ρ (ExceptT ε (StateM σ)) α) good := keeps_throw trivial

theorem preserves_throw_bind {e : ε} :
    Preserves kind c ((throw e : ReaderT ρ (ExceptT ε (StateM σ)) α) >>= f) good' := keeps_throw_bind trivial

theorem Keeps.bind (first : Keeps allowed kind c m good) (next : ∀ a, good a → Keeps allowed kind c (f a) good') :
    Keeps allowed kind c (m >>= f) good' := fun s known =>
  meetsIn_bind.mpr ((first s known).imp fun a s' ⟨known', own⟩ => next a own s' known')

theorem Keeps.imp {other : α → Prop} (first : Keeps allowed kind c m good) (weaker : ∀ a, good a → other a) :
    Keeps allowed kind c m other := fun s known =>
  (first s known).imp fun a _ ⟨known', own⟩ => ⟨known', weaker a own⟩

theorem keeps_read_bind {f : ρ → ReaderT ρ (ExceptT ε (StateM σ)) α} (next : Keeps allowed kind c (f c) good) :
    Keeps allowed kind c (read >>= f) good := fun s known => meetsIn_read_bind.mpr (next s known)

theorem keeps_get_bind {f : σ → ReaderT ρ (ExceptT ε (StateM σ)) α}
    (next : ∀ s, kind s → Keeps allowed kind c (f s) good) : Keeps allowed kind c (get >>= f) good := fun s known =>
  meetsIn_get_bind.mpr (next s known s known)

theorem keeps_modify_bind {g : σ → σ} {f : PUnit → ReaderT ρ (ExceptT ε (StateM σ)) α}
    (keeps : ∀ s, kind s → kind (g s)) (next : Keeps allowed kind c (f ⟨⟩) good) :
    Keeps allowed kind c (modify g >>= f) good := fun s known => meetsIn_modify_bind.mpr (next _ (keeps s known))

theorem keeps_tryCatch {handle : ε → ReaderT ρ (ExceptT ε (StateM σ)) α} (first : Keeps allowed kind c m good)
    (fails : ∀ e, allowed e → ∃ e', handle e = throw e' ∧ allowed e') :
    Keeps allowed kind c (tryCatch m handle) good := by
  refine fun s known => meetsIn_tryCatch (first s known) fun e failed s' => ?_
  obtain ⟨e', same, own⟩ := fails e failed
  rw [same]
  exact meetsIn_throw.mpr own

theorem keeps_pure_bind {a : α} (next : Keeps allowed kind c (f a) good') :
    Keeps allowed kind c ((pure a : ReaderT ρ (ExceptT ε (StateM σ)) α) >>= f) good' := next

/-- Results that are made one after the other. -/
theorem Keeps.mapM (good : α → Prop) {g : β → ReaderT ρ (ExceptT ε (StateM σ)) α} {xs : List β}
    (each : ∀ x ∈ xs, Keeps allowed kind c (g x) good) :
    Keeps allowed kind c (xs.mapM g) fun ys => ∀ y ∈ ys, good y := by
  induction xs with
  | nil =>
    rw [List.mapM_nil]
    exact keeps_pure (List.forall_mem_nil _)
  | cons x rest ih =>
    rw [List.forall_mem_cons] at each
    rw [List.mapM_cons]
    exact each.1.bind fun y own => (ih each.2).bind fun ys all =>
      keeps_pure (List.forall_mem_cons.mpr ⟨own, all⟩)

/-- Results that are made one after the other, each from its own item. -/
theorem Keeps.mapM_forall₂ {good : β → α → Prop} {g : β → ReaderT ρ (ExceptT ε (StateM σ)) α} {xs : List β}
    (each : ∀ x ∈ xs, Keeps allowed kind c (g x) (good x)) :
    Keeps allowed kind c (xs.mapM g) fun ys => List.Forall₂ good xs ys := by
  induction xs with
  | nil =>
    rw [List.mapM_nil]
    exact keeps_pure .nil
  | cons x rest ih =>
    rw [List.forall_mem_cons] at each
    rw [List.mapM_cons]
    exact each.1.bind fun y own => (ih each.2).bind fun ys all => keeps_pure (.cons own all)

end Reading

end WitnessLang
