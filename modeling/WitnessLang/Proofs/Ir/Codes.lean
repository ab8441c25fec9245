import WitnessLang.Ir.Lower
import WitnessLang.Proofs.Lists
import WitnessLang.Proofs.Ir.Table
import WitnessLang.Proofs.Sized.Scoped

set_option autoImplicit false

namespace WitnessLang.Ir

open Ownership (isWitness)

/-- Where code begins or ends: the variables of declared names, and how many variables there are. -/
structure Mark where
  scope : List (Tag × VarId) := []
  size : Nat := 0

/-- Instructions that build type descriptions and do nothing else. -/
def Quiet (vs : Variables) (is : Block) : Prop :=
  ∀ i ∈ is, ∃ function dst args, i = .callDirect function (callArgs dst args) ∧ isWitness vs dst = true

/-- A variable of the table with a name and a type. -/
def Entered (vs : Variables) (v : VarId) (name : String) (type : Ty) : Prop :=
  ∃ x, vs[v]? = some x ∧ x.name = name ∧ x.type = some type

/-- One of the variables of a function: an argument or a local. -/
def Function.Has (f : Function) (v : VarId) : Prop := v ∈ f.arguments.map (·.var) ∨ v ∈ f.locals

/-- A function whose table holds nothing but its variables. -/
def Function.Owns (f : Function) : Prop := ∀ v < f.vars.size, f.Has v

/-- A variable for values of a shape is added, behind the descriptions that it takes. -/
structure Adds (vs : Variables) (name : String) (shape : Sized.Shape) (m : Mark) (is : Block) (v : VarId) (m' : Mark) :
    Prop where
  quiet : Quiet vs is
  scope : m'.scope = m.scope
  new : m.size ≤ v
  size : m'.size = v + 1
  entered : Entered vs v name shape.type
  kind : isWitness vs v = true ↔ shape.layout.witness = .type

structure Declares (vs : Variables) (v : Sized.Variable) (m : Mark) (is : Block) (x : VarId) (m' : Mark) : Prop where
  fresh : m.scope.lookup v.name.tag = none
  adds : Adds vs v.name.mangled v.shape m is x ⟨m.scope, m'.size⟩
  scope : m'.scope = (v.name.tag, x) :: m.scope

/-- Declared names get their variables one after the other, with some code behind each. -/
inductive DeclaresAll (vs : Variables) (behind : Sized.Variable → VarId → Block) :
    List Sized.Variable → Mark → Block → List VarId → Mark → Prop
  | nil {m} : DeclaresAll vs behind [] m [] [] m
  | cons {v rest m is x m₁ js xs m₂} (first : Declares vs v m is x m₁) (others : DeclaresAll vs behind rest m₁ js xs m₂) :
      DeclaresAll vs behind (v :: rest) m (is ++ behind v x ++ js) (x :: xs) m₂

/-- The code behind a declared argument: there is none. -/
def asIs (_ : Sized.Variable) (_ : VarId) : Block := []

/-- The code behind a captured variable: it is taken out of the environment. -/
def unpacked (env : VarId) (v : Sized.Variable) (x : VarId) : Block := [.unpack x env v.name.mangled]

structure Describes (vs : Variables) (m : Mark) (is : Block) (xs : List VarId) (m' : Mark) : Prop where
  quiet : Quiet vs is
  scope : m'.scope = m.scope
  size : m.size ≤ m'.size
  kinds : ∀ x ∈ xs, isWitness vs x = true

/-- The fields of an environment are the variables that it is made of. -/
def Packs (m : Mark) (taken : List Sized.Variable) (fields : List PackField) : Prop :=
  List.Forall₂ (fun v f => ∃ x, m.scope.lookup v.name.tag = some x ∧ f = ⟨v.name.mangled, copyOf x⟩) taken fields

mutual

/-- The code of an expression, which writes its value into a variable. Only where the value is the last one of
a function, a variable may give its value away. -/
inductive Codes (F : List Function) : Sized.Expr → Variables → Bool → VarId → Mark → Block → Mark → Prop
  | copy {shape name vs tail dst src m} (found : m.scope.lookup name.tag = some src) :
      Codes F (.var shape name) vs tail dst m [.copy dst src] m
  | move {shape name vs dst src m} (found : m.scope.lookup name.tag = some src) :
      Codes F (.var shape name) vs true dst m [.move dst src] m
  | number {shape text bits vs tail dst m} :
      Codes F (.number shape text bits) vs tail dst m [.set dst (.number text bits)] m
  | bool {shape value vs tail dst m} : Codes F (.bool shape value) vs tail dst m [.set dst (.bool value)] m
  | primitive {shape op left right vs tail dst l r m is m₁ js m₂} (first : Operand F left vs l m is m₁)
      (second : Operand F right vs r m₁ js m₂) :
      Codes F (.primitive shape op left right) vs tail dst m (is ++ js ++ [.primitive dst (some op) l r]) m₂
  | callDirect {shape function args witnesses vs tail dst xs ws m is m₁ js m₂} (passed : Operands F args vs xs m is m₁)
      (described : Describes vs m₁ js ws m₂) :
      Codes F (.callDirect shape function args witnesses) vs tail dst m
        (is ++ js ++ [.callDirect function.mangled (callArgs dst (xs ++ ws))]) m₂
  | callClosure {shape callee args vs tail dst f xs m is m₁ js m₂} (function : Operand F callee vs f m is m₁)
      (passed : Operands F args vs xs m₁ js m₂) :
      Codes F (.callClosure shape callee args) vs tail dst m (is ++ js ++ [.callClosure f (callArgs dst xs)]) m₂
  | block {shape bs result vs tail dst m is m₁ js m₂} (bound : LetCodes F bs vs m is m₁)
      (last : Codes F result vs tail dst m₁ js m₂) : Codes F (.block shape bs result) vs tail dst m (is ++ js) m₂
  | pack {shape name fields vs tail dst values m is m₁} (packed : FieldCodes F fields vs values m is m₁) :
      Codes F (.pack shape name fields) vs tail dst m (is ++ [.pack dst name.mangled values]) m₁
  | unpack {shape value field vs tail dst src m is m₁} (whole : Operand F value vs src m is m₁) :
      Codes F (.unpack shape value field) vs tail dst m (is ++ [.unpack dst src field]) m₁
  | cond {shape test yes no vs tail dst t m is m₁ js m₂ ks m₃} (tested : Operand F test vs t m is m₁)
      (first : Codes F yes vs tail dst m₁ js m₂) (second : Codes F no vs tail dst m₂ ks m₃) :
      Codes F (.cond shape test yes no) vs tail dst m (is ++ [.cond dst t js ks]) m₃
  | closure {shape params generics captures env envShape body vs tail dst e fields m is m₁} {L : Function} (known : L ∈ F)
      (lifted : Lifted F params generics captures envShape.type body L)
      (described : ∀ g ∈ generics, ∃ x, m.scope.lookup g.name.tag = some x ∧ isWitness vs x = true)
      (adds : ∃ name, Adds vs name envShape m is e m₁) (value : isWitness vs e = false)
      (packed : Packs m₁ (generics ++ captures) fields) :
      Codes F (.closure shape params generics captures env envShape body) vs tail dst m
        (is ++ [.pack e env.mangled fields, .makeClosure dst L.name ⟨.move, e⟩]) m₁

/-- A variable that holds the value of an expression: that of a name, or a new one that is filled. -/
inductive Operand (F : List Function) : Sized.Expr → Variables → VarId → Mark → Block → Mark → Prop
  | named {shape name vs x m} (found : m.scope.lookup name.tag = some x) : Operand F (.var shape name) vs x m [] m
  | temporary {e name vs t m is m₁ js m₂} (adds : Adds vs name e.shape m is t m₁) (value : isWitness vs t = false)
      (filled : Codes F e vs false t m₁ js m₂) : Operand F e vs t m (is ++ js) m₂

/-- Variables that hold the values of expressions. -/
inductive Operands (F : List Function) : List Sized.Expr → Variables → List VarId → Mark → Block → Mark → Prop
  | nil {vs m} : Operands F [] vs [] m [] m
  | cons {e rest vs x xs m is m₁ js m₂} (first : Operand F e vs x m is m₁) (others : Operands F rest vs xs m₁ js m₂) :
      Operands F (e :: rest) vs (x :: xs) m (is ++ js) m₂

/-- The values of fields, of which only new variables are given away. -/
inductive FieldCodes (F : List Function) :
    List Sized.PackField → Variables → List PackField → Mark → Block → Mark → Prop
  | nil {vs m} : FieldCodes F [] vs [] m [] m
  | cons {name value rest vs v fields m is m₁ js m₂} (first : Operand F value vs v.var m is m₁)
      (new : v.mode = .move → m.size ≤ v.var) (others : FieldCodes F rest vs fields m₁ js m₂) :
      FieldCodes F (⟨name, value⟩ :: rest) vs (⟨name, v⟩ :: fields) m (is ++ js) m₂

inductive LetCodes (F : List Function) : List Sized.Let → Variables → Mark → Block → Mark → Prop
  | nil {vs m} : LetCodes F [] vs m [] m
  | cons {v value rest vs x m is m₁ js m₂ ks m₃} (declared : Declares vs v m is x m₁) (kind : isWitness vs x = false)
      (filled : Codes F value vs false x m₁ js m₂) (others : LetCodes F rest vs m₂ ks m₃) :
      LetCodes F (⟨v, value⟩ :: rest) vs m (is ++ js ++ ks) m₃

/-- The function behind a closure. It takes its environment apart before it runs the body. -/
inductive Lifted (F : List Function) :
    List Sized.Variable → List Sized.Variable → List Sized.Variable → Ty → Sized.Expr → Function → Prop
  | intro {params generics captures envType body} {L : Function} {us xs m₁ is result m₂ js ys m₃ ks zs m₄ code m₅}
      (distinct : ((generics ++ captures).map (·.name.mangled)).Nodup)
      (environment : Entered L.vars 0 "_env" envType) (plain : isWitness L.vars 0 = false)
      (described : DeclaresAll L.vars (unpacked 0) generics ⟨[], 1⟩ us xs m₁)
      (descriptions : ∀ x ∈ xs, isWitness L.vars x = true)
      (returned : Adds L.vars "_result" body.shape m₁ is result m₂)
      (taken : DeclaresAll L.vars asIs params m₂ js ys m₃) (captured : DeclaresAll L.vars (unpacked 0) captures m₃ ks zs m₄)
      (values : ∀ x ∈ result :: (ys ++ zs), isWitness L.vars x = false)
      (filled : Codes F body L.vars true result m₄ code m₅)
      (arguments : L.arguments = ⟨result, .out⟩ :: (ys ++ [0]).map (⟨·, .borrowed⟩))
      (code : L.body = us ++ is ++ js ++ ks ++ code)
      (owned : L.Owns) :
      Lifted F params generics captures envType body L

end

/-- A function and its code: its type parameters are declared first, then its result and its parameters. -/
structure FunctionCodes (F : List Function) (f : Sized.Function) (result : Sized.Variable)
    (params generics : List Sized.Variable) (L : Function) : Prop where
  name : L.name = f.name.mangled
  owned : L.Owns
  parts : ∃ (is js ks : Block) (r : VarId) (xs ys : List VarId) (m₁ m₂ m₃ : Mark),
    DeclaresAll L.vars asIs generics {} is xs m₁ ∧ (∀ x ∈ xs, isWitness L.vars x = true) ∧
    DeclaresAll L.vars asIs (result :: params) m₁ js (r :: ys) m₂ ∧ (∀ x ∈ r :: ys, isWitness L.vars x = false) ∧
    Codes F f.body L.vars true r m₂ ks m₃ ∧
    L.arguments = ⟨r, .out⟩ :: (ys ++ xs).map (⟨·, .borrowed⟩) ∧ L.body = is ++ js ++ ks

theorem Lifted.owns {F : List Function} {params generics captures : List Sized.Variable} {envType : Ty} {body : Sized.Expr}
    {L : Function} : Lifted F params generics captures envType body L → L.Owns
  | .intro _ _ _ _ _ _ _ _ _ _ _ _ owned => owned

section Marks

variable {F : List Function} {vs : Variables} {m m' m'' : Mark}

/-- Behind a mark there are more variables, and declared names keep theirs. -/
structure Mark.Leads (m m' : Mark) : Prop where
  scope : ∀ t x, m.scope.lookup t = some x → m'.scope.lookup t = some x
  size : m.size ≤ m'.size

theorem Mark.Leads.refl (m : Mark) : m.Leads m := ⟨fun _ _ => id, Nat.le_refl _⟩

theorem Mark.Leads.trans (first : m.Leads m') (second : m'.Leads m'') : m.Leads m'' :=
  ⟨fun t x found => second.scope t x (first.scope t x found), Nat.le_trans first.size second.size⟩

theorem Adds.leads {name : String} {shape : Sized.Shape} {is : Block} {v : VarId} (adds : Adds vs name shape m is v m') :
    m.Leads m' := by
  refine ⟨fun t x found => by rw [adds.scope, found], ?_⟩
  have new := adds.new
  have size := adds.size
  omega

theorem Adds.inside {name : String} {shape : Sized.Shape} {is : Block} {v : VarId} (adds : Adds vs name shape m is v m') :
    v < m'.size := Nat.lt_of_lt_of_eq (Nat.lt_succ_self v) adds.size.symm

theorem Declares.leads {v : Sized.Variable} {is : Block} {x : VarId} (declares : Declares vs v m is x m') : m.Leads m' := by
  refine ⟨fun t y found => ?_, declares.adds.leads.size⟩
  have other : t ≠ v.name.tag := fun same => by
    rw [same, declares.fresh] at found
    cases found
  rw [declares.scope, List.lookup_cons, beq_false_of_ne other, found]

theorem Declares.found {v : Sized.Variable} {is : Block} {x : VarId} (declares : Declares vs v m is x m') :
    m'.scope.lookup v.name.tag = some x := by
  rw [declares.scope, List.lookup_cons_self]

theorem DeclaresAll.leads {behind : Sized.Variable → VarId → Block} {us : List Sized.Variable} {is : Block}
    {xs : List VarId} (all : DeclaresAll vs behind us m is xs m') : m.Leads m' := by
  induction all with
  | nil => exact .refl _
  | cons first _ ih => exact first.leads.trans ih

structure Declared (vs : Variables) (m m' : Mark) (v : Sized.Variable) (x : VarId) : Prop where
  found : m'.scope.lookup v.name.tag = some x
  new : m.size ≤ x
  inside : x < m'.size
  entered : Entered vs x v.name.mangled v.shape.type
  kind : isWitness vs x = true ↔ v.shape.layout.witness = .type

theorem Declares.declared {v : Sized.Variable} {is : Block} {x : VarId} (declares : Declares vs v m is x m') :
    Declared vs m m' v x where
  found := declares.found
  new := declares.adds.new
  inside := declares.adds.inside
  entered := declares.adds.entered
  kind := declares.adds.kind

theorem Declared.later {v : Sized.Variable} {x : VarId} (declared : Declared vs m m' v x) (leads : m'.Leads m'') :
    Declared vs m m'' v x :=
  { declared with
    found := leads.scope _ _ declared.found
    inside := Nat.lt_of_lt_of_le declared.inside leads.size }

theorem DeclaresAll.declared {behind : Sized.Variable → VarId → Block} {us : List Sized.Variable} {is : Block}
    {xs : List VarId} (all : DeclaresAll vs behind us m is xs m') : List.Forall₂ (Declared vs m m') us xs := by
  induction all with
  | nil => exact .nil
  | cons first others ih =>
    refine .cons (first.declared.later others.leads) (ih.imp fun v x own => ?_)
    exact { own with new := Nat.le_trans first.leads.size own.new }

theorem DeclaresAll.quiet {us : List Sized.Variable} {is : Block} {xs : List VarId} (all : DeclaresAll vs asIs us m is xs m') :
    Quiet vs is := by
  induction us generalizing m is xs with
  | nil =>
    cases all
    exact List.forall_mem_nil _
  | cons u rest ih =>
    cases all with
    | cons first others =>
      rw [asIs, List.append_nil]
      exact List.forall_mem_append.mpr ⟨first.adds.quiet, ih others⟩

theorem Describes.leads {is : Block} {xs : List VarId} (described : Describes vs m is xs m') : m.Leads m' :=
  ⟨fun t x found => by rw [described.scope, found], described.size⟩

theorem Packs.behind {taken : List Sized.Variable} {fields : List PackField} (packs : Packs m taken fields)
    (scope : m'.scope = m.scope) : Packs m' taken fields := by
  rw [Packs, scope]
  exact packs

/-- Fields have the names of the variables that are packed. -/
theorem Packs.names {taken : List Sized.Variable} {fields : List PackField} (packs : Packs m taken fields) :
    fields.map (·.name) = taken.map (·.name.mangled) := map_eq_of_forall₂ packs fun v f field => by
  obtain ⟨x, -, rfl⟩ := field
  rfl

theorem Packs.copies {taken : List Sized.Variable} {fields : List PackField} (packs : Packs m taken fields) :
    ∀ f ∈ fields, f.value.mode = .copy := by
  intro f member
  obtain ⟨v, -, x, -, rfl⟩ := exists_of_forall₂ packs f member
  rfl

mutual

theorem Codes.leads {e : Sized.Expr} {vs : Variables} {tail : Bool} {dst : VarId} {m : Mark} {is : Block} {m' : Mark} :
    Codes F e vs tail dst m is m' → m.Leads m'
  | .copy _ | .move _ | .number | .bool => .refl _
  | .primitive first second => first.leads.trans second.leads
  | .callDirect passed described => passed.leads.trans described.leads
  | .callClosure function passed => function.leads.trans passed.leads
  | .block bound last => bound.leads.trans last.leads
  | .pack packed => packed.leads
  | .unpack whole => whole.leads
  | .cond tested first second => tested.leads.trans (first.leads.trans second.leads)
  | .closure _ _ _ ⟨_, adds⟩ _ _ => adds.leads

theorem Operand.leads {e : Sized.Expr} {vs : Variables} {x : VarId} {m : Mark} {is : Block} {m' : Mark} :
    Operand F e vs x m is m' → m.Leads m'
  | .named _ => .refl _
  | .temporary adds _ filled => adds.leads.trans filled.leads

theorem Operands.leads {es : List Sized.Expr} {vs : Variables} {xs : List VarId} {m : Mark} {is : Block} {m' : Mark} :
    Operands F es vs xs m is m' → m.Leads m'
  | .nil => .refl _
  | .cons first others => first.leads.trans others.leads

theorem FieldCodes.leads {fs : List Sized.PackField} {vs : Variables} {values : List PackField} {m : Mark} {is : Block}
    {m' : Mark} : FieldCodes F fs vs values m is m' → m.Leads m'
  | .nil => .refl _
  | .cons first _ others => first.leads.trans others.leads

theorem LetCodes.leads {bs : List Sized.Let} {vs : Variables} {m : Mark} {is : Block} {m' : Mark} :
    LetCodes F bs vs m is m' → m.Leads m'
  | .nil => .refl _
  | .cons declared _ filled others => declared.leads.trans (filled.leads.trans others.leads)

end

end Marks

end WitnessLang.Ir
