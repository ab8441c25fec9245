import Mathlib.Logic.Relation
import Mathlib.Tactic.Linarith
import WitnessLang.Proofs.Sized.Finite
import WitnessLang.Proofs.Sized.Program

set_option autoImplicit false

namespace WitnessLang.Sized

/-- Asking for the layouts of some types and defining variables of them keeps states of some kind, and stops in
allowed ways only, as looking for what is not there does. -/
structure Walks (c : Context) (allowed : Stop → Prop) (kind : State → Prop) (able : Ty → Prop) : Prop where
  lays : ∀ t, able t → Keeps allowed kind c (layoutOf t) fun _ => True
  defines : ∀ name t, able t → Keeps allowed kind c (define name t) fun _ => True
  lacking : ∀ message, allowed (.inconsistent message)
  unknown : ∀ type, allowed (.fault (.unknownStruct type) {})
  placed : ∀ cause span span', allowed (.fault cause span) → allowed (.fault cause span')

section Looking

variable {c : Context} {allowed : Stop → Prop} {kind : State → Prop}

theorem lookup_keeps (lacking : ∀ message, allowed (.inconsistent message)) (name : Ident) :
    Keeps allowed kind c (lookup name) fun _ => True := by
  refine keeps_get_bind fun s _ => ?_
  split
  · exact keeps_pure trivial
  · exact keeps_throw (lacking _)

mutual

theorem witness_keeps (lacking : ∀ message, allowed (.inconsistent message)) :
    (w : WitnessExpr) → Keeps allowed kind c (witness w) fun _ => True
  | .var name => by
    rw [witness]
    exact (lookup_keeps lacking name).bind fun _ _ => keeps_pure trivial
  | .build constructor args => by
    rw [witness]
    exact (witnesses_keeps lacking args).bind fun _ _ => keeps_pure trivial

theorem witnesses_keeps (lacking : ∀ message, allowed (.inconsistent message)) :
    (ws : List WitnessExpr) → Keeps allowed kind c (witnesses ws) fun _ => True
  | [] => keeps_pure trivial
  | w :: rest => by
    rw [witnesses]
    exact (witness_keeps lacking w).bind fun _ _ => (witnesses_keeps lacking rest).bind fun _ _ => keeps_pure trivial

end

end Looking

namespace Walks

variable {c : Context} {allowed : Stop → Prop} {kind : State → Prop} {able : Ty → Prop}

theorem shapeOf (walks : Walks c allowed kind able) {t : Ty} (can : able t) :
    Keeps allowed kind c (Sized.shapeOf t) fun _ => True :=
  (walks.lays t can).bind fun _ _ => keeps_pure trivial

theorem atSpan (walks : Walks c allowed kind able) {α : Type} {m : Measure α} {span : Span}
    (first : Keeps allowed kind c m fun _ => True) : Keeps allowed kind c (Sized.atSpan span m) fun _ => True :=
  atSpan_keeps first walks.placed

theorem mapM {α β : Type} {f : α → Measure β} {xs : List α} (each : ∀ x ∈ xs, Keeps allowed kind c (f x) fun _ => True) :
    Keeps allowed kind c (xs.mapM f) fun _ => True := (Keeps.mapM _ each).imp fun _ _ => trivial

mutual

theorem expr (walks : Walks c allowed kind able) : (e : Explicit.Expr) → (∀ t ∈ e.types, able t) →
    Keeps allowed kind c (Sized.expr e) fun _ => True := by
  intro e wide
  rw [Explicit.Expr.types.eq_def, List.forall_mem_cons] at wide
  obtain ⟨own, wide⟩ := wide
  rw [Sized.expr]
  refine (walks.atSpan (walks.shapeOf own)).bind fun shape _ => ?_
  cases e with
  | var span type name => exact (lookup_keeps walks.lacking name).bind fun _ _ => keeps_pure trivial
  | number | bool => exact keeps_pure trivial
  | callDirect span type function args ws =>
    exact (walks.exprs args wide).bind fun _ _ => (witnesses_keeps walks.lacking ws).bind fun _ _ => keeps_pure trivial
  | callClosure span type callee args =>
    rw [List.forall_mem_append] at wide
    exact (walks.expr callee wide.1).bind fun _ _ => (walks.exprs args wide.2).bind fun _ _ => keeps_pure trivial
  | primitive span op left right =>
    rw [List.forall_mem_append] at wide
    exact (walks.expr left wide.1).bind fun _ _ => (walks.expr right wide.2).bind fun _ _ => keeps_pure trivial
  | block span bs result =>
    rw [List.forall_mem_append] at wide
    exact (walks.lets bs wide.1).bind fun _ _ => (walks.expr result wide.2).bind fun _ _ => keeps_pure trivial
  | pack span name args fields => exact (walks.packFields fields wide).bind fun _ _ => keeps_pure trivial
  | unpack span type value field => exact (walks.expr value wide).bind fun _ _ => keeps_pure trivial
  | cond span test yes no =>
    rw [List.forall_mem_append, List.forall_mem_append] at wide
    exact (walks.expr test wide.1.1).bind fun _ _ => (walks.expr yes wide.1.2).bind fun _ _ =>
      (walks.expr no wide.2).bind fun _ _ => keeps_pure trivial
  | closure span params generics captures env body =>
    rw [List.forall_mem_append, List.forall_mem_cons, List.forall_mem_map] at wide
    refine (mapM fun g _ => lookup_keeps walks.lacking g).bind fun gs _ => ?_
    refine (mapM fun x _ => lookup_keeps walks.lacking x.name).bind fun cs _ => ?_
    refine (mapM fun p member => walks.defines p.name p.type (wide.1 p member)).bind fun ps _ => ?_
    refine keeps_read_bind ?_
    dsimp only
    split
    · exact keeps_throw_bind (walks.unknown _)
    · exact (walks.shapeOf wide.2.1).bind fun _ _ => (walks.expr body wide.2.2).bind fun _ _ => keeps_pure trivial

theorem exprs (walks : Walks c allowed kind able) : (es : List Explicit.Expr) →
    (∀ t ∈ Explicit.Expr.typesAll es, able t) → Keeps allowed kind c (Sized.exprs es) fun _ => True
  | [], _ => keeps_pure trivial
  | e :: rest, wide => by
    rw [Explicit.Expr.typesAll, List.forall_mem_append] at wide
    rw [Sized.exprs]
    exact (walks.expr e wide.1).bind fun _ _ => (walks.exprs rest wide.2).bind fun _ _ => keeps_pure trivial

theorem packFields (walks : Walks c allowed kind able) : (fs : List Explicit.PackField) →
    (∀ t ∈ Explicit.Expr.fieldTypes fs, able t) → Keeps allowed kind c (Sized.packFields fs) fun _ => True
  | [], _ => keeps_pure trivial
  | ⟨name, value⟩ :: rest, wide => by
    rw [Explicit.Expr.fieldTypes, List.forall_mem_append] at wide
    rw [Sized.packFields]
    exact (walks.expr value wide.1).bind fun _ _ => (walks.packFields rest wide.2).bind fun _ _ => keeps_pure trivial

theorem lets (walks : Walks c allowed kind able) : (bs : List Explicit.Let) →
    (∀ t ∈ Explicit.Expr.letTypes bs, able t) → Keeps allowed kind c (Sized.lets bs) fun _ => True
  | [], _ => keeps_pure trivial
  | ⟨name, type, value⟩ :: rest, wide => by
    rw [Explicit.Expr.letTypes, List.forall_mem_append, List.forall_mem_cons] at wide
    rw [Sized.lets]
    refine (walks.expr value wide.1).bind fun v _ => ?_
    refine (walks.atSpan (walks.defines name type wide.2.1)).bind fun x _ => ?_
    exact (walks.lets rest wide.2.2).bind fun _ _ => keeps_pure trivial

end

theorem struct (walks : Walks c allowed kind able) {d : Explicit.Struct} {b : Option Explicit.Builder}
    (description : able Ty.witness) (fields : ∀ f ∈ d.fields, able f.type) :
    Keeps allowed kind c (Sized.struct d b) fun _ => True := by
  cases b with
  | none => exact keeps_throw (walks.lacking _)
  | some b =>
    by_cases fits : b.fields.length = d.fields.length
    case neg =>
      obtain ⟨message, same⟩ := struct_unfit fits
      rw [same]
      exact keeps_throw (walks.lacking _)
    rw [struct_eq fits]
    refine (mapM fun a _ => walks.defines a _ description).bind fun as _ => ?_
    refine (mapM fun f member => ?_).bind fun fs _ => keeps_pure trivial
    exact (walks.atSpan (walks.shapeOf (fields f member))).bind fun _ _ => keeps_pure trivial

theorem function (walks : Walks c allowed kind able) {f : Explicit.Function} (arguments : ∀ a ∈ f.arguments, able a.type)
    (body : ∀ t ∈ f.body.types, able t) : Keeps allowed kind c (Sized.function f) fun _ => True := by
  rw [Sized.function]
  dsimp only
  refine (mapM fun a member => walks.atSpan (walks.defines a.name a.type (arguments a ?_))).bind fun _ _ => ?_
  · rw [List.partition_eq_filter_filter, List.mem_append, List.mem_filter, List.mem_filter] at member
    exact member.elim And.left And.left
  refine (mapM fun a _ => (lookup_keeps walks.lacking a.name).bind fun _ _ => keeps_pure trivial).bind fun _ _ => ?_
  exact (walks.expr f.body body).bind fun _ _ => keeps_pure trivial

end Walks

open Explicit (tagsOf)
open Relation (ReflTransGen TransGen)

/-- A value of the second type holds one of the first. -/
def HasPart (structs : List Explicit.Struct) (whole part : Ty) : Prop := part ∈ parts structs whole

/-- A struct applied to its own type parameters. -/
def ownType (d : Explicit.Struct) : Ty := .named d.name (d.generics.map Ty.generic)

/-- No polymorphic recursion: where a struct is met again inside of its own values, it is applied to the
same types. -/
def Uniform (structs : List Explicit.Struct) : Prop :=
  ∀ d ∈ structs, ∀ name args, name.tag = d.name.tag →
    TransGen (HasPart structs) (ownType d) (.named name args) → args = d.generics.map Ty.generic

/-- What one type is made of, where only some structs are looked into. -/
def Reaches (structs : List Explicit.Struct) (opened : List Tag) : Ty → Ty → Prop :=
  ReflTransGen fun whole part => (∃ name args, whole = .named name args ∧ name.tag ∈ opened) ∧
    HasPart structs whole part

/-- Only so many types are met inside of a type. -/
def Bounded (structs : List Explicit.Struct) (opened : List Tag) (t : Ty) : Prop :=
  ∃ met : List Ty, ∀ u, Reaches structs opened t u → u ∈ met

section Reaches

variable {structs : List Explicit.Struct} {opened : List Tag} {t u : Ty}

theorem Reaches.within (reaches : Reaches structs opened t u) : ReflTransGen (HasPart structs) t u :=
  ReflTransGen.mono (fun _ _ => And.right) _ _ reaches

/-- A type that holds nothing meets only itself. -/
theorem bounded_of_nothing (nothing : ∀ name args, t = .named name args → name.tag ∈ opened → parts structs t = []) :
    Bounded structs opened t := by
  refine ⟨[t], fun u reaches => ?_⟩
  rcases reaches.cases_head with same | ⟨v, ⟨⟨name, args, same, known⟩, part⟩, -⟩
  · exact List.mem_singleton.mpr same.symm
  · rw [HasPart, nothing name args same known] at part
    cases part

/-- Several types together. -/
theorem exists_met {ts : List Ty} (each : ∀ t ∈ ts, Bounded structs opened t) :
    ∃ met : List Ty, ∀ t ∈ ts, ∀ u, Reaches structs opened t u → u ∈ met := by
  induction ts with
  | nil => exact ⟨[], List.forall_mem_nil _⟩
  | cons t rest ih =>
    rw [List.forall_mem_cons] at each
    obtain ⟨first, all⟩ := each.1
    obtain ⟨others, later⟩ := ih each.2
    refine ⟨first ++ others, List.forall_mem_cons.mpr ⟨fun u reaches => ?_, fun s member u reaches => ?_⟩⟩
    · exact List.mem_append_left _ (all u reaches)
    · exact List.mem_append_right _ (later s member u reaches)

/-- Structs that hold nothing but values of their type parameters are uniform. -/
theorem uniform_of_plain (plain : ∀ d ∈ structs, ∀ t ∈ parts structs (ownType d), ∃ g, t = Ty.generic g) :
    Uniform structs := by
  intro d member name args same met
  obtain ⟨t, part, rest⟩ := TransGen.head'_iff.mp met
  obtain ⟨g, rfl⟩ := plain d member t part
  rcases rest.cases_head with same | ⟨u, part, -⟩
  · cases same
  · cases part

end Reaches

section Uniform

variable {c : Context} {opened own : List Tag}

/-- The types of the fields of a struct that is applied to its own type parameters. -/
theorem parts_ownType {d : Explicit.Struct} {name : Ident} (found : c.struct? name.tag = some d)
    (basic : ¬ ((name.tag = .float ∨ name.tag = .bool) ∨ name.tag = .witness)) (args : List Ty) :
    parts c.structs (.named name args) = fieldTypes d args := by
  rw [not_or] at basic
  exact parts_struct basic.1 basic.2 found

/-- A struct meets itself again only as it is: so behind its fields, it need not be looked into any more. -/
theorem reaches_own (uniform : Uniform c.structs) {d : Explicit.Struct} (member : d ∈ c.structs)
    (found : c.struct? d.name.tag = some d) (basic : ¬ ((d.name.tag = .float ∨ d.name.tag = .bool) ∨ d.name.tag = .witness))
    {u : Ty} (reaches : Reaches c.structs opened (ownType d) u) :
    u = ownType d ∨ ∃ f ∈ fieldTypes d (d.generics.map Ty.generic),
      Reaches c.structs (opened.filter (· ≠ d.name.tag)) f u := by
  induction reaches with
  | refl => exact Or.inl rfl
  | tail before step ih =>
    obtain ⟨⟨name, args, rfl, known⟩, part⟩ := step
    rw [HasPart] at part
    rcases ih with same | ⟨f, field, inside⟩
    · rw [same, ownType, parts_ownType found basic] at part
      exact Or.inr ⟨_, part, .refl⟩
    by_cases again : name.tag = d.name.tag
    · have first : HasPart c.structs (ownType d) f := by
        rw [HasPart, ownType, parts_ownType found basic]
        exact field
      obtain rfl := uniform d member name args again (.head' first inside.within)
      rw [parts_ownType (again ▸ found) (again ▸ basic)] at part
      exact Or.inr ⟨_, part, .refl⟩
    · refine Or.inr ⟨f, field, inside.tail ⟨⟨name, args, rfl, ?_⟩, part⟩⟩
      exact List.mem_filter.mpr ⟨known, by simpa using again⟩

theorem formed_ownFields (whole : c.Formed) {d : Explicit.Struct} (member : d ∈ c.structs) :
    ∀ f ∈ fieldTypes d (d.generics.map Ty.generic), f.Formed c.arity (tagsOf d.generics) [] := by
  refine formed_fieldTypes whole member (by simp) (List.forall_mem_map.mpr fun g inside => ?_)
  exact Ty.formed_generic.mpr (List.mem_map_of_mem inside)

/-- What is met inside of an applied struct is met inside of the struct, with the type parameters filled
in, or inside of what they are filled in with. -/
theorem reaches_applied (whole : c.Formed) {d : Explicit.Struct} (member : d ∈ c.structs)
    (once : (tagsOf d.generics).Nodup) {name : Ident} (same : name.tag = d.name.tag) (found : c.struct? d.name.tag = some d)
    (basic : ¬ ((d.name.tag = .float ∨ d.name.tag = .bool) ∨ d.name.tag = .witness)) {args : List Ty}
    (length : args.length = d.generics.length) (known : d.name.tag ∈ opened)
    {u : Ty} (reaches : Reaches c.structs opened (.named name args) u) :
    u = .named name args ∨
      (∃ v, Reaches c.structs opened (ownType d) v ∧ v.Formed c.arity (tagsOf d.generics) [] ∧
        u = v.substitute ((tagsOf d.generics).zip args)) ∨
      ∃ a ∈ args, Reaches c.structs opened a u := by
  induction reaches with
  | refl => exact Or.inl rfl
  | tail before step ih =>
    rename_i w part
    obtain ⟨seen, part⟩ := step
    rw [HasPart] at part
    rcases ih with rfl | ⟨v, inside, formed, rfl⟩ | ⟨a, given, inside⟩
    · rw [parts_ownType (same ▸ found) (same ▸ basic), ← substitute_generics once length,
        fieldTypes_substitute whole member (by simp), List.mem_map] at part
      obtain ⟨f, field, rfl⟩ := part
      refine Or.inr (Or.inl ⟨f, .single ⟨⟨d.name, _, rfl, known⟩, ?_⟩, formed_ownFields whole member f field, rfl⟩)
      rw [HasPart, ownType, parts_ownType found basic]
      exact field
    · cases v with
      | named other inner =>
        obtain ⟨name', args', same', looked⟩ := seen
        rw [Ty.substitute_named] at same' part
        obtain ⟨rfl, -⟩ := Ty.named.inj same'
        obtain ⟨arity, given⟩ := Ty.formed_named.mp formed
        by_cases plain : (other.tag = .float ∨ other.tag = .bool) ∨ other.tag = .witness
        · rw [parts, if_pos plain] at part
          cases part
        have plain' := not_or.mp plain
        obtain ⟨e, struct, member', fits⟩ := c.arity_struct arity plain'.1 plain'.2
        rw [parts_ownType struct plain, fieldTypes_substitute whole member' fits.symm, List.mem_map] at part
        obtain ⟨f, field, rfl⟩ := part
        refine Or.inr (Or.inl ⟨f, inside.tail ⟨⟨other, inner, rfl, looked⟩, ?_⟩, ?_, rfl⟩)
        · rw [HasPart, parts_ownType struct plain]
          exact field
        · exact formed_fieldTypes whole member' fits given f field
      | generic g =>
        have length' : args.length = (tagsOf d.generics).length := by rw [length, tagsOf, List.length_map]
        obtain ⟨a, given, filled⟩ := Ty.exists_lookup_zip length' (Ty.formed_generic.mp formed)
        rw [Ty.substitute_generic, filled, Option.getD_some] at seen part
        exact Or.inr (Or.inr ⟨a, given, .single ⟨seen, part⟩⟩)
      | func ts result =>
        obtain ⟨name', args', same', -⟩ := seen
        rw [Ty.substitute_func] at same'
        cases same'
      | cell cell => exact absurd (Ty.formed_cell.mp formed) List.not_mem_nil
    · exact Or.inr (Or.inr ⟨a, given, inside.tail ⟨seen, part⟩⟩)

/-- Where structs are uniform, only so many types are met inside of a type. The outer induction is on the
structs that may still be looked into, the inner one on the type. -/
theorem bounded_of_uniform (uniform : Uniform c.structs) (whole : c.Formed)
    (once : ∀ d ∈ c.structs, (tagsOf d.generics).Nodup) {t : Ty}
    (formed : t.Formed c.arity own []) : Bounded c.structs opened t := by
  induction measured : opened.length using Nat.strong_induction_on generalizing opened t own with
  | _ n outer =>
    subst measured
    induction t with
    | generic g => exact bounded_of_nothing fun _ _ same => by cases same
    | func ts result => exact bounded_of_nothing fun _ _ same => by cases same
    | cell cell => exact bounded_of_nothing fun _ _ same => by cases same
    | named name args inner =>
      obtain ⟨arity, given⟩ := Ty.formed_named.mp formed
      by_cases plain : (name.tag = .float ∨ name.tag = .bool) ∨ name.tag = .witness
      · exact bounded_of_nothing fun _ _ _ _ => by rw [parts, if_pos plain]
      by_cases known : name.tag ∈ opened
      swap
      · exact bounded_of_nothing fun name' args' same looked => absurd ((Ty.named.inj same).1 ▸ looked) known
      have plain' := not_or.mp plain
      obtain ⟨d, found, member, fits⟩ := c.arity_struct arity plain'.1 plain'.2
      have tag : d.name.tag = name.tag := by simpa using List.find?_some found
      rw [← tag] at found plain known
      have fewer : (opened.filter (· ≠ d.name.tag)).length < opened.length :=
        List.length_filter_lt_length_iff_exists.mpr ⟨d.name.tag, known, by simp⟩
      obtain ⟨fields, metF⟩ := exists_met fun f field =>
        outer _ fewer (formed_ownFields whole member f field) rfl
      obtain ⟨arguments, metA⟩ := exists_met fun a member => inner a member (given a member)
      refine ⟨.named name args ::
        ((ownType d :: fields).map (·.substitute ((tagsOf d.generics).zip args)) ++ arguments), fun u reaches => ?_⟩
      rcases reaches_applied whole member (once d member) tag.symm found plain fits.symm known reaches with
        rfl | ⟨v, inside, -, rfl⟩ | ⟨a, given, inside⟩
      · exact List.mem_cons_self
      · refine List.mem_cons_of_mem _ (List.mem_append_left _ (List.mem_map_of_mem ?_))
        rcases reaches_own uniform member found plain inside with rfl | ⟨f, field, inside⟩
        · exact List.mem_cons_self
        · exact List.mem_cons_of_mem _ (metF f field v inside)
      · exact List.mem_cons_of_mem _ (List.mem_append_right _ (metA a given u inside))

end Uniform

def Stop.Ends : Stop → Prop
  | .endless => False
  | _ => True

/-- All types that are met inside of a type bear one of so many keys. -/
def Meeting (structs : List Explicit.Struct) (keys : List String) (t : Ty) : Prop :=
  ∀ u, ReflTransGen (HasPart structs) t u → u.key ∈ keys

/-- The bound for the search is wide enough for a type. -/
def Context.Reaches (c : Context) (t : Ty) : Prop := ∃ keys, keys.length < c.depth ∧ Meeting c.structs keys t

/-- Types that are open have different keys among those that may be met, more than which are allowed for. -/
structure Nested (keys : List String) (n : Nat) (opened : List OpenType) : Prop where
  once : (opened.map (·.key)).Nodup
  inside : opened.map (·.key) ⊆ keys
  room : keys.length < opened.length + n

section Search

variable {c : Context}

theorem Nested.pos {keys : List String} {n : Nat} {opened : List OpenType} (nested : Nested keys n opened) : 0 < n := by
  have few := (List.subperm_of_subset nested.once nested.inside).length_le
  have room := nested.room
  rw [List.length_map] at few
  omega

/-- A type is laid out without end only if one of its parts is. -/
theorem computeLayout_ends {self : Ty → Measure Layout} {opened : List OpenType} {t : Ty}
    (ends : ∀ u ∈ parts c.structs t, Keeps Stop.Ends (·.opened = opened) c (self u) fun _ => True) :
    Keeps Stop.Ends (·.opened = opened) c (computeLayout self t) fun _ => True := by
  cases t with
  | named name args =>
    rw [computeLayout]
    split
    · exact keeps_pure trivial
    rename_i basic
    split
    · exact keeps_read_bind (keeps_pure trivial)
    rename_i other
    refine keeps_read_bind ?_
    cases found : c.struct? name.tag with
    | none => exact keeps_throw trivial
    | some d =>
      rw [parts_struct basic other found] at ends
      dsimp only
      split
      · exact keeps_throw_bind trivial
      have fields : ∀ (ts : List Ty) size plain,
          (∀ u ∈ ts, Keeps Stop.Ends (·.opened = opened) c (self u) fun _ => True) →
            Keeps Stop.Ends (·.opened = opened) c (fieldsLayout.go self size plain ts) fun _ => True := by
        intro ts
        induction ts with
        | nil => exact fun _ _ _ => keeps_pure trivial
        | cons u rest ih =>
          intro size plain each
          rw [List.forall_mem_cons] at each
          exact each.1.bind fun l _ => ih _ _ each.2
      refine (fields _ _ _ ends).bind fun r _ => ?_
      have described : Keeps Stop.Ends (fun s : State => s.opened = opened) c
          (Witness.dynamic <$> witness (Ty.named name args).witnessExpr) fun _ => True :=
        (witness_keeps (fun _ => trivial) _).bind fun _ _ => keeps_pure trivial
      split
      · exact keeps_pure_bind (keeps_modify_bind (fun _ => id) (keeps_pure trivial))
      · exact described.bind fun w _ => keeps_modify_bind (fun _ => id) (keeps_pure trivial)
  | generic name =>
    rw [computeLayout]
    exact (lookup_keeps (fun _ => trivial) name).bind fun _ _ => keeps_pure trivial
  | func args result =>
    rw [computeLayout]
    exact (witness_keeps (fun _ => trivial) _).bind fun _ _ => keeps_read_bind (keeps_pure trivial)
  | cell cell =>
    rw [computeLayout]
    exact keeps_throw trivial

/-- One more type is opened, unless it is open already. -/
theorem Nested.push {keys : List String} {n : Nat} {opened : List OpenType} (nested : Nested keys (n + 1) opened)
    {o : OpenType} (known : o.key ∈ keys) (new : ∀ p ∈ opened, p.key ≠ o.key) : Nested keys n (opened ++ [o]) where
  once := by
    rw [List.map_append, List.map_singleton, List.nodup_append']
    refine ⟨nested.once, List.nodup_singleton _, fun k left right => ?_⟩
    obtain ⟨p, member, rfl⟩ := List.mem_map.mp left
    exact new p member (List.mem_singleton.mp right)
  inside := by
    rw [List.map_append, List.append_subset]
    exact ⟨nested.inside, List.cons_subset.mpr ⟨known, List.nil_subset _⟩⟩
  room := by
    have room := nested.room
    rw [List.length_append, List.length_singleton]
    omega

theorem layoutWithin_ends {keys : List String} (n : Nat) {opened : List OpenType} (nested : Nested keys n opened)
    {t : Ty} (meeting : Meeting c.structs keys t) :
    Keeps Stop.Ends (·.opened = opened) c (layoutWithin n t) fun _ => True := by
  induction n generalizing opened t with
  | zero => exact absurd nested.pos (Nat.lt_irrefl 0)
  | succ n ih =>
    intro s same
    rw [layoutWithin, layoutStep, meetsIn_get_bind]
    dsimp only
    split
    · exact meetsIn_pure.mpr ⟨same, trivial⟩
    split
    · exact meetsIn_throw_bind.mpr trivial
    rename_i fresh
    have new : ∀ p ∈ opened, p.key ≠ t.key := by
      simpa [List.dropWhile_eq_nil_iff, same] using fresh
    have nested' : Nested keys n (opened ++ [⟨t.key, t.render⟩]) := nested.push (meeting t .refl) new
    have inner : Keeps Stop.Ends (·.opened = opened ++ [⟨t.key, t.render⟩]) c (computeLayout (layoutWithin n) t) fun _ => True :=
      computeLayout_ends fun u part => ih nested' fun v inside => meeting v (inside.head part)
    rw [meetsIn_bind, meetsIn_whileOpen]
    refine (inner _ (by rw [same])).imp ?_
    rintro l s₁ ⟨still, -⟩
    rw [meetsIn_modify_bind, meetsIn_pure]
    refine ⟨?_, trivial⟩
    change s₁.opened.dropLast = opened
    rw [still, List.dropLast_concat]

end Search

abbrev Ending (c : Context) {α : Type} (m : Measure α) : Prop := Keeps Stop.Ends (·.opened = []) c m fun _ => True

section Trees

variable {c : Context}

/-- Measuring comes to an end where the search for each layout does. -/
theorem walks_ends (c : Context) : Walks c Stop.Ends (·.opened = []) c.Reaches := by
  have lays : ∀ t, c.Reaches t → Ending c (layoutOf t) := by
    rintro t ⟨keys, wide, meeting⟩
    have start : Nested keys c.depth [] := ⟨List.nodup_nil, List.nil_subset _, by simpa using wide⟩
    exact keeps_read_bind (layoutWithin_ends c.depth start meeting)
  refine ⟨lays, fun name t reaches => keeps_get_bind fun s _ => ?_, fun _ => trivial, fun _ => trivial, fun _ _ _ => id⟩
  split
  · exact keeps_pure trivial
  · have shape : Ending c (shapeOf t) := (lays t reaches).bind fun _ _ => keeps_pure trivial
    exact shape.bind fun _ _ => keeps_modify_bind (fun _ => id) (keeps_pure trivial)

/-- A failure that measuring comes to in the end. -/
def Failure.Ends : Failure → Prop
  | .endless => False
  | _ => True

theorem eachDefinition_ends {α β : Type} {name : α → Ident} {m : α → Measure β} {as : List α} {s : State}
    (each : ∀ a ∈ as, Ending c (m a)) (idle : s.opened = []) :
    Gives Failure.Ends (eachDefinition c name m s as) fun r => r.2.opened = [] := by
  induction as generalizing s with
  | nil => exact idle
  | cons a rest ih =>
    rw [List.forall_mem_cons] at each
    rw [eachDefinition]
    have first : Gives Failure.Ends (inDefinition c (name a) (m a) s) fun r => r.2.opened = [] := by
      have ends := each.1 s idle
      rw [MeetsIn, Meets, outcome] at ends
      rw [inDefinition]
      rcases ran : (m a c).run.run s with ⟨⟨e⟩ | ⟨b⟩, s'⟩
      · rw [ran] at ends
        have ran' : ((m a).run c).run.run s = (.error e, s') := ran
        rw [ran']
        cases e with
        | endless => exact ends
        | _ => trivial
      · rw [ran] at ends
        have ran' : ((m a).run c).run.run s = (.ok b, s') := ran
        rw [ran']
        exact ends.1
    refine first.bind fun r idle₁ => ?_
    obtain ⟨b, s₁⟩ := r
    exact (ih each.2 idle₁).bind fun r' idle₂ => idle₂

/-- Within a bound that is wide enough, measuring comes to an end. -/
theorem measureWithin_ends {p : Explicit.Program} {target : Target} {depth : Nat}
    (wide : ∀ t ∈ p.types, (Context.mk target p.structs depth).Reaches t) :
    Gives Failure.Ends (measureWithin depth p target) fun _ => True := by
  rw [Explicit.Program.types, List.cons_append, List.forall_mem_cons, List.forall_mem_append,
    List.forall_mem_flatMap, List.forall_mem_flatMap] at wide
  obtain ⟨description, structs, functions⟩ := wide
  rw [measureWithin]
  refine (eachDefinition_ends (s := {}) (fun d member => (walks_ends _).struct description
    (List.forall_mem_map.mp (structs d member))) rfl).bind fun r idle => ?_
  obtain ⟨ss, s₁⟩ := r
  refine (eachDefinition_ends (fun f member => ?_) idle).bind fun _ _ => trivial
  have all := List.forall_mem_append.mp (functions f member)
  exact (walks_ends _).function (List.forall_mem_map.mp all.1) all.2

end Trees

section Formed

variable {c : Context} {arity : Arity}

theorem forall_typesAll {P : Ty → Prop} {es : List Explicit.Expr} (each : ∀ e ∈ es, ∀ t ∈ e.types, P t) :
    ∀ t ∈ Explicit.Expr.typesAll es, P t := by
  induction es with
  | nil => exact List.forall_mem_nil _
  | cons e rest ih =>
    rw [List.forall_mem_cons] at each
    rw [Explicit.Expr.typesAll]
    exact List.forall_mem_append.mpr ⟨each.1, ih each.2⟩

theorem forall_fieldTypes {P : Ty → Prop} {fs : List Explicit.PackField}
    (each : ∀ f ∈ fs, ∀ t ∈ f.value.types, P t) : ∀ t ∈ Explicit.Expr.fieldTypes fs, P t := by
  induction fs with
  | nil => exact List.forall_mem_nil _
  | cons f rest ih =>
    cases f
    rw [List.forall_mem_cons] at each
    rw [Explicit.Expr.fieldTypes]
    exact List.forall_mem_append.mpr ⟨each.1, ih each.2⟩

/-- All types that are laid out for an expression are made of type parameters at hand. -/
theorem formed_types (wide : c.Extends arity) {e : Explicit.Expr} {generics : List Tag} {vars : Typed.Env}
    (inside : e.Scoped arity c.structs generics vars) : ∀ t ∈ e.types, ∃ own, t.Formed c.arity own [] := by
  have more : ∀ {own : List Tag} {t : Ty}, t.Formed arity own [] → t.Formed c.arity own [] := fun formed =>
    formed.mono wide.more (fun _ => id) fun _ => id
  have own : ∀ {e : Explicit.Expr} {generics : List Tag} {vars : Typed.Env},
      e.Scoped arity c.structs generics vars → ∃ own, e.type.Formed c.arity own [] := fun inside =>
    ⟨_, more (inside.type_formed wide.numbers wide.truths)⟩
  induction e generalizing generics vars with
  | var | number | bool =>
    rw [Explicit.Expr.types]
    exact List.forall_mem_singleton.mpr (own inside)
  | callDirect span type function args ws ih =>
    rw [Explicit.Expr.types]
    refine List.forall_mem_cons.mpr ⟨own inside, ?_⟩
    exact forall_typesAll fun a member => ih a member (Explicit.scopedAll_iff.mp inside.2.1 a member)
  | callClosure span type callee args ih ihArgs =>
    rw [Explicit.Expr.types]
    refine List.forall_mem_cons.mpr ⟨own inside, List.forall_mem_append.mpr ⟨ih inside.2.1, ?_⟩⟩
    exact forall_typesAll fun a member => ihArgs a member (Explicit.scopedAll_iff.mp inside.2.2 a member)
  | primitive span op left right ihL ihR =>
    rw [Explicit.Expr.types]
    exact List.forall_mem_cons.mpr ⟨own inside, List.forall_mem_append.mpr ⟨ihL inside.1, ihR inside.2⟩⟩
  | block span bs result ih ihResult =>
    rw [Explicit.Expr.types]
    refine List.forall_mem_cons.mpr ⟨own inside, List.forall_mem_append.mpr ⟨?_, ihResult inside.2⟩⟩
    have bound := inside.1
    clear inside ihResult
    induction bs generalizing vars with
    | nil => exact List.forall_mem_nil _
    | cons b rest ihLets =>
      obtain ⟨name, type, value⟩ := b
      rw [List.forall_mem_cons] at ih
      rw [Explicit.Expr.letTypes]
      exact List.forall_mem_append.mpr ⟨ih.1 bound.2.1, List.forall_mem_cons.mpr
        ⟨⟨_, more bound.1⟩, ihLets ih.2 bound.2.2⟩⟩
  | pack span name args fields ih =>
    rw [Explicit.Expr.types]
    refine List.forall_mem_cons.mpr ⟨own inside, ?_⟩
    exact forall_fieldTypes fun f member => ih f member (Explicit.fieldsScoped_iff.mp inside.2 f member)
  | unpack span type value field ih =>
    rw [Explicit.Expr.types]
    exact List.forall_mem_cons.mpr ⟨own inside, ih inside.2⟩
  | cond span test yes no ihT ihY ihN =>
    rw [Explicit.Expr.types]
    exact List.forall_mem_cons.mpr ⟨own inside, List.forall_mem_append.mpr ⟨List.forall_mem_append.mpr
      ⟨ihT inside.1, ihY inside.2.1⟩, ihN inside.2.2⟩⟩
  | closure span params gs captures env body ih =>
    rw [Explicit.Expr.types]
    refine List.forall_mem_cons.mpr ⟨own inside, ?_⟩
    obtain ⟨-, -, -, ⟨span', known⟩, formed, within⟩ := inside
    refine List.forall_mem_append.mpr ⟨List.forall_mem_map.mpr fun p member => ⟨_, more (formed p member)⟩,
      List.forall_mem_cons.mpr ⟨⟨Explicit.tagsOf gs, ?_⟩, ih within⟩⟩
    refine Ty.formed_named.mpr ⟨?_, List.forall_mem_map.mpr fun g member => ?_⟩
    · rw [List.length_map]
      exact wide.structs _ known
    · exact Ty.formed_generic.mpr (List.mem_map_of_mem member)

end Formed

section Programs

variable {arity : Arity} {declared environments : List Explicit.Struct} {p : Explicit.Program}

/-- What a type of the program holds are types of the program, and no closure environments. -/
theorem parts_of_formed (inside : p.Scoped arity declared environments) {own : List Tag} {t : Ty}
    (formed : t.Formed arity own []) :
    parts p.structs t = parts declared t ∧ ∀ u ∈ parts declared t, u.Formed arity own [] := by
  cases t with
  | named name args =>
    obtain ⟨known, given⟩ := Ty.formed_named.mp formed
    rw [parts, parts]
    split
    · exact ⟨rfl, List.forall_mem_nil _⟩
    rename_i basic
    rcases inside.names name.tag _ known with ⟨wrong, -⟩ | ⟨d, member, same⟩
    · exact absurd (Or.inl wrong) basic
    have once : (declared.map (·.name.tag)).Nodup := by
      have tags := inside.tags
      rw [inside.structs, List.map_append] at tags
      exact tags.of_append_left
    have whole := findLast?_of_nodup inside.tags (inside.structs ▸ List.mem_append_left _ member : d ∈ p.structs)
    have found := findLast?_of_nodup once member
    rw [same] at whole found
    rw [whole, found]
    refine ⟨rfl, fun u field => ?_⟩
    have struct := inside.own d member
    obtain ⟨f, member, rfl⟩ := List.mem_map.mp field
    refine (struct.formed f member).instantiate ?_ given
    rw [← same, struct.arity, Option.some.injEq] at known
    rw [← known, Explicit.tagsOf, List.length_map]
  | generic name => exact ⟨rfl, List.forall_mem_nil _⟩
  | func args result => exact ⟨rfl, List.forall_mem_nil _⟩
  | cell cell => exact ⟨rfl, List.forall_mem_nil _⟩

/-- From a type of the program, only such types are met. -/
theorem formed_of_reaches (inside : p.Scoped arity declared environments) {own : List Tag} {t u : Ty}
    (formed : t.Formed arity own []) (reaches : ReflTransGen (HasPart p.structs) t u) :
    ReflTransGen (HasPart declared) t u ∧ u.Formed arity own [] := by
  induction reaches with
  | refl => exact ⟨.refl, formed⟩
  | tail _ part ih =>
    obtain ⟨before, formed⟩ := ih
    obtain ⟨same, parts⟩ := parts_of_formed inside formed
    rw [HasPart, same] at part
    exact ⟨before.tail part, parts _ part⟩

/-- Closure environments are uniform, since nothing holds one by its type. -/
theorem uniform_of_declared (inside : p.Scoped arity declared environments) (uniform : Uniform declared) :
    Uniform p.structs := by
  intro d member name args same reaches
  rw [inside.structs] at member
  rcases List.mem_append.mp member with own | made
  · have formed : (ownType d).Formed arity (Explicit.tagsOf d.generics) [] := by
      refine Ty.formed_named.mpr ⟨by rw [List.length_map, (inside.own d own).arity], ?_⟩
      exact List.forall_mem_map.mpr fun g generic => Ty.formed_generic.mpr (List.mem_map_of_mem generic)
    rw [Relation.TransGen.head'_iff] at reaches
    obtain ⟨u, first, later⟩ := reaches
    obtain ⟨parts, each⟩ := parts_of_formed inside formed
    rw [HasPart, parts] at first
    exact uniform d own name args same (.head' first (formed_of_reaches inside (each u first) later).1)
  · obtain ⟨⟨gs, cs, shape, enclosed, -⟩, unknown⟩ := inside.made d made
    rw [Relation.TransGen.head'_iff] at reaches
    obtain ⟨u, first, later⟩ := reaches
    have found := findLast?_of_nodup inside.tags (inside.structs ▸ List.mem_append_right _ made : d ∈ p.structs)
    have proper := inside.proper d (inside.structs ▸ List.mem_append_right _ made)
    have basic : ¬ ((d.name.tag = .float ∨ d.name.tag = .bool) ∨ d.name.tag = .witness) := by
      rintro ((wrong | wrong) | wrong) <;> rw [wrong] at proper <;> cases proper
    rw [HasPart, ownType, parts, if_neg basic, found] at first
    obtain ⟨f, field, rfl⟩ := List.mem_map.mp first
    rw [shape] at field
    rcases List.mem_append.mp field with description | capture
    · -- A description holds nothing.
      obtain ⟨g, -, rfl⟩ := List.mem_map.mp description
      rcases later.cases_head with here | ⟨v, part, -⟩
      · rw [Ty.witness, Ty.substitute_named, Ty.named.injEq] at here
        rw [← same, ← here.1] at proper
        cases proper
      · rw [HasPart, Ty.witness, Ty.substitute_named, parts, if_pos (Or.inr rfl)] at part
        cases part
    · obtain ⟨a, captured, rfl⟩ := List.mem_map.mp capture
      have length : (d.generics.map Ty.generic).length = (Explicit.tagsOf gs).length := by
        rw [List.length_map, shape, Explicit.tagsOf, List.length_map]
        rfl
      have formed : (a.type.substitute ((d.generics.map (·.tag)).zip (d.generics.map Ty.generic))).Formed arity
          (Explicit.tagsOf gs) [] := by
        rw [show d.generics = gs by rw [shape]; rfl] at length ⊢
        refine (enclosed.formed a captured).instantiate length (List.forall_mem_map.mpr fun g generic => ?_)
        exact Ty.formed_generic.mpr (List.mem_map_of_mem generic)
      have known := (Ty.formed_named.mp (formed_of_reaches inside formed later).2).1
      rw [same, unknown] at known
      cases known

/-- The types that are laid out for a program are applied to as many arguments as they take. -/
theorem exists_formed (inside : p.Scoped arity declared environments) (target : Target) (depth : Nat) :
    ∀ t ∈ p.types, ∃ own, t.Formed (Context.mk target p.structs depth).arity own [] := by
  have wide := extends_of_scoped target depth inside
  have description : Ty.witness.Formed (Context.mk target p.structs depth).arity [] [] :=
    Ty.formed_named.mpr ⟨by simp [Context.arity], List.forall_mem_nil _⟩
  rw [Explicit.Program.types, List.cons_append, List.forall_mem_cons, List.forall_mem_append,
    List.forall_mem_flatMap, List.forall_mem_flatMap]
  refine ⟨⟨[], description⟩, fun d member => List.forall_mem_map.mpr fun f field =>
    ⟨_, wide.formed d member f field⟩, fun f member => ?_⟩
  obtain ⟨result, params, gs, own⟩ := inside.functions f member
  rw [own.arguments]
  refine List.forall_mem_append.mpr ⟨List.forall_mem_map.mpr fun a argument => ?_, formed_types wide own.body⟩
  rcases List.mem_append.mp argument with value | witness
  · exact ⟨_, (own.formed a value).mono wide.more (fun _ => id) fun _ => id⟩
  · obtain ⟨g, -, rfl⟩ := List.mem_map.mp witness
    exact ⟨[], description⟩

/-- A bound that is wide enough for all types of a program. -/
theorem exists_depth_of_uniform (inside : p.Scoped arity declared environments) (uniform : Uniform declared)
    (target : Target) : ∃ bound, ∀ depth ≥ bound, ∀ t ∈ p.types, (Context.mk target p.structs depth).Reaches t := by
  have wide := extends_of_scoped target 0 inside
  have uniform := uniform_of_declared inside uniform
  have once : ∀ d ∈ p.structs, (Explicit.tagsOf d.generics).Nodup := by
    intro d member
    rw [inside.structs] at member
    rcases List.mem_append.mp member with own | made
    · exact (inside.own d own).once
    · obtain ⟨⟨gs, cs, shape, enclosed, -⟩, -⟩ := inside.made d made
      rw [show d.generics = gs by rw [shape]; rfl]
      exact enclosed.once
  have formed := exists_formed inside target 0
  have bounded : ∀ t ∈ p.types, Bounded p.structs (p.structs.map (·.name.tag)) t := fun t member =>
    (formed t member).elim fun _ formed =>
      bounded_of_uniform (c := Context.mk target p.structs 0) uniform wide.formed once formed
  obtain ⟨met, all⟩ := exists_met bounded
  refine ⟨met.length + 1, fun depth deep t member => ⟨met.map Ty.key, ?_, fun u reaches => ?_⟩⟩
  · rw [List.length_map]
    exact deep
  refine List.mem_map_of_mem (all t member u (ReflTransGen.mono (fun whole part held => ⟨?_, held⟩) _ _ reaches))
  cases whole with
  | named name args =>
    refine ⟨name, args, rfl, ?_⟩
    rw [HasPart, parts] at held
    split at held
    · cases held
    split at held
    · rename_i d found
      exact List.mem_map.mpr ⟨d, mem_of_findLast? found, by simpa using List.find?_some found⟩
    · cases held
  | _ => cases held

/-- Where every bound that is large enough is wide enough, what comes out is what comes out within one of them or
within a smaller one that is wide enough already. The induction is on how often the bound has to be doubled. -/
theorem exists_measure_eq {target : Target} {bound : Nat}
    (wide : ∀ depth ≥ bound, measureWithin depth p target ≠ .error .endless) :
    ∃ depth, measure p target = measureWithin depth p target ∧ measureWithin depth p target ≠ .error .endless := by
  have steps : ∀ k depth, 0 < depth → bound ≤ depth * 2 ^ k → ∃ ended, repeatM (tryWithin p target) depth = some ended ∧
      ended.result ≠ .error .endless := by
    intro k
    induction k with
    | zero =>
      intro depth _ deep
      have ends := wide depth (by simpa using deep)
      rw [repeatM_eq_of_monadTail, repeatM.body, tryWithin_of_ended rfl ends]
      exact ⟨_, rfl, ends⟩
    | succ k ih =>
      intro depth positive deep
      by_cases narrow : measureWithin depth p target = .error .endless
      · obtain ⟨ended, same, ends⟩ := ih (2 * depth) (by omega) (by rw [Nat.pow_succ] at deep; linarith)
        refine ⟨ended, ?_, ends⟩
        rw [repeatM_eq_of_monadTail, repeatM.body]
        have again : tryWithin p target depth = some (.inl (2 * depth)) := by
          rw [tryWithin]
          split
          · rfl
          · rename_i wide
            exact absurd narrow wide
        rw [again]
        exact same
      · rw [repeatM_eq_of_monadTail, repeatM.body, tryWithin_of_ended rfl narrow]
        exact ⟨_, rfl, narrow⟩
  obtain ⟨ended, same, ends⟩ := steps bound usualDepth (by decide)
    (Nat.le_trans (Nat.le_of_lt Nat.lt_two_pow_self) (Nat.le_mul_of_pos_left _ (by decide)))
  obtain ⟨depth, within⟩ := ended.within
  refine ⟨depth, ?_, within ▸ ends⟩
  rw [measure, same]
  exact within.symm

/-- Where no struct is polymorphically recursive, measuring comes to an end. -/
theorem measure_ends (inside : p.Scoped arity declared environments) (uniform : Uniform declared)
    (target : Target) : Gives Failure.Ends (measure p target) fun _ => True := by
  obtain ⟨bound, wide⟩ := exists_depth_of_uniform inside uniform target
  obtain ⟨depth, same, ends⟩ := exists_measure_eq fun depth deep (wrong : measureWithin depth p target = .error .endless) => by
    have ends := measureWithin_ends (wide depth deep)
    rw [wrong] at ends
    exact ends
  rw [same]
  cases ended : measureWithin depth p target with
  | ok q => trivial
  | error e =>
    cases e with
    | endless => exact absurd ended ends
    | _ => trivial

end Programs

end WitnessLang.Sized
