import WitnessLang.Proofs.Ir.Builder
import WitnessLang.Proofs.Ir.Layouts
import WitnessLang.Proofs.Layout.Disjoint
import WitnessLang.Proofs.Sized.Accepted
import WitnessLang.Proofs.Sized.Finite

set_option autoImplicit false

/-! Two ways to the size of an applied struct. Measuring fills in type parameters and adds up what
the fields take; the layout of the struct itself leaves a term for each parameter, which is
evaluated once their sizes are known. Both come to the same as long as no size goes beyond 32
bits, since all sizes are multiples of the alignment. -/
namespace WitnessLang.Ir

open Sized (Space Takes Finite Context State Idle Lays Accepted fieldTypes parts takes_struct
  parts_struct space?_parts alike_substitute_own substitute_generics extends_of_scoped
  builder?_of_scoped struct_meets Lays lays_of_takes)
open Explicit (tagsOf)

/-- A slot for values that take some room, where type parameters have names. -/
structure Holds (generics : List Ident) (slot : Slot) (x : Space) : Prop where
  static : slot.static = Int64.ofInt x.bytes
  dynamic : List.Forall₂ (fun n t => ∃ g ∈ generics, g.tag = t ∧ n = g.mangled) slot.dynamic x.parts

section Sums

variable {target : Target} {generics : List Ident} {slots : List Slot} {xs : List Space}

/-- What a type takes on a machine can be placed if it fits 32 bits. -/
theorem fits_of_takes (machine : target = .wide ∨ target = .narrow) {structs : List Explicit.Struct}
    {t : Ty} {x : Space} (takes : Takes target structs t x) (small : x.bytes < 2 ^ 32) :
    Fits target.pointerAlign x.bytes := by
  have pointers : 0 ≤ target.pointerSize.toInt := by rcases machine with rfl | rfl <;> decide
  have number : target.pointerAlign.toInt ∣ 8 := by rcases machine with rfl | rfl <;> decide
  have whole : target.pointerAlign.toInt ∣ target.pointerSize.toInt := by
    rcases machine with rfl | rfl <;> decide
  exact ⟨takes.nonneg pointers, small, takes.aligned number whole⟩

/-- A struct is as large as its fields together. -/
theorem exists_frame {name : String} (machine : target = .wide ∨ target = .narrow)
    (once : (slots.map (·.name)).Nodup)
    (statics : slots.map (·.static) = xs.map fun x => Int64.ofInt x.bytes)
    (fits : ∀ x ∈ xs, Fits target.pointerAlign x.bytes) (small : (xs.map (·.bytes)).sum < 2 ^ 32) :
    ∃ frame, Frame.compute name slots target = .ok frame ∧ frame.size =
      ⟨Int64.ofInt (xs.map (·.bytes)).sum, slots.flatMap (·.dynamic), target.pointerAlign⟩ := by
  have positive : 0 < target.pointerAlign := by rcases machine with rfl | rfl <;> decide
  have total : Frame.total slots = (xs.map (·.bytes)).sum := by
    have words : slots.map (·.static.toInt) = (slots.map (·.static)).map Int64.toInt := by
      rw [List.map_map]
      rfl
    rw [Frame.total, words, statics, List.map_map]
    exact congrArg List.sum (List.map_congr_left fun x member => toInt_ofInt_of_fits (fits x member))
  have each : ∀ s ∈ slots, 0 ≤ s.static.toInt ∧ target.pointerAlign.toInt ∣ s.static.toInt := by
    intro s member
    obtain ⟨x, inside, same⟩ := List.mem_map.mp (statics ▸ List.mem_map_of_mem member)
    have here := fits x inside
    rw [← same, toInt_ofInt_of_fits here]
    exact ⟨here.nonneg, here.aligned⟩
  rw [← total] at small ⊢
  exact Frame.compute_of_fits positive once each small

theorem dynamic_of_holds (holds : List.Forall₂ (Holds generics) slots xs) :
    List.Forall₂ (fun n t => ∃ g ∈ generics, g.tag = t ∧ n = g.mangled)
      (slots.flatMap (·.dynamic)) (xs.flatMap (·.parts)) := by
  induction holds with
  | nil => exact .nil
  | cons first _ ih =>
    rw [List.flatMap_cons, List.flatMap_cons]
    exact List.rel_append first.dynamic ih

end Sums

section Struct

variable {c : Context} {s : Explicit.Struct} {args : List Ty}

theorem not_basic {tag : Tag} (proper : tag.isBuiltin = false) :
    ¬ (tag = .float ∨ tag = .bool) ∧ tag ≠ .witness := by
  refine ⟨?_, ?_⟩
  · rintro (same | same) <;> rw [same] at proper <;> cases proper
  · intro same
    rw [same] at proper
    cases proper

/-- A struct applied to its own type parameters takes what its fields take. -/
theorem takes_own (whole : c.Formed) (known : c.struct? s.name.tag = some s)
    (proper : s.name.tag.isBuiltin = false) {xs : List Space}
    (fields : List.Forall₂ (fun f x => Takes c.target c.structs f.type x) s.fields xs) :
    Takes c.target c.structs (.named s.name (s.generics.map Ty.generic)) (xs.foldl Space.add {}) := by
  have member := mem_of_findLast? known
  refine takes_struct (not_basic proper).1 (not_basic proper).2 known ?_
  rw [fieldTypes, List.forall₂_map_left_iff]
  exact forall₂_of_mem fields fun f field x takes =>
    takes.alike (alike_substitute_own (whole s member f field)).symm

theorem exists_field_takes (whole : c.Formed) (known : c.struct? s.name.tag = some s)
    (proper : s.name.tag.isBuiltin = false) {x : Space}
    (takes : Takes c.target c.structs (.named s.name (s.generics.map Ty.generic)) x) :
    ∀ f ∈ s.fields, ∃ y, Takes c.target c.structs f.type y := by
  intro f field
  have member := mem_of_findLast? known
  obtain ⟨_ | n, found⟩ := takes
  · cases found
  have part : f.type.substitute ((tagsOf s.generics).zip (s.generics.map Ty.generic)) ∈
      parts c.structs (.named s.name (s.generics.map Ty.generic)) := by
    rw [parts_struct (not_basic proper).1 (not_basic proper).2 known]
    exact List.mem_map_of_mem field
  obtain ⟨y, found⟩ := space?_parts found _ part
  exact ⟨y, Takes.alike ⟨n, found⟩ (alike_substitute_own (whole s member f field))⟩

/-- The values of an applied struct take what the struct takes, and what its arguments take for
each time that it holds their values. -/
theorem exists_takes_instance (whole : c.Formed) (once : (tagsOf s.generics).Nodup)
    (length : args.length = s.generics.length) {x : Space} {ys : List Space}
    (takes : Takes c.target c.structs (.named s.name (s.generics.map Ty.generic)) x)
    (formed : (Ty.named s.name (s.generics.map Ty.generic)).Formed c.arity (tagsOf s.generics) [])
    (given : List.Forall₂ (Takes c.target c.structs) args ys)
    (closed : ∀ t ∈ args, t.Formed c.arity [] []) :
    ∃ room : Tag → Int, List.Forall₂ (fun g y => room g.tag = y.bytes) s.generics ys ∧
      ∃ z, Takes c.target c.structs (.named s.name args) z ∧
        z.bytes = x.bytes + (x.parts.map room).sum ∧ z.parts = [] := by
  have names : args.length = (tagsOf s.generics).length := by rw [tagsOf, List.length_map, length]
  have sizes : ys.length = s.generics.length := given.length_eq.symm.trans length
  obtain ⟨room, rooms⟩ : ∃ room : Tag → Int,
      ∀ tag y, ((tagsOf s.generics).zip ys).lookup tag = some y → room tag = y.bytes :=
    ⟨fun tag => (((tagsOf s.generics).zip ys).lookup tag).elim 0 Space.bytes, fun tag y found => by simp [found]⟩
  refine ⟨room, List.forall₂_iff_zip.mpr ⟨sizes.symm, fun {g y} member => rooms _ y ?_⟩, ?_⟩
  · refine lookup_of_nodup ?_ ?_
    · rwa [List.map_fst_zip (by simp [tagsOf, sizes])]
    · rw [tagsOf, List.zip_map_left]
      exact List.mem_map_of_mem member
  · have filled := takes.substitute ((tagsOf s.generics).zip args) room whole formed
      fun g part => by
        obtain ⟨u, arg, found⟩ := Ty.exists_lookup_zip names (takes.parts_subset whole formed part)
        obtain ⟨y, found', own⟩ := exists_lookup_zip_of_forall₂ given found
        have nothing : y.parts = [] :=
          List.eq_nil_of_subset_nil (own.parts_subset whole (closed u arg))
        refine ⟨u, y.plain, found, ?_⟩
        rw [rooms g y found', ← nothing]
        exact own
    rwa [Ty.substitute_named, substitute_generics once length] at filled

/-- The slots of a lowered struct stand for what its fields take. -/
theorem slots_hold {N : Naming} {closures : Nat} {generics : List Ident}
    {s : Sized.Struct} {r : Struct} (lowered : StructLowered N closures s r) {xs : List Space}
    (all : List.Forall₂ (fun f x => f.shape.layout.Tells x) s.fields xs)
    (names : s.arguments.map (·.name) = generics) : List.Forall₂ (Holds generics) r.slots xs := by
  rw [Struct.slots]
  have fields := lowered.fields
  generalize r.fields = fs' at fields ⊢
  generalize s.fields = fs at fields all
  induction fields generalizing xs with
  | nil =>
    cases all
    exact .nil
  | @cons f f' _ _ first _ ih =>
    cases all with
    | cons tells all =>
      obtain ⟨-, static, dynamic⟩ := first
      refine .cons ⟨static.trans tells.static, ?_⟩ (ih all)
      rw [← tells.parts]
      change List.Forall₂ _ (f'.size.dynamic.map (nameOf r.vars)) _
      rw [List.forall₂_map_left_iff, List.forall₂_map_right_iff]
      refine (dynamic.imp fun y v ⟨a, argument, tag, name⟩ => ?_).flip
      exact ⟨a.name, names ▸ List.mem_map_of_mem argument, tag, name⟩

/-- The layout of a struct, for its own type parameters, comes to what the struct takes, once each
type parameter stands for some room. -/
theorem layout_eval {s' : Sized.Struct} (wide : c.Formed)
    (machine : c.target = .wide ∨ c.target = .narrow) (known : c.struct? s.name.tag = some s)
    (proper : s.name.tag.isBuiltin = false) (once : (tagsOf s.generics).Nodup)
    (fieldNames : (s.fields.map (·.name)).Nodup) (measured : s'.Measured c s)
    (named : s'.arguments.map (·.name) = s.generics) {x : Space} {room : Tag → Int}
    (takes : Takes c.target c.structs (.named s.name (s.generics.map Ty.generic)) x)
    (small : x.bytes < 2 ^ 32) (fits : ∀ t ∈ x.parts, Fits c.target.pointerAlign (room t))
    {w : Lowering} (target : w.layouts.target = c.target) :
    Meets (fun _ => False) (lowerStruct s') w fun r _ =>
      ∃ frame, Frame.compute r.name r.slots c.target = .ok frame ∧ ∀ size : String → Int64,
        (∀ g ∈ s.generics, size g.mangled = Int64.ofInt (room g.tag)) →
          frame.size.eval size = Int64.ofInt (x.bytes + (x.parts.map room).sum) := by
  obtain ⟨xs, exact⟩ := exists_forall₂ measured.inside.exact
  have types : s'.fields.map (·.shape.type) = s.fields.map (·.type) := by
    have same := congrArg (List.map Prod.snd) measured.fields
    rwa [List.map_map, List.map_map] at same
  have slotNames : (s'.fields.map (·.name)).Nodup := by
    have same := congrArg (List.map Prod.fst) measured.fields
    rw [List.map_map, List.map_map] at same
    exact same ▸ fieldNames
  have fields : List.Forall₂ (fun f x => Takes c.target c.structs f.type x) s.fields xs := by
    rw [← List.forall₂_map_left_iff (f := fun f : Explicit.Field => f.type), ← types,
      List.forall₂_map_left_iff]
    exact exact.imp fun _ _ known => known.1
  obtain rfl := takes.unique (takes_own wide known proper fields)
  have bytes : (xs.foldl Space.add {}).bytes = (xs.map (·.bytes)).sum := by
    rw [Sized.bytes_foldl, zero_add]
  have parts : (xs.foldl Space.add {}).parts = xs.flatMap (·.parts) := by
    rw [Sized.parts_foldl, List.nil_append]
  rw [bytes] at small
  rw [parts] at fits
  rw [bytes, parts]
  have pointers : 0 ≤ c.target.pointerSize.toInt := by
    rcases machine with same | same <;> rw [same] <;> decide
  have nonneg : ∀ n ∈ xs.map (·.bytes), 0 ≤ n := by
    intro n inside
    obtain ⟨y, member, rfl⟩ := List.mem_map.mp inside
    obtain ⟨f, -, takes⟩ := exists_of_forall₂ fields y member
    exact takes.nonneg pointers
  have each : ∀ y ∈ xs, Fits c.target.pointerAlign y.bytes := by
    intro y member
    obtain ⟨f, -, takes⟩ := exists_of_forall₂ fields y member
    have part := List.single_le_sum nonneg _ (List.mem_map_of_mem member)
    exact fits_of_takes machine takes (Int.lt_of_le_of_lt part small)
  have words : s'.fields.map (·.shape.layout.size.static) = xs.map fun x => Int64.ofInt x.bytes :=
    (map_eq_of_forall₂ exact fun f y known => known.2.static.symm).symm
  refine (lowerStruct_meets (N := ⟨fun _ => True, fun _ => True⟩) measured.inside ?_
    (fun _ _ _ _ => trivial) ?_).imp fun r w' ⟨lowered, _, _⟩ => ?_
  · rw [measured.arguments]
    exact once
  · intro slots e same failed
    have statics : slots.map (·.static) = xs.map fun x => Int64.ofInt x.bytes := by
      have second := congrArg (List.map Prod.snd) same
      rw [List.map_map, List.map_map] at second
      exact second.trans words
    have slotNames : (slots.map (·.name)).Nodup := by
      have first := congrArg (List.map Prod.fst) same
      rw [List.map_map, List.map_map] at first
      exact first ▸ slotNames
    obtain ⟨frame, done, -⟩ := exists_frame machine slotNames statics each small
    rw [target, done] at failed
    cases failed
  · have holds := slots_hold lowered (exact.imp fun _ _ known => known.2) named
    have statics : r.slots.map (·.static) = xs.map fun x => Int64.ofInt x.bytes :=
      (map_eq_of_forall₂ holds fun slot x own => own.static.symm).symm
    have slotNames : (r.slots.map (·.name)).Nodup := by
      rw [Struct.slots, List.map_map]
      exact (map_eq_of_forall₂ lowered.fields fun f f' own => own.1) ▸ slotNames
    obtain ⟨frame, done, size⟩ := exists_frame machine slotNames statics each small
    refine ⟨frame, done, fun sizes given => Offset.eval_of_fits ?_ (by rw [size])⟩
    rw [size, List.forall₂_map_right_iff]
    refine (forall₂_of_mem (dynamic_of_holds holds).flip fun t part n own => ?_).flip
    obtain ⟨g, generic, rfl, rfl⟩ := own
    exact ⟨given g generic, fits _ part⟩

end Struct

/-- The two ways to the size of an applied struct, from a state of measuring: the size of the
applied struct, those of the types it is applied to, and the layout of the struct itself. -/
structure SizesAgree (p : Explicit.Program) (c : Context) (st : State) (s : Explicit.Struct)
    (args : List Ty) (whole : Int64) (sizes : List Int64) : Prop where
  applied : MeetsIn (fun _ => False) (Sized.layoutOf (.named s.name args)) c st
    fun l _ => l.size = ⟨whole, []⟩
  parts : List.Forall₂ (fun t n => MeetsIn (fun _ => False) (Sized.layoutOf t) c st
    fun l _ => l.size.static = n) args sizes
  layout : (∀ g ∈ s.generics, st.vars.lookup g.tag = none) →
    MeetsIn (fun _ => False) (Sized.struct s (p.builder? s.name.tag)) c st fun s' _ =>
      ∀ w : Lowering, w.layouts.target = c.target →
        Meets (fun _ => False) (lowerStruct s') w fun r _ =>
          ∃ frame, Frame.compute r.name r.slots c.target = .ok frame ∧ ∀ size : String → Int64,
            List.Forall₂ (fun g n => size g.mangled = n) s.generics sizes →
              frame.size.eval size = whole

/-- The size of an applied struct, as it is measured, is the size that its own layout gives once
the sizes of the types it is applied to are known. -/
theorem sizes_agree {file : Surface.File} {names : List String} {unit : Nat}
    {typed : Typed.Program} {target : Target} (accepted : Accepted file names unit typed)
    (machine : target = .wide ∨ target = .narrow) {s : Explicit.Struct}
    (declared : s ∈ typed.structs.map Explicit.structOf) (args : List Ty)
    (length : args.length = s.generics.length)
    (closed : ∀ t ∈ args, t.Formed typed.globals.arity [] [])
    (finite : ∀ t ∈ Ty.named s.name (s.generics.map Ty.generic) :: args,
      Finite (Explicit.pass typed).structs t)
    (small : ∀ x, Takes target (Explicit.pass typed).structs (.named s.name args) x →
      x.bytes < 2 ^ 32) :
    ∃ whole sizes bound, ∀ depth ≥ bound, ∀ generics st,
      tagsOf s.generics ⊆ generics → Idle ⟨target, (Explicit.pass typed).structs, depth⟩ generics st →
        SizesAgree (Explicit.pass typed) ⟨target, (Explicit.pass typed).structs, depth⟩ st s args
          whole sizes := by
  obtain ⟨environments, inside⟩ := accepted.explicit
  have wide := fun depth => extends_of_scoped target depth inside
  have whole := fun depth => (wide depth).formed
  have member : s ∈ (Explicit.pass typed).structs := inside.structs ▸ List.mem_append_left _ declared
  have own := inside.own s declared
  have proper := inside.proper s member
  have known := findLast?_of_nodup inside.tags member
  -- What everything takes, in exact numbers.
  have formedArgs : ∀ t ∈ args,
      t.Formed (Context.mk target (Explicit.pass typed).structs 0).arity [] [] := fun t arg =>
    (closed t arg).mono (wide 0).more (fun _ known => known) fun _ known => known
  have formedOwn : (Ty.named s.name (s.generics.map Ty.generic)).Formed
      (Context.mk target (Explicit.pass typed).structs 0).arity (tagsOf s.generics) [] := by
    rw [Ty.formed_named, List.length_map]
    refine ⟨(wide 0).more _ _ own.arity, fun t inside => ?_⟩
    obtain ⟨g, generic, rfl⟩ := List.mem_map.mp inside
    exact List.mem_map_of_mem generic
  obtain ⟨ys, given⟩ := exists_forall₂ fun t arg =>
    (finite t (List.mem_cons_of_mem _ arg)).takes (whole 0) (formedArgs t arg)
  obtain ⟨x, takes⟩ := (finite _ List.mem_cons_self).takes (whole 0) formedOwn
  have fields := exists_field_takes (whole 0) known proper takes
  obtain ⟨room, rooms, z, takesZ, bytes, alone⟩ :=
    exists_takes_instance (whole 0) own.once length takes formedOwn given formedArgs
  have smallZ := small z takesZ
  have pointers : 0 ≤ target.pointerSize.toInt := by rcases machine with rfl | rfl <;> decide
  have argument : ∀ t ∈ x.parts, ∃ u, ∃ y ∈ ys, Takes target (Explicit.pass typed).structs u y ∧
      room t = y.bytes := by
    intro t part
    obtain ⟨g, generic, rfl⟩ := List.mem_map.mp (takes.parts_subset (whole 0) formedOwn part)
    obtain ⟨y, inside, same⟩ := exists_of_forall₂ rooms.flip g generic
    obtain ⟨u, -, own⟩ := exists_of_forall₂ given y inside
    exact ⟨u, y, inside, own, same⟩
  have nonneg : ∀ n ∈ x.parts.map room, 0 ≤ n := by
    intro n inside
    obtain ⟨t, part, rfl⟩ := List.mem_map.mp inside
    obtain ⟨u, y, -, takes, same⟩ := argument t part
    exact same ▸ takes.nonneg pointers
  have extra := List.sum_nonneg nonneg
  have start := takes.nonneg pointers
  have fits : ∀ t ∈ x.parts, Fits target.pointerAlign (room t) := by
    intro t part
    obtain ⟨u, y, -, takes, same⟩ := argument t part
    have within := List.single_le_sum nonneg _ (List.mem_map_of_mem part)
    rw [same] at within ⊢
    exact fits_of_takes machine takes (by omega)
  have fieldNames : (s.fields.map (·.name)).Nodup := by
    obtain ⟨d, struct, rfl⟩ := List.mem_map.mp declared
    rw [Explicit.structOf, List.map_map]
    exact accepted.wellTyped.1.globals.names d struct
  -- The search goes deep enough for all types that are laid out.
  obtain ⟨bound, lays⟩ := lays_of_takes whole (Ty.witness :: Ty.named s.name args ::
    (args ++ s.fields.map (·.type))) (by
      simp only [List.forall_mem_cons, List.forall_mem_append, List.forall_mem_map]
      refine ⟨⟨_, 1, rfl⟩, ⟨z, takesZ⟩, fun t arg => ?_, fields⟩
      obtain ⟨y, -, takes⟩ := exists_of_forall₂ given.flip t arg
      exact ⟨y, takes⟩)
  refine ⟨Int64.ofInt z.bytes, ys.map fun y => Int64.ofInt y.bytes, bound,
    fun depth deep generics st generic idle => ?_⟩
  have laid : Lays ⟨target, (Explicit.pass typed).structs, depth⟩ generics (fun _ => False) _ :=
    (lays depth generics).weaken (fun _ shallow => Nat.not_lt.mpr deep shallow.2) fun _ _ _ impossible => impossible
  have sized : ∀ t y, t ∈ Ty.named s.name args :: args →
      t.Formed (Context.mk target (Explicit.pass typed).structs depth).arity [] [] →
      Takes target (Explicit.pass typed).structs t y →
      MeetsIn (fun _ => False) (Sized.layoutOf t) ⟨target, (Explicit.pass typed).structs, depth⟩ st
        fun l _ => l.Tells y := by
    intro t y inside formed takes
    have asked : t ∈ Ty.witness :: Ty.named s.name args :: (args ++ s.fields.map (·.type)) := by
      rw [← List.cons_append]
      exact List.mem_cons_of_mem _ (List.mem_append_left _ inside)
    refine (laid.layout t [] st asked formed idle (by simp [Sized.Holds])).imp
      fun l st' post => ?_
    obtain ⟨right, _, _⟩ := post
    obtain ⟨y', takes', tells⟩ := right.exact
    exact takes.unique takes' ▸ tells
  have closedArgs : ∀ t ∈ args,
      t.Formed (Context.mk target (Explicit.pass typed).structs depth).arity [] [] := fun t arg =>
    (closed t arg).mono (wide depth).more (fun _ known => known) fun _ known => known
  refine ⟨?_, ?_, fun fresh => ?_⟩
  · refine (sized _ z List.mem_cons_self (Ty.formed_named.mpr ⟨?_, closedArgs⟩) takesZ).imp
      fun l _ tells => ?_
    · rw [length]
      exact (wide depth).more _ _ own.arity
    · have nothing : l.size.dynamic = [] := List.map_eq_nil_iff.mp (tells.parts.trans alone)
      rw [← tells.static, ← nothing]
  · rw [List.forall₂_map_right_iff]
    exact forall₂_of_mem given fun t arg y takes =>
      (sized t y (List.mem_cons_of_mem _ arg) (closedArgs t arg) takes).imp
        fun l _ tells => tells.static
  · have asked : ∀ f ∈ s.fields, f.type ∈
        Ty.witness :: Ty.named s.name args :: (args ++ s.fields.map (·.type)) := fun f field =>
      List.mem_cons_of_mem _ (List.mem_cons_of_mem _
        (List.mem_append_right _ (List.mem_map_of_mem field)))
    rw [builder?_of_scoped inside member]
    refine (struct_meets (wide depth) laid member ⟨List.mem_cons_self, asked⟩ generic idle).imp
      fun s' st' post w same => ?_
    obtain ⟨measured, _, _, named⟩ := post
    refine (layout_eval (whole depth) machine known proper own.once fieldNames measured
      (named own.once fresh) takes (by omega) fits same).imp fun r _ post => ?_
    obtain ⟨frame, done, eval⟩ := post
    refine ⟨frame, done, fun size sizes => ?_⟩
    have words : ys.map (fun y => Int64.ofInt y.bytes) =
        s.generics.map fun g => Int64.ofInt (room g.tag) :=
      map_eq_of_forall₂ rooms fun g y same => by rw [same]
    rw [words, List.forall₂_map_right_iff, List.forall₂_same] at sizes
    rw [eval size sizes, bytes]

/-- A file with a struct of two values of a type and a number. -/
def pairFile : Surface.File :=
  ⟨{}, [.struct ⟨{}, "Pair", {}, [⟨{}, "t"⟩],
    [⟨{}, "left", .named {} "t"⟩, ⟨{}, "right", .named {} "t"⟩, ⟨{}, "weight", .named {} "F64"⟩]⟩]⟩

/-- Pairs of pairs of numbers. -/
theorem pairFile_sizes : ∃ typed d, Accepted pairFile [] 1 typed ∧
    ∃ whole sizes bound, ∀ depth ≥ bound, SizesAgree (Explicit.pass typed)
      ⟨.narrow, (Explicit.pass typed).structs, depth⟩ {} (Explicit.structOf d)
        [.named d.name [Ty.float]] whole sizes := by
  obtain ⟨typed, q, r, done, passed⟩ := @Sized.exists_lowered pairFile 1 .narrow
    (fun p => p.1.structs.head?.any fun d =>
      let room t := Sized.space? .narrow (Explicit.pass p.1).structs 3 t
      d.generics.length == 1 && p.1.globals.arity d.name.tag == some 1 &&
        (room (.named d.name (d.generics.map Ty.generic))).isSome &&
        (room (.named d.name [Ty.float])).isSome &&
        (room (.named d.name [.named d.name [Ty.float]])).any (·.bytes < 2 ^ 32))
    (by decide +kernel)
  obtain ⟨accepted, -, -⟩ := Sized.lowered?_eq_some done (by decide) (by decide)
  simp only [Bool.and_eq_true, beq_iff_eq, Option.isSome_iff_exists, Option.any_eq_true,
    decide_eq_true_eq] at passed
  obtain ⟨d, first, ⟨⟨⟨one, arity⟩, x, own⟩, y, inner⟩, z, outer, small⟩ := passed
  have formed : ∀ t ∈ [Ty.float], t.Formed typed.globals.arity [] [] := by
    rw [List.forall_mem_singleton, Ty.float, Ty.formed_named]
    exact ⟨rfl, by simp⟩
  obtain ⟨whole, sizes, bound, agree⟩ := sizes_agree accepted (Or.inr rfl)
    (s := Explicit.structOf d) (List.mem_map_of_mem (List.mem_of_head? first))
    [.named d.name [Ty.float]] one.symm
    (List.forall_mem_singleton.mpr (Ty.formed_named.mpr ⟨arity, formed⟩))
    (List.forall_mem_cons.mpr ⟨Takes.finite ⟨3, own⟩,
      List.forall_mem_singleton.mpr (Takes.finite ⟨3, inner⟩)⟩)
    fun x takes => takes.unique ⟨3, outer⟩ ▸ small
  exact ⟨typed, d, accepted, whole, sizes, bound, fun depth deep =>
    agree depth deep (tagsOf d.generics) {} (fun _ member => member) (Sized.idle_empty _ _)⟩

end WitnessLang.Ir
