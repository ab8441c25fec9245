import Mathlib.Algebra.BigOperators.Ring.List
import Mathlib.Algebra.Ring.Int.Defs
import WitnessLang.Proofs.Sized.Layout

set_option autoImplicit false

namespace WitnessLang.Sized

open Explicit (tagsOf)

/-- The values of a type hold others, and these yet others, only so deep: no struct among them
holds itself by value, nor ever larger applications of itself. -/
def Finite (structs : List Explicit.Struct) (t : Ty) : Prop :=
  Acc (fun part whole => part ∈ parts structs whole) t

section Sums

variable {x : Space}

theorem bytes_foldl (xs : List Space) :
    (xs.foldl Space.add x).bytes = x.bytes + (xs.map (·.bytes)).sum := by
  induction xs generalizing x with
  | nil => simp
  | cons y rest ih => rw [List.foldl_cons, ih, List.map_cons, List.sum_cons, Space.add, Int.add_assoc]

theorem parts_foldl (xs : List Space) :
    (xs.foldl Space.add x).parts = x.parts ++ xs.flatMap (·.parts) := by
  induction xs generalizing x with
  | nil => simp
  | cons y rest ih =>
    rw [List.foldl_cons, ih, List.flatMap_cons, Space.add, List.append_assoc]

end Sums

section Substitution

variable {arity : Arity} {names : List Tag} {args : List Ty}

/-- Filling in type parameters twice is filling them in once. -/
theorem substitute_substitute {t : Ty} (formed : t.Formed arity names [])
    (length : args.length = names.length) (sub : Substitution) :
    (t.substitute (names.zip args)).substitute sub =
      t.substitute (names.zip (args.map (·.substitute sub))) := by
  rw [Ty.substitute_andThen]
  refine Ty.substitute_congr fun p inside => ?_
  obtain ⟨u, -, found⟩ := Ty.exists_lookup_zip length (formed.mem_parameters inside)
  have filled : (names.zip (args.map (·.substitute sub))).lookup p.tag = some (u.substitute sub) := by
    rw [List.zip_map_right]
    exact (Ty.lookup_map_snd _ _ _).trans (by rw [found, Option.map_some])
  rw [filled, Substitution.andThen, List.lookup_append, Ty.lookup_map_snd, found]
  rfl

/-- A struct applied to its own type parameters, where these are filled in. -/
theorem substitute_generics {generics : List Ident} (once : (tagsOf generics).Nodup)
    (length : args.length = generics.length) :
    (generics.map Ty.generic).map (·.substitute ((tagsOf generics).zip args)) = args := by
  refine List.ext_getElem (by simp [length]) fun i small _ => ?_
  simp only [List.length_map] at small
  have found : ((tagsOf generics).zip args).lookup (generics[i]).tag = some args[i] := by
    refine lookup_of_nodup ?_ ?_
    · rwa [List.map_fst_zip (by simp [tagsOf, length])]
    · exact List.mem_iff_getElem.mpr ⟨i, by simp [tagsOf, length, small], by simp [tagsOf]⟩
  simp [found]

/-- A type over some type parameters, where each of these is filled in with itself. -/
theorem alike_substitute_own {generics : List Ident} {t : Ty}
    (formed : t.Formed arity (tagsOf generics) []) :
    (t.substitute ((tagsOf generics).zip (generics.map Ty.generic))).Alike t := by
  induction t with
  | named name ts ih =>
    rw [Ty.formed_named] at formed
    rw [Ty.substitute_named, Ty.alike_named, List.map_map]
    exact ⟨rfl, List.map_congr_left fun t member => ih t member (formed.2 t member)⟩
  | generic name =>
    have length : (generics.map Ty.generic).length = (tagsOf generics).length := by simp [tagsOf]
    obtain ⟨u, -, found⟩ := Ty.exists_lookup_zip length (Ty.formed_generic.mp formed)
    have entry := mem_of_lookup found
    rw [tagsOf, List.zip_map', List.mem_map] at entry
    obtain ⟨g, -, same⟩ := entry
    obtain ⟨tag, rfl⟩ := Prod.mk.inj same
    rw [Ty.substitute_generic, found, Option.getD_some, Ty.Alike]
    simp [Ident.erase_inj, tag]
  | func ts result ih ihResult =>
    rw [Ty.formed_func] at formed
    rw [Ty.substitute_func, Ty.alike_func, List.map_map]
    exact ⟨List.map_congr_left fun t member => ih t member (formed.1 t member), ihResult formed.2⟩
  | cell c => exact absurd (Ty.formed_cell.mp formed) List.not_mem_nil

end Substitution

section Finite

variable {c : Context} {own : List Tag}

/-- The parts of a struct that is applied are those of the struct, applied. -/
theorem fieldTypes_substitute {s : Explicit.Struct} (whole : c.Formed) (member : s ∈ c.structs)
    {args : List Ty} (length : args.length = s.generics.length) (sub : Substitution) :
    fieldTypes s (args.map (·.substitute sub)) = (fieldTypes s args).map (·.substitute sub) := by
  rw [fieldTypes, fieldTypes, List.map_map]
  refine List.map_congr_left fun f field => (substitute_substitute (whole s member f field) ?_ sub).symm
  rw [tagsOf, List.length_map, length]

theorem formed_fieldTypes {s : Explicit.Struct} (whole : c.Formed) (member : s ∈ c.structs)
    {args : List Ty} (length : s.generics.length = args.length)
    (given : ∀ t ∈ args, t.Formed c.arity own []) : ∀ u ∈ fieldTypes s args, u.Formed c.arity own [] := by
  intro u inside
  obtain ⟨f, field, rfl⟩ := List.mem_map.mp inside
  exact (whole s member f field).instantiate (by simp [tagsOf, length]) given

/-- What holds itself nowhere takes room. -/
theorem Finite.takes (whole : c.Formed) {t : Ty} (finite : Finite c.structs t)
    (formed : t.Formed c.arity own []) : ∃ x, Takes c.target c.structs t x := by
  induction finite with
  | intro t _ ih =>
    cases t with
    | named name args =>
      by_cases basic : name.tag = .float ∨ name.tag = .bool
      · exact ⟨_, 1, if_pos basic⟩
      by_cases other : name.tag = .witness
      · exact ⟨_, 1, by rw [space?, if_neg basic, if_pos other]⟩
      obtain ⟨arity, given⟩ := Ty.formed_named.mp formed
      obtain ⟨s, found, member, length⟩ := c.arity_struct arity basic other
      rw [parts_struct basic other found] at ih
      have each : ∀ u ∈ fieldTypes s args, ∃ x, Takes c.target c.structs u x := fun u inside =>
        ih u inside (formed_fieldTypes whole member length given u inside)
      obtain ⟨xs, fields⟩ := exists_forall₂ each
      exact ⟨_, takes_struct basic other found fields⟩
    | generic name => exact ⟨_, 1, rfl⟩
    | func args result => exact ⟨_, 1, rfl⟩
    | cell cell => exact absurd (Ty.formed_cell.mp formed) List.not_mem_nil

theorem space?_parts {target : Target} {structs : List Explicit.Struct} {n : Nat} {t : Ty} {x : Space}
    (found : space? target structs (n + 1) t = some x) :
    ∀ u ∈ parts structs t, ∃ y, space? target structs n u = some y := by
  intro u part
  cases t with
  | named name args =>
    rw [parts] at part
    split at part
    · cases part
    rename_i struct
    rw [not_or] at struct
    rw [space?, if_neg struct.1, if_neg struct.2, Option.bind_eq_bind,
      Option.bind_eq_some_iff] at found
    obtain ⟨s, declared, found⟩ := found
    rw [declared] at part
    obtain ⟨xs, fields, -⟩ := totalSpace?_eq_some.mp found
    obtain ⟨y, -, here⟩ := exists_of_forall₂ fields.flip u part
    exact ⟨y, here⟩
  | _ => cases part

/-- What takes room holds itself nowhere. -/
theorem Takes.finite {target : Target} {structs : List Explicit.Struct} {t : Ty} {x : Space}
    (takes : Takes target structs t x) : Finite structs t := by
  obtain ⟨n, found⟩ := takes
  induction n generalizing t x with
  | zero => cases found
  | succ n ih =>
    refine ⟨t, fun u part => ?_⟩
    obtain ⟨y, found⟩ := space?_parts found u part
    exact ih found

/-- The room of a type depends on its type parameters only. -/
theorem Takes.parts_subset (whole : c.Formed) {t : Ty} {x : Space}
    (takes : Takes c.target c.structs t x) (formed : t.Formed c.arity own []) : x.parts ⊆ own := by
  obtain ⟨n, found⟩ := takes
  induction n generalizing t x with
  | zero => cases found
  | succ n ih =>
    cases t with
    | named name args =>
      rw [space?] at found
      split at found
      · obtain rfl := Option.some.inj found
        exact List.nil_subset _
      rename_i basic
      split at found
      · obtain rfl := Option.some.inj found
        exact List.nil_subset _
      rename_i other
      rw [Option.bind_eq_bind, Option.bind_eq_some_iff] at found
      obtain ⟨s, declared, found⟩ := found
      obtain ⟨xs, fields, rfl⟩ := totalSpace?_eq_some.mp found
      obtain ⟨arity, given⟩ := Ty.formed_named.mp formed
      obtain ⟨s', found', member, length⟩ := c.arity_struct arity basic other
      obtain rfl : s = s' := Option.some.inj (declared.symm.trans found')
      intro g part
      rw [parts_foldl, List.nil_append, List.mem_flatMap] at part
      obtain ⟨y, inside, part⟩ := part
      obtain ⟨u, field, takes⟩ := exists_of_forall₂ fields y inside
      exact ih (formed_fieldTypes whole member length given u field) takes part
    | generic name =>
      obtain rfl := Option.some.inj found
      simpa using Ty.formed_generic.mp formed
    | func args result =>
      obtain rfl := Option.some.inj found
      exact List.nil_subset _
    | cell cell => cases found

/-- The room of a type whose parameters are filled in with closed types: each of them adds what
it takes. -/
theorem Takes.substitute {t : Ty} {x : Space} (takes : Takes c.target c.structs t x)
    (sub : Substitution) (room : Tag → Int) (whole : c.Formed) (formed : t.Formed c.arity own [])
    (given : ∀ g ∈ x.parts, ∃ u plain, sub.lookup g = some u ∧
      Takes c.target c.structs u ⟨room g, [], plain⟩) :
    ∃ y, Takes c.target c.structs (t.substitute sub) y ∧
      y.bytes = x.bytes + (x.parts.map room).sum ∧ y.parts = [] := by
  obtain ⟨n, found⟩ := takes
  induction n generalizing t x with
  | zero => cases found
  | succ n ih =>
    cases t with
    | named name args =>
      rw [Ty.substitute_named]
      rw [space?] at found
      split at found
      · rename_i basic
        obtain rfl := Option.some.inj found
        exact ⟨_, ⟨1, if_pos basic⟩, by simp, rfl⟩
      rename_i basic
      split at found
      · rename_i other
        obtain rfl := Option.some.inj found
        exact ⟨_, ⟨1, by rw [space?, if_neg basic, if_pos other]⟩, by simp, rfl⟩
      rename_i other
      rw [Option.bind_eq_bind, Option.bind_eq_some_iff] at found
      obtain ⟨s, declared, found⟩ := found
      obtain ⟨xs, fields, rfl⟩ := totalSpace?_eq_some.mp found
      obtain ⟨arity, formedArgs⟩ := Ty.formed_named.mp formed
      obtain ⟨s', found', member, length⟩ := c.arity_struct arity basic other
      obtain rfl : s = s' := Option.some.inj (declared.symm.trans found')
      have formedFields := formed_fieldTypes whole member length formedArgs
      rw [parts_foldl, List.nil_append] at given
      -- The fields one after the other: each adds its own bytes and those of its parameters.
      obtain ⟨ys, filled, bytes, closed⟩ : ∃ ys,
          List.Forall₂ (Takes c.target c.structs) ((fieldTypes s args).map (·.substitute sub)) ys ∧
          (ys.map (·.bytes)).sum =
            (xs.map (·.bytes)).sum + ((xs.flatMap (·.parts)).map room).sum ∧
          ys.flatMap (·.parts) = [] := by
        clear declared found found' length formedArgs
        generalize fieldTypes s args = ts at fields formedFields
        induction fields with
        | nil => exact ⟨[], .nil, by simp, rfl⟩
        | @cons u y ts xs first _ ihFields =>
          rw [List.forall_mem_cons] at formedFields
          simp only [List.flatMap_cons, List.forall_mem_append] at given
          obtain ⟨z, takes, bytes, closed⟩ := ih formedFields.1 given.1 first
          obtain ⟨zs, filled, total, none⟩ := ihFields given.2 formedFields.2
          refine ⟨z :: zs, .cons takes filled, ?_, by rw [List.flatMap_cons, closed, none]; rfl⟩
          simp only [List.map_cons, List.sum_cons, List.flatMap_cons, List.map_append,
            List.sum_append, bytes, total]
          omega
      rw [← fieldTypes_substitute whole member length.symm] at filled
      refine ⟨_, takes_struct basic other declared filled, ?_, ?_⟩
      · rw [bytes_foldl, bytes_foldl, parts_foldl, bytes, List.nil_append, Int.add_assoc]
      · rw [parts_foldl, closed]
        rfl
    | generic name =>
      obtain rfl := Option.some.inj found
      obtain ⟨u, plain, here, takes⟩ := given name.tag (by simp)
      rw [Ty.substitute_generic, here, Option.getD_some]
      exact ⟨_, takes, by simp, rfl⟩
    | func args result =>
      obtain rfl := Option.some.inj found
      exact ⟨_, ⟨1, by rw [Ty.substitute_func]; rfl⟩, by simp, rfl⟩
    | cell cell => cases found

end Finite

section Search

variable {c : Context} {generics own : List Tag} {n m : Nat}

/-- A type has a layout within a bound, and no open type does. -/
def Reachable (c : Context) (n : Nat) (opened : List OpenType) (t : Ty) : Prop :=
  (∃ x, space? c.target c.structs n t = some x) ∧
    ∀ o ∈ opened, ∀ u : Ty, u.cells = [] → u.key = o.key → space? c.target c.structs n u = none

theorem space?_none_of_le {t : Ty} (deep : n ≤ m) (nothing : space? c.target c.structs m t = none) :
    space? c.target c.structs n t = none := by
  refine Option.eq_none_iff_forall_ne_some.mpr fun x found => ?_
  rw [space?_mono found deep] at nothing
  cases nothing

/-- A search finds the layout of a type unless it does not go deep enough. If the type is found at the bound
but not below it, then its parts are found below it, where it is not: so being open is no
obstacle to them. -/
theorem layoutWithin_finds (whole : c.Formed) :
    LaysOut c generics (fun stop => stop = .endless ∧ m < n) (Reachable c n) (layoutWithin m) := by
  induction n generalizing m with
  | zero =>
    rintro t own st ⟨⟨x, found⟩, -⟩
    cases found
  | succ n ih =>
    intro t own st reachable formed sound held
    obtain ⟨⟨x, found⟩, apart⟩ := reachable
    have earlier : ∀ o ∈ st.opened, ∀ u : Ty, u.cells = [] → u.key = o.key →
        space? c.target c.structs n u = none := fun o member u closed same =>
      space?_none_of_le (Nat.le_succ n) (apart o member u closed same)
    cases below : space? c.target c.structs n t with
    | some y =>
      exact (ih t own st ⟨⟨y, below⟩, earlier⟩ formed sound held).weaken fun _ shallow =>
        ⟨shallow.1, Nat.lt_succ_of_lt shallow.2⟩
    | none =>
      cases m with
      | zero => exact meetsIn_throw.mpr ⟨rfl, Nat.succ_pos n⟩
      | succ m =>
        have inner : LaysOut c generics (fun stop => stop = .endless ∧ m + 1 < n + 1) (Reachable c n) (layoutWithin m) :=
          fun t own st can formed sound held => (ih t own st can formed sound held).weaken fun _ shallow =>
            ⟨shallow.1, Nat.succ_lt_succ shallow.2⟩
        refine layoutStep_meets (fun opened u => u = t ∧ opened = st.opened) whole
          inner ?_ ?_ t own st ⟨rfl, rfl⟩ formed sound held
        · rintro _ _ ⟨rfl, rfl⟩ u part
          refine ⟨?_, fun o member v closed same => ?_⟩
          · exact space?_parts found u part
          · rcases List.mem_append.mp member with old | new
            · exact earlier o old v closed same
            · rw [List.mem_singleton.mp new] at same
              rw [space?_alike (Ty.alike_of_key closed formed.closed same), below]
        · rintro _ _ cause ⟨rfl, rfl⟩ ⟨o, member, same⟩
          rw [apart o member _ formed.closed same.symm] at found
          cases found

theorem exists_depth {target : Target} {structs : List Explicit.Struct} {ts : List Ty}
    (each : ∀ t ∈ ts, ∃ x, Takes target structs t x) :
    ∃ n, ∀ t ∈ ts, ∃ x, space? target structs n t = some x := by
  induction ts with
  | nil => exact ⟨0, by simp⟩
  | cons t rest ih =>
    rw [List.forall_mem_cons] at each
    obtain ⟨x, n, found⟩ := each.1
    obtain ⟨m, others⟩ := ih each.2
    refine ⟨max n m, List.forall_mem_cons.mpr ⟨⟨x, space?_mono found (Nat.le_max_left n m)⟩,
      fun u member => ?_⟩⟩
    obtain ⟨y, found⟩ := others u member
    exact ⟨y, space?_mono found (Nat.le_max_right n m)⟩

/-- The layouts of types that take room are found by every search that goes deep enough, and one that does not
only says so. -/
theorem lays_of_takes {target : Target} {structs : List Explicit.Struct}
    (whole : ∀ depth, (Context.mk target structs depth).Formed) (ts : List Ty)
    (each : ∀ t ∈ ts, ∃ x, Takes target structs t x) : ∃ bound, ∀ depth generics,
      Lays ⟨target, structs, depth⟩ generics (fun stop => stop = .endless ∧ depth < bound) (· ∈ ts) := by
  obtain ⟨n, reached⟩ := exists_depth each
  refine ⟨n, fun depth generics => ⟨fun t own st member formed idle held => ?_, fun _ _ _ shallow => nomatch shallow.1⟩⟩
  have reachable : Reachable ⟨target, structs, depth⟩ n st.opened t := by
    refine ⟨reached t member, ?_⟩
    rw [idle.idle]
    simp
  rw [layoutOf, meetsIn_read_bind]
  refine (layoutWithin_finds (whole depth) t own st reachable formed idle.toSound held).imp
    fun l st' post => ?_
  obtain ⟨fits, sound', kept, same⟩ := post
  exact ⟨fits, ⟨sound', same.trans idle.idle⟩, kept⟩

/-- Searches that may stop in fewer ways. -/
theorem Lays.weaken {allowed allowed' : Stop → Prop} {able : Ty → Prop} (lays : Lays c generics allowed able)
    (less : ∀ stop, allowed stop → allowed' stop)
    (placed : ∀ cause span span', allowed' (.fault cause span) → allowed' (.fault cause span')) :
    Lays c generics allowed' able :=
  ⟨fun t own st can formed idle held => (lays.layout t own st can formed idle held).weaken less, placed⟩

end Search

end WitnessLang.Sized
