import Mathlib.Data.List.Forall2
import Mathlib.Data.List.Nodup
import WitnessLang.Scope.Tag

set_option autoImplicit false

namespace WitnessLang

theorem map_eq_of_forall₂ {α β γ : Type} {R : α → β → Prop} {as : List α} {bs : List β}
    {f : α → γ} {h : β → γ} (all : List.Forall₂ R as bs) (same : ∀ a b, R a b → h b = f a) :
    bs.map h = as.map f := by
  induction all with
  | nil => rfl
  | cons first _ ih => rw [List.map_cons, List.map_cons, same _ _ first, ih]

theorem forall₂_of_mem {α β : Type} {R S : α → β → Prop} {as : List α} {bs : List β}
    (all : List.Forall₂ R as bs) (weaker : ∀ a ∈ as, ∀ b, R a b → S a b) : List.Forall₂ S as bs := by
  induction all with
  | nil => exact .nil
  | cons first _ ih =>
    rw [List.forall_mem_cons] at weaker
    exact .cons (weaker.1 _ first) (ih weaker.2)

theorem exists_of_forall₂ {α β : Type} {R : α → β → Prop} {as : List α} {bs : List β}
    (all : List.Forall₂ R as bs) : ∀ b ∈ bs, ∃ a ∈ as, R a b := by
  induction all with
  | nil => simp
  | cons first _ ih =>
    refine List.forall_mem_cons.mpr ⟨⟨_, List.mem_cons_self, first⟩, fun b member => ?_⟩
    obtain ⟨a, known, related⟩ := ih b member
    exact ⟨a, List.mem_cons_of_mem _ known, related⟩

theorem mapM_congr {α β ε : Type} {f g : α → Except ε β} {as : List α}
    (same : ∀ a ∈ as, f a = g a) : as.mapM f = as.mapM g := by
  induction as with
  | nil => rfl
  | cons a rest ih =>
    rw [List.forall_mem_cons] at same
    rw [List.mapM_cons, List.mapM_cons, same.1, ih same.2]

theorem exists_mapM {α β ε : Type} {f : α → Except ε β} {as : List α} (each : ∀ a ∈ as, ∃ b, f a = .ok b) :
    ∃ bs, as.mapM f = .ok bs := by
  induction as with
  | nil => exact ⟨[], rfl⟩
  | cons a rest ih =>
    obtain ⟨⟨b, first⟩, each⟩ := List.forall_mem_cons.mp each
    obtain ⟨bs, later⟩ := ih each
    rw [List.mapM_cons, first, later]
    exact ⟨b :: bs, rfl⟩

/-- Where each part binds no more than another, distinct tags stay distinct. -/
theorem nodup_append_flatMap {α β : Type} {as : List α} {bs : List β} {own : α → List Tag}
    {own' : β → List Tag} {front : List Tag} (once : (front ++ as.flatMap own).Nodup)
    (parts : List.Forall₂ (fun a b => own' b ⊆ own a ∧ (own' b).Nodup) as bs) :
    (front ++ bs.flatMap own').Nodup ∧ bs.flatMap own' ⊆ as.flatMap own := by
  induction parts generalizing front with
  | nil => exact ⟨once, fun _ member => member⟩
  | @cons a b as bs first others ih =>
    rw [List.flatMap_cons, ← List.append_assoc] at once
    obtain ⟨rest, within⟩ := ih once
    rw [List.flatMap_cons, List.flatMap_cons]
    refine ⟨?_, List.append_subset.mpr ⟨fun _ member => List.mem_append_left _ (first.1 member),
      fun _ member => List.mem_append_right _ (within member)⟩⟩
    rw [List.append_assoc] at rest
    simp only [List.nodup_append'] at rest ⊢
    obtain ⟨onceF, ⟨-, onceR, apartR⟩, apartF⟩ := rest
    rw [List.disjoint_append_right] at apartF
    refine ⟨onceF, ⟨first.2, onceR, fun t left right => apartR (first.1 left) right⟩, ?_⟩
    rw [List.disjoint_append_right]
    exact ⟨fun t left right => apartF.1 left (first.1 right), apartF.2⟩

/-- Where tags are distinct, each finds its own. -/
theorem find?_of_nodup {α β : Type} [BEq β] [LawfulBEq β] {xs : List α} {tag : α → β} (once : (xs.map tag).Nodup) {x : α}
    (member : x ∈ xs) : xs.find? (fun y => tag y == tag x) = some x := by
  induction xs with
  | nil => simp at member
  | cons y rest ih =>
    obtain ⟨fresh, once⟩ := List.nodup_cons.mp once
    rw [List.find?_cons]
    rcases List.mem_cons.mp member with rfl | later
    · simp
    · have other : (tag y == tag x) = false := by
        rw [beq_eq_false_iff_ne]
        exact fun same => fresh (List.mem_map.mpr ⟨x, later, same.symm⟩)
      rw [other]
      exact ih once later

theorem findLast?_of_nodup {α β : Type} [BEq β] [LawfulBEq β] {xs : List α} {tag : α → β} (once : (xs.map tag).Nodup)
    {x : α} (member : x ∈ xs) : xs.reverse.find? (fun y => tag y == tag x) = some x := by
  refine find?_of_nodup ?_ (List.mem_reverse.mpr member)
  rw [List.map_reverse]
  exact List.nodup_reverse.mpr once

theorem mem_of_findLast? {α : Type} {xs : List α} {p : α → Bool} {x : α} (found : xs.reverse.find? p = some x) : x ∈ xs :=
  List.mem_reverse.mp (List.mem_of_find?_eq_some found)

theorem mem_of_lookup {α β : Type} [BEq α] [LawfulBEq α] {entries : List (α × β)} {a : α} {b : β}
    (found : entries.lookup a = some b) : (a, b) ∈ entries := by
  obtain ⟨front, back, rfl, -⟩ := List.lookup_eq_some_iff.mp found
  simp

theorem lookup_of_nodup {α β : Type} [BEq α] [LawfulBEq α] {entries : List (α × β)}
    (once : (entries.map (·.1)).Nodup) {a : α} {b : β} (member : (a, b) ∈ entries) :
    entries.lookup a = some b := by
  induction entries with
  | nil => simp at member
  | cons e rest ih =>
    obtain ⟨fresh, once⟩ := List.nodup_cons.mp once
    rw [List.lookup_cons]
    rcases List.mem_cons.mp member with rfl | later
    · simp
    · have other : (a == e.1) = false := by
        rw [beq_eq_false_iff_ne]
        exact fun same => fresh (List.mem_map.mpr ⟨(a, b), later, same⟩)
      rw [other]
      exact ih once later

theorem exists_lookup_zip_of_forall₂ {α β γ : Type} [BEq γ] {R : α → β → Prop} {as : List α}
    {bs : List β} (all : List.Forall₂ R as bs) {names : List γ} {name : γ} {a : α}
    (found : (names.zip as).lookup name = some a) :
    ∃ b, (names.zip bs).lookup name = some b ∧ R a b := by
  induction all generalizing names with
  | nil => simp at found
  | @cons a' b as bs first _ ih =>
    cases names with
    | nil => simp at found
    | cons n rest =>
      rw [List.zip_cons_cons, List.lookup_cons] at found ⊢
      split at found
      · obtain rfl := Option.some.inj found
        exact ⟨b, rfl, first⟩
      · exact ih found

/-- Every key finds its own value, whatever stands behind. -/
theorem forall₂_lookup_zip {α β : Type} [BEq α] [LawfulBEq α] {keys : List α} {vs : List β} (once : keys.Nodup)
    (count : vs.length = keys.length) (back : List (α × β)) :
    List.Forall₂ (fun k v => (keys.zip vs ++ back).lookup k = some v) keys vs := by
  rw [List.forall₂_iff_get]
  refine ⟨count.symm, fun i h h' => ?_⟩
  have member : (keys[i], vs[i]) ∈ keys.zip vs := by
    rw [List.mem_iff_getElem]
    exact ⟨i, by simp [count, h], by simp⟩
  have unique : ((keys.zip vs).map (·.1)).Nodup := by
    rw [List.map_fst_zip (Nat.le_of_eq count.symm)]
    exact once
  simp [List.lookup_append, lookup_of_nodup unique member]

theorem forall₂_split {α β : Type} {R : α → β → Prop} {as as' : List α} {bs bs' : List β}
    (all : List.Forall₂ R (as ++ as') (bs ++ bs')) (count : as.length = bs.length) :
    List.Forall₂ R as bs ∧ List.Forall₂ R as' bs' := by
  induction as generalizing bs with
  | nil =>
    obtain rfl := List.eq_nil_of_length_eq_zero count.symm
    exact ⟨.nil, all⟩
  | cons a rest ih =>
    cases bs with
    | nil => cases count
    | cons b bs =>
      cases all with
      | cons first others =>
        obtain ⟨front, back⟩ := ih others (Nat.succ.inj count)
        exact ⟨.cons first front, back⟩

theorem exists_forall₂ {α β : Type} {R : α → β → Prop} {as : List α} (each : ∀ a ∈ as, ∃ b, R a b) :
    ∃ bs, List.Forall₂ R as bs := by
  induction as with
  | nil => exact ⟨[], .nil⟩
  | cons a rest ih =>
    rw [List.forall_mem_cons] at each
    obtain ⟨b, first⟩ := each.1
    obtain ⟨bs, others⟩ := ih each.2
    exact ⟨b :: bs, .cons first others⟩

theorem sublist_flatMap {α β : Type} {as : List α} {f : α → List β} {a : α} (member : a ∈ as) :
    List.Sublist (f a) (as.flatMap f) := by
  induction as with
  | nil => simp at member
  | cons b rest ih =>
    rw [List.flatMap_cons]
    rcases List.mem_cons.mp member with rfl | later
    · exact List.sublist_append_left _ _
    · exact (ih later).trans (List.sublist_append_right _ _)

/-- What holds of each item from some number on holds of all of them from some number on. -/
theorem exists_bound {α : Type} {P : α → Nat → Prop} {as : List α} (each : ∀ a ∈ as, ∃ bound, ∀ n ≥ bound, P a n) :
    ∃ bound, ∀ n ≥ bound, ∀ a ∈ as, P a n := by
  induction as with
  | nil => exact ⟨0, fun _ _ => List.forall_mem_nil _⟩
  | cons a rest ih =>
    rw [List.forall_mem_cons] at each
    obtain ⟨first, own⟩ := each.1
    obtain ⟨later, others⟩ := ih each.2
    refine ⟨max first later, fun n deep => List.forall_mem_cons.mpr ⟨own n ?_, others n ?_⟩⟩
    · exact Nat.le_trans (Nat.le_max_left _ _) deep
    · exact Nat.le_trans (Nat.le_max_right _ _) deep

end WitnessLang
