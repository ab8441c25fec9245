import WitnessLang.Ir.Yaml
import WitnessLang.Proofs.Ir.Layouts
import WitnessLang.Proofs.Ir.Program
import WitnessLang.Proofs.Ir.Draft
import WitnessLang.Proofs.Layout.Order

set_option autoImplicit false

namespace WitnessLang.Ir

open Ownership

/-- A struct whose places are listed in the order of its fields. -/
def Struct.inPlace (s : Struct) : Struct :=
  { s with layout := { s.layout with slots := s.layout.listed (s.fields.map (·.name)) } }

/-- A program whose structs list the places of their fields in order. -/
def Program.inPlace (p : Program) : Program := { p with structs := p.structs.map Struct.inPlace }

section Fields

variable {vs : Variables} {fields : List Field} {places : List Placed}

def Field.line (vs : Variables) (f : Field) (offset : String) : OutlineLine :=
  ⟨0, "field " ++ f.name ++ ": " ++ f.type.render ++ " [" ++ f.witness.render vs ++ "] @" ++ offset⟩

def Field.entry (vs : Variables) (f : Field) (offset : String) : Yaml :=
  .map [("name", .text f.name), ("witness", .text (f.witness.render vs)), ("offset", .text offset)]

theorem fieldOutlines?_eq (room : fields.length ≤ places.length) : fieldOutlines? vs fields places =
    some (List.zipWith (Field.line vs) fields (places.map (·.offset.render))) := by
  induction fields generalizing places with
  | nil => rfl
  | cons f rest ih =>
    cases places with
    | nil => simp at room
    | cons p others =>
      have left : rest.length ≤ others.length := by simpa using room
      rw [fieldOutlines?, ih left]
      rfl

theorem fieldYamls?_eq (room : fields.length ≤ places.length) : fieldYamls? vs fields places =
    some (List.zipWith (Field.entry vs) fields (places.map (·.offset.render))) := by
  induction fields generalizing places with
  | nil => rfl
  | cons f rest ih =>
    cases places with
    | nil => simp at room
    | cons p others =>
      have left : rest.length ≤ others.length := by simpa using room
      rw [fieldYamls?, ih left]
      rfl

/-- Fields are shown alike only with the same texts beside them. -/
theorem zipWith_eq_iff {α β : Type} {shown : α → String → β} (injective : ∀ a x y, shown a x = shown a y → x = y)
    {as : List α} {ps qs : List Placed} (left : as.length = ps.length) (right : as.length = qs.length) :
    List.zipWith shown as (ps.map (·.offset.render)) = List.zipWith shown as (qs.map (·.offset.render)) ↔
      ps.map (·.offset.render) = qs.map (·.offset.render) := by
  induction as generalizing ps qs with
  | nil =>
    rw [List.eq_nil_of_length_eq_zero left.symm, List.eq_nil_of_length_eq_zero right.symm]
    exact iff_of_true rfl rfl
  | cons a rest ih =>
    obtain ⟨p, ps, rfl⟩ := List.exists_cons_of_length_eq_add_one left.symm
    obtain ⟨q, qs, rfl⟩ := List.exists_cons_of_length_eq_add_one right.symm
    have others := ih (Nat.succ.inj left) (Nat.succ.inj right)
    have first : shown a p.offset.render = shown a q.offset.render ↔ p.offset.render = q.offset.render :=
      ⟨injective a _ _, fun same => by rw [same]⟩
    simp only [List.map_cons, List.zipWith_cons_cons, List.cons.injEq, others, first]

theorem line_injective (vs : Variables) (f : Field) (x y : String) (same : f.line vs x = f.line vs y) : x = y := by
  simpa [Field.line] using same

theorem entry_injective (vs : Variables) (f : Field) (x y : String) (same : f.entry vs x = f.entry vs y) : x = y := by
  simpa [Field.entry] using same

theorem under_inj {heading : String} {before lines lines' after : Outline} :
    Outline.under heading (before ++ lines) ++ after = Outline.under heading (before ++ lines') ++ after ↔
      lines = lines' := by
  have deeper : Function.Injective fun l : OutlineLine => { l with depth := l.depth + 1 } := by
    rintro ⟨d, t⟩ ⟨d', t'⟩ same
    simpa using same
  rw [List.append_left_inj, Outline.under, Outline.under, List.append_right_inj, Outline.indent, Outline.indent,
    List.map_inj_right fun _ _ same => deeper same, List.append_right_inj]

end Fields

section Complete

variable {vs : Variables}

theorem mapM_isSome {α β : Type} {f : α → Option β} {as : List α} (each : ∀ a ∈ as, (f a).isSome = true) :
    ∃ bs, as.mapM f = some bs := by
  induction as with
  | nil => exact ⟨[], rfl⟩
  | cons a rest ih =>
    rw [List.forall_mem_cons] at each
    obtain ⟨b, first⟩ := Option.isSome_iff_exists.mp each.1
    obtain ⟨bs, others⟩ := ih each.2
    exact ⟨b :: bs, by rw [List.mapM_cons, first, others]; rfl⟩

theorem renderArguments?_isSome {args : List Argument} (inside : ∀ a ∈ args, a.var < vs.size) :
    ∃ texts, renderArguments? vs args = some texts := by
  apply mapM_isSome
  intro a member
  rw [Argument.render?, Option.isSome_map, Array.getElem?_eq_getElem (inside a member)]
  rfl

theorem name?_isSome {v : VarId} (inside : v < vs.size) : ∃ name, name? vs v = some name :=
  ⟨_, by rw [name?, Array.getElem?_eq_getElem inside, Option.map_some]⟩

theorem callArgs_isSome {args : List CallArg} (inside : ∀ v ∈ args.map (·.value.var), v < vs.size) :
    ∃ texts, args.mapM (CallArg.yaml? vs) = some texts := by
  apply mapM_isSome
  intro a member
  obtain ⟨name, known⟩ := name?_isSome (inside _ (List.mem_map_of_mem member))
  rw [CallArg.yaml?, known]
  rfl

/-- An instruction can be written in a document if it mentions nothing but variables. -/
theorem parts?_isSome {i : Instr} (inside : ∀ v ∈ i.operands, v < vs.size) : ∃ parts, i.parts? vs = some parts := by
  cases i with
  | set dst value =>
    obtain ⟨d, atDst⟩ := name?_isSome (inside dst (by simp [Instr.operands]))
    exact ⟨_, by rw [Instr.parts?, atDst]; rfl⟩
  | copy dst src | move dst src | unpack dst src field =>
    obtain ⟨d, atDst⟩ := name?_isSome (inside dst (by simp [Instr.operands]))
    obtain ⟨s, atSrc⟩ := name?_isSome (inside src (by simp [Instr.operands]))
    exact ⟨_, by rw [Instr.parts?, atDst, atSrc]; rfl⟩
  | destroy v =>
    obtain ⟨d, atV⟩ := name?_isSome (inside v (by simp [Instr.operands]))
    exact ⟨_, by rw [Instr.parts?, atV]; rfl⟩
  | primitive dst op left right =>
    obtain ⟨d, atDst⟩ := name?_isSome (inside dst (by simp [Instr.operands]))
    obtain ⟨l, atLeft⟩ := name?_isSome (inside left (by simp [Instr.operands]))
    obtain ⟨r, atRight⟩ := name?_isSome (inside right (by simp [Instr.operands]))
    exact ⟨_, by rw [Instr.parts?, atDst, atLeft, atRight]; rfl⟩
  | callDirect function args =>
    obtain ⟨texts, known⟩ := callArgs_isSome inside
    exact ⟨_, by rw [Instr.parts?, known]; rfl⟩
  | callClosure closure args =>
    obtain ⟨c, atC⟩ := name?_isSome (inside closure (by simp [Instr.operands]))
    obtain ⟨texts, known⟩ := callArgs_isSome fun v member => inside v (List.mem_append_left _ member)
    exact ⟨_, by rw [Instr.parts?, atC, known]; rfl⟩
  | pack dst struct fields =>
    obtain ⟨d, atDst⟩ := name?_isSome (inside dst (by simp [Instr.operands]))
    exact ⟨_, by rw [Instr.parts?, atDst]; rfl⟩
  | makeClosure dst function env =>
    obtain ⟨d, atDst⟩ := name?_isSome (inside dst (by simp [Instr.operands]))
    exact ⟨_, by rw [Instr.parts?, atDst]; rfl⟩
  | cond dst test yes no =>
    obtain ⟨d, atDst⟩ := name?_isSome (inside dst (by simp [Instr.operands]))
    obtain ⟨t, atTest⟩ := name?_isSome (inside test (by simp [Instr.operands]))
    exact ⟨_, by rw [Instr.parts?, atDst, atTest]; rfl⟩

theorem yaml?_of_plain {i : Instr} (plain : branches i = false) (inside : ∀ v ∈ i.operands, v < vs.size) :
    ∃ y, i.yaml? vs = some y := by
  obtain ⟨⟨dst, args⟩, known⟩ := parts?_isSome inside
  cases i with
  | cond => cases plain
  | _ => exact ⟨_, by rw [Instr.yaml?, known]; rfl⟩

/-- A block can be written in a document if it mentions nothing but variables. -/
theorem yamls?_isSome {block : Block} (inside : ∀ i ∈ Instr.flattenAll block, ∀ v ∈ i.operands, v < vs.size) :
    ∃ ys, Instr.yamls? vs block = some ys := by
  induction block using block_induction with
  | nil => exact ⟨[], rfl⟩
  | plain i rest plain ih =>
    rw [flattenAll_cons, flatten_plain plain, List.forall_mem_append, List.forall_mem_singleton] at inside
    obtain ⟨y, first⟩ := yaml?_of_plain plain inside.1
    obtain ⟨ys, others⟩ := ih inside.2
    exact ⟨y :: ys, by rw [Instr.yamls?, first, others]; rfl⟩
  | cond dst test yes no rest ihYes ihNo ih =>
    rw [flattenAll_cons, flatten_cond, List.forall_mem_append, List.forall_mem_cons, List.forall_mem_append] at inside
    obtain ⟨⟨own, inYes, inNo⟩, later⟩ := inside
    obtain ⟨parts, known⟩ := parts?_isSome own
    obtain ⟨y, first⟩ := ihYes inYes
    obtain ⟨n, second⟩ := ihNo inNo
    have branching : ∃ y, (Instr.cond dst test yes no).yaml? vs = some y := by
      rw [Instr.yaml?, known]
      simp only [first, second, Option.bind_eq_bind, Option.bind_some, Option.pure_def]
      exact ⟨_, rfl⟩
    obtain ⟨y, whole⟩ := branching
    obtain ⟨ys, others⟩ := ih later
    exact ⟨y :: ys, by rw [Instr.yamls?, whole, others]; rfl⟩

end Complete

section Structs

variable {s : Struct} {target : Target} {n : Int}

theorem Struct.slots_names (s : Struct) : s.slots.map (·.name) = s.fields.map (·.name) := by
  rw [slots, List.map_map]
  rfl

theorem Struct.inPlace_slots (s : Struct) : s.inPlace.layout.slots = s.layout.listed (s.fields.map (·.name)) := rfl

/-- A layout of its own has as many places as a struct has fields. -/
theorem Struct.places_length (s : Struct) (own : Frame.compute s.name s.slots target = .ok s.layout) :
    s.fields.length = s.layout.slots.length ∧ s.fields.length = s.inPlace.layout.slots.length := by
  have fields : s.slots.length = s.fields.length := List.length_map _
  have listed := congrArg List.length (Frame.listed_of_compute own)
  rw [s.slots_names, List.length_map, List.length_map] at listed
  obtain ⟨-, _, _, _, -, placed, -⟩ := Frame.place_of_compute own
  have left := congrArg List.length (Frame.slots_of_place placed)
  rw [List.length_map, (List.filter_append_perm Slot.isStatic s.slots).length_eq] at left
  exact ⟨(left.trans fields).symm, (listed.trans fields).symm⟩

/-- What a listing and a document say of a struct, where it has a place for every field. -/
theorem outline?_of_places {args : List String} (known : renderArguments? s.vars s.arguments = some args)
    (room : s.fields.length ≤ s.layout.slots.length) :
    s.outline? = some (.under ("struct " ++ s.name ++ "(" ++ commaSeparated args ++ ") \x7b")
      (Instr.outlines s.vars s.body ++
        List.zipWith (Field.line s.vars) s.fields (s.layout.slots.map (·.offset.render))) ++ .line "\x7d") := by
  rw [Struct.outline?, known, fieldOutlines?_eq room]
  rfl

theorem yaml?_of_places {args : List String} {body : List Yaml}
    (known : renderArguments? s.vars s.arguments = some args) (code : Instr.yamls? s.vars s.body = some body)
    (room : s.fields.length ≤ s.layout.slots.length) :
    s.yaml? = some (.map ([("name", .text s.name), ("arguments", yamlTexts args)] ++ unlessEmpty "body" body
      ++ [("fields", .list (List.zipWith (Field.entry s.vars) s.fields (s.layout.slots.map (·.offset.render)))),
        ("size", .text s.layout.size.render)])) := by
  rw [Struct.yaml?, known, code, fieldYamls?_eq room]
  rfl

/-- A struct whose places are in order has a place for each field, at the offset that its layout has for the name. -/
theorem Struct.inPlace_offsets (s : Struct) (own : Frame.compute s.name s.slots target = .ok s.layout) :
    (s.inPlace.layout.slots.map fun p => some p.offset) = s.fields.map fun f => s.layout.offset? f.name := by
  have places := Frame.listed_of_compute own
  rw [s.slots_names, ← s.inPlace_slots, Struct.slots, List.map_map] at places
  exact places

/-- A struct with its own layout is shown rightly exactly if its fields are placed in their order. -/
theorem shown_iff (known : Target.ofPointerSize n = .ok target)
    (own : Frame.compute s.name s.slots target = .ok s.layout) (arguments : ∀ a ∈ s.arguments, a.var < s.vars.size)
    (body : ∀ i ∈ Instr.flattenAll s.body, ∀ v ∈ i.operands, v < s.vars.size) :
    s.outline?.isSome = true ∧ s.yaml?.isSome = true ∧
      (s.outline? = s.inPlace.outline? ↔ Frame.InOrder s.slots) ∧
      (s.yaml? = s.inPlace.yaml? ↔ Frame.InOrder s.slots) := by
  obtain ⟨args, shown⟩ := renderArguments?_isSome arguments
  obtain ⟨code, written⟩ := yamls?_isSome body
  have order := Frame.compute_render_iff known own
  rw [s.slots_names, ← Struct.inPlace_slots] at order
  obtain ⟨left, right⟩ := s.places_length own
  have lines := zipWith_eq_iff (line_injective s.vars) left right
  have entries := zipWith_eq_iff (entry_injective s.vars) left right
  rw [outline?_of_places shown left.le, yaml?_of_places shown written left.le,
    outline?_of_places (s := s.inPlace) shown right.le, yaml?_of_places (s := s.inPlace) shown written right.le]
  refine ⟨rfl, rfl, ?_, ?_⟩
  · rw [Option.some.injEq, ← order, ← lines]
    exact under_inj
  · rw [Option.some.injEq, ← order, ← entries]
    exact ⟨fun same => by simpa [Struct.inPlace] using same, fun same => by rw [same]; rfl⟩

end Structs

section Functions

variable {N : Naming} {target : Target} {closures : Nat} {f : Function}

/-- Lowered functions can be listed, and written in a document. -/
theorem Function.Built.shown (built : f.Built N target closures) :
    f.outline?.isSome = true ∧ f.yaml?.isSome = true := by
  obtain ⟨args, known⟩ := renderArguments?_isSome built.inside.1
  obtain ⟨_, _, flows⟩ := built.flows
  obtain ⟨code, written⟩ := yamls?_isSome fun i member => (flows_sound flows i member).1
  rw [Function.outline?, Function.yaml?, known, written]
  exact ⟨rfl, rfl⟩

end Functions

section Programs

variable {N : Naming} {q : Sized.Program} {closures : Nat} {p : Program} {n : Int}

theorem mapM_eq_of_forall {α β : Type} {f : α → Option β} {g : α → α} {as : List α} (same : ∀ a ∈ as, f a = f (g a)) :
    (as.map g).mapM f = as.mapM f := by
  induction as with
  | nil => rfl
  | cons a rest ih =>
    rw [List.forall_mem_cons] at same
    rw [List.map_cons, List.mapM_cons, List.mapM_cons, ih same.2, same.1]

theorem Program.Lowered.shown_iff (lowered : Program.Lowered N q closures p)
    (known : Target.ofPointerSize n = .ok p.target) {d : Struct} (member : d ∈ p.structs)
    (own : Frame.compute d.name d.slots p.target = .ok d.layout) :
    d.outline?.isSome = true ∧ d.yaml?.isSome = true ∧
      (d.outline? = d.inPlace.outline? ↔ Frame.InOrder d.slots) ∧
      (d.yaml? = d.inPlace.yaml? ↔ Frame.InOrder d.slots) := by
  obtain ⟨s, -, made⟩ := exists_of_forall₂ lowered.structs d member
  obtain ⟨_, _, _, _, flows⟩ := made.flows
  exact Ir.shown_iff known own made.inside fun i inside => (flows_sound flows i inside).1

/-- A program whose structs are all placed in the order of their fields is listed and documented rightly. -/
theorem Program.Lowered.shown (lowered : Program.Lowered N q closures p)
    (known : Target.ofPointerSize n = .ok p.target)
    (ordered : ∀ d ∈ p.structs, Frame.compute d.name d.slots p.target = .ok d.layout ∧ Frame.InOrder d.slots) :
    p.render?.isSome = true ∧ p.render? = p.inPlace.render? ∧ p.yaml?.isSome = true ∧
      p.yaml? = p.inPlace.yaml? := by
  have each := fun d member => lowered.shown_iff known member (ordered d member).1
  have functions := fun f member => (lowered.functions f member).shown
  obtain ⟨lines, listed⟩ := mapM_isSome fun d member => (each d member).1
  obtain ⟨maps, documented⟩ := mapM_isSome fun d member => (each d member).2.1
  obtain ⟨linesF, listedF⟩ := mapM_isSome fun f member => (functions f member).1
  obtain ⟨mapsF, documentedF⟩ := mapM_isSome fun f member => (functions f member).2
  have sameLines := mapM_eq_of_forall fun d member => (each d member).2.2.1.mpr (ordered d member).2
  have sameMaps := mapM_eq_of_forall fun d member => (each d member).2.2.2.mpr (ordered d member).2
  rw [Program.render?, Program.yaml?, Program.render?, Program.yaml?, Program.inPlace]
  dsimp only
  rw [sameLines, sameMaps, listed, documented, listedF, documentedF]
  exact ⟨rfl, rfl, rfl, rfl⟩

end Programs

end WitnessLang.Ir
