import WitnessLang.Proofs.Build.Lowered
import WitnessLang.Proofs.Ir.Definitions
import WitnessLang.Proofs.Ir.Listing

set_option autoImplicit false

namespace WitnessLang.Build

section Names

variable {o : Options} {name : String} {content : Bytes} {r : Outcome}

/-- The names that a text is lowered with. -/
theorem named_of_sized (proper : IsModule o.unit) (compiled : compileSource o name content = .ok r)
    {typed : Typed.Program} (known : r.trees.typed = some typed) {q : Sized.Program} (sized : r.trees.sized = some q)
    {p : Ir.Program} (done : Ir.lower q = .ok p) :
    ∃ N closures, Ir.Lowerable typed N ∧ Ir.Program.Lowered N q closures p ∧ p.Named typed closures := by
  obtain ⟨e, explicit, measured⟩ := (compileSource_follows compiled).sized q sized
  obtain ⟨typed', known', rfl⟩ := (compileSource_follows compiled).explicit e explicit
  obtain rfl : typed' = typed := Option.some.inj (known'.symm.trans known)
  obtain ⟨names, N, accepted, lowerable⟩ := exists_lowerable proper compiled known
  have gives := lower_gives_of_measured lowerable measured
  rw [done] at gives
  obtain ⟨closures, own⟩ := gives
  exact ⟨N, closures, lowerable, own, Ir.named_of_lowered accepted measured own⟩

/-- The one thing that can be wrong with a lowered program is that a declared function is named like the body of a
closure. Every name in it stands for a definition, and for one only if no other definition is known by it. -/
theorem lowered_definitions (proper : IsModule o.unit) (compiled : compileSource o name content = .ok r)
    {typed : Typed.Program} (known : r.trees.typed = some typed) {q : Sized.Program} (sized : r.trees.sized = some q)
    {p : Ir.Program} (done : Ir.lower q = .ok p) :
    (p.problems = some [] ↔ ∀ k, typed.functions.length + k < p.functions.length →
        Ir.closureName k ∉ typed.functions.map (·.name.name)) ∧
      ∀ name ∈ p.mentions, (∃ d, p.Denotes name d) ∧ (Ir.Unshared typed name → ∃! d, p.Denotes name d) := by
  obtain ⟨N, closures, lowerable, own, named⟩ := named_of_sized proper compiled known sized done
  refine ⟨Ir.program_problems_eq_nil named fun f member => (own.functions f member).valid, fun name used => ?_⟩
  obtain ⟨d, denoted⟩ := Ir.exists_denoted lowerable named own used
  exact ⟨⟨d, denoted⟩, fun unshared => ⟨d, denoted, fun d' other => Ir.denoted_unique named unshared other denoted⟩⟩

/-- The declarations of the sample share their names with nothing, so it is well-formed, and all names in it are
certain. -/
theorem sample_definitions : ∃ r typed q p, compileSource sampleOptions "a" sampleText = .ok r ∧
    r.trees.typed = some typed ∧ r.trees.sized = some q ∧ Ir.lower q = .ok p ∧ p.problems = some [] ∧
    (∀ k, typed.functions.length + k < p.functions.length → Ir.closureName k ∉ typed.functions.map (·.name.name)) ∧
    ∀ name ∈ p.mentions, Ir.Unshared typed name ∧ ∃! d, p.Denotes name d := by
  obtain ⟨r, typed, q, p, compiled, known, sized, lowered, -, -, structs, functions, -⟩ := sample_lowered
  obtain ⟨q', sized', done, sound⟩ := (compileSource_follows compiled).lowered p lowered
  obtain rfl : q' = q := Option.some.inj (sized'.symm.trans sized)
  obtain ⟨accepted, certain⟩ := lowered_definitions ⟨by decide, by decide⟩ compiled known sized done
  have unshared : ∀ name, Ir.Unshared typed name := fun name => by
    constructor <;> rw [structs, functions, List.mem_singleton, List.mem_singleton]
    · rintro ⟨rfl, same⟩
      exact absurd same (by decide)
    · rintro (rfl | rfl) reserved
      · exact absurd reserved.long (by decide)
      · exact absurd reserved.long (by decide)
  exact ⟨r, typed, q', p, compiled, known, sized, done, sound, accepted.mp sound,
    fun name used => ⟨unshared name, (certain name used).2 (unshared name)⟩⟩

/-- How far a text is taken of which no program can be made. -/
def measuredOptions : Options := { stop := .measure }

/-- A function that is named like the body of a closure. -/
def takenText : Bytes := Bytes.ofString "func _closure_0():F64=1\nfunc f():()->F64=||2"

def takenTrees : { t // lowered? 1 Target.wide (sourceOf "a" takenText) = some t ∧
    t.2.2.problems = some [.repeatedFunction "_closure_0"] ∧ "_closure_0" ∈ t.2.2.mentions ∧
    t.2.2.functions.map (·.name) = ["_closure_0", "f", "_closure_0"] } :=
  obtained (by
    rw [takenText, Utf8.ofString_ofList]
    decide +kernel)

/-- No stage objects to such a function before lowering, and what it is lowered to is refused. -/
theorem taken_refused : ∃ r q p, compileSource measuredOptions "a" takenText = .ok r ∧ r.trees.sized = some q ∧
    Ir.lower q = .ok p ∧ p.problems = some [.repeatedFunction "_closure_0"] ∧ "_closure_0" ∈ p.mentions ∧
    p.Denotes "_closure_0" (.function 0) ∧ p.Denotes "_closure_0" (.function 2) := by
  obtain ⟨⟨typed, q, p⟩, done, refused, used, names⟩ := takenTrees
  obtain ⟨sized, lowered⟩ := lowered?_eq_some.mp done
  obtain ⟨r, compiled, -, measured⟩ := compileSource_of_sized (o := measuredOptions) rfl rfl sized
  refine ⟨r, q, p, compiled, measured, lowered, refused, used, ?_, ?_⟩ <;> rw [Ir.Program.Denotes, names] <;> rfl

/-- Every struct is laid out as the first one of its name. That is the struct itself if no declared struct is named
like the environment of a closure. -/
theorem lowered_layouts (proper : IsModule o.unit) (compiled : compileSource o name content = .ok r)
    {typed : Typed.Program} (known : r.trees.typed = some typed) {q : Sized.Program} (sized : r.trees.sized = some q)
    {p : Ir.Program} (done : Ir.lower q = .ok p) :
    (∀ d ∈ p.structs, ∃ first, p.structs.find? (·.name == d.name) = some first ∧
        Frame.compute first.name first.slots p.target = .ok d.layout) ∧
      ((∀ k, typed.structs.length + k < p.structs.length →
          Explicit.environmentName k ∉ typed.structs.map (·.name.name)) →
        ∀ d ∈ p.structs, Frame.compute d.name d.slots p.target = .ok d.layout) := by
  obtain ⟨_, _, -, -, named⟩ := named_of_sized proper compiled known sized done
  obtain ⟨-, laid⟩ := Ir.lower_laid done
  refine ⟨laid, fun free d member => ?_⟩
  obtain ⟨first, found, computed⟩ := laid d member
  rw [find?_of_nodup (Ir.structs_nodup named free) member] at found
  obtain rfl := Option.some.inj found
  exact computed

/-- The struct of the sample is not named like an environment, so every struct has a layout of its own. -/
theorem sample_layouts : ∃ r typed q p, compileSource sampleOptions "a" sampleText = .ok r ∧
    r.trees.typed = some typed ∧ r.trees.sized = some q ∧ Ir.lower q = .ok p ∧
    p.structs.map (·.name) = ["P", "_Env0"] ∧ ∀ d ∈ p.structs, Frame.compute d.name d.slots p.target = .ok d.layout := by
  obtain ⟨r, typed, q, p, compiled, known, sized, lowered, -, names, structs, -⟩ := sample_lowered
  obtain ⟨q', sized', done, -⟩ := (compileSource_follows compiled).lowered p lowered
  obtain rfl : q' = q := Option.some.inj (sized'.symm.trans sized)
  refine ⟨r, typed, q', p, compiled, known, sized, done, names,
    (lowered_layouts ⟨by decide, by decide⟩ compiled known sized done).2 fun k _ => ?_⟩
  rw [structs, List.mem_singleton]
  intro same
  have first := congrArg (·.toList.head?) same
  simp [Explicit.environmentName] at first

/-- A struct that is named like the environment of a closure. -/
def takenStructText : Bytes := Bytes.ofString "struct _Env0{a:F64,b:F64}\nfunc f(x:F64):()->F64=||x"

/-- What the text with the struct is lowered to. -/
def takenStructTrees : { t // lowered? 1 Target.wide (sourceOf "a" takenStructText) = some t ∧
    t.2.2.problems = some [] ∧ ∃ d ∈ t.2.2.structs, Frame.compute d.name d.slots t.2.2.target ≠ .ok d.layout } :=
  obtained (by
    rw [takenStructText, Utf8.ofString_ofList]
    decide +kernel)

/-- The environment takes the layout of such a struct, which is not its own. -/
theorem takenStruct_misplaced : ∃ r p, compileSource sampleOptions "a" takenStructText = .ok r ∧
    r.trees.lowered = some p ∧ ∃ d ∈ p.structs, Frame.compute d.name d.slots p.target ≠ .ok d.layout := by
  obtain ⟨⟨typed, q, p⟩, done, sound, misplaced⟩ := takenStructTrees
  obtain ⟨sized, lowered⟩ := lowered?_eq_some.mp done
  obtain ⟨r, compiled, -, -, made⟩ := compileSource_of_lowered (o := sampleOptions) rfl rfl sized lowered sound
  exact ⟨r, p, compiled, made, misplaced⟩

end Names

section Listings

variable {o : Options} {name : String} {content : Bytes} {r : Outcome}

theorem target_of_measure {e : Explicit.Program} {target : Target} {q : Sized.Program}
    (measured : Sized.measure e target = .ok q) : q.target = target := by
  obtain ⟨depth, within⟩ := Sized.exists_measureWithin measured
  rw [Sized.measureWithin, Except.bind_eq_ok] at within
  obtain ⟨⟨structs, _⟩, -, within⟩ := within
  rw [Except.bind_eq_ok] at within
  obtain ⟨⟨functions, _⟩, -, within⟩ := within
  obtain rfl := Except.ok.inj within
  rfl

/-- A struct with its own layout has a place for each of its fields. The listing and the document show all fields at
their places exactly if the fields are placed in their order: those of known size stand in front of all others, or
behind one other where they take no room. If that is so throughout, the whole program is shown rightly. -/
theorem listed_in_place (proper : IsModule o.unit) {n : Int} (machine : Target.ofPointerSize n = .ok o.target)
    (compiled : compileSource o name content = .ok r) {q : Sized.Program} (sized : r.trees.sized = some q)
    {p : Ir.Program} (done : Ir.lower q = .ok p) :
    (∀ d ∈ p.structs, Frame.compute d.name d.slots p.target = .ok d.layout →
      ((d.inPlace.layout.slots.map fun x => some x.offset) = d.fields.map fun f => d.layout.offset? f.name) ∧
        d.outline?.isSome = true ∧ d.yaml?.isSome = true ∧
        (d.outline? = d.inPlace.outline? ↔ Frame.InOrder d.slots) ∧
        (d.yaml? = d.inPlace.yaml? ↔ Frame.InOrder d.slots)) ∧
      ((∀ d ∈ p.structs, Frame.compute d.name d.slots p.target = .ok d.layout ∧ Frame.InOrder d.slots) →
        p.render?.isSome = true ∧ p.render? = p.inPlace.render? ∧ p.yaml?.isSome = true ∧
          p.yaml? = p.inPlace.yaml?) := by
  obtain ⟨_, N, closures, -, -, lowered⟩ := lowered_of_sized proper compiled sized done
  obtain ⟨e, -, measured⟩ := (compileSource_follows compiled).sized q sized
  have target : p.target = o.target := lowered.target.trans (target_of_measure measured)
  rw [← target] at machine
  exact ⟨fun d member own => ⟨d.inPlace_offsets own, lowered.shown_iff machine member own⟩,
    lowered.shown machine⟩

/-- Fields of both kinds, where one that takes no room stands behind one of unknown size. -/
def orderedText : Bytes := Bytes.ofString "struct Q{}\nstruct P[t]{a:F64,b:t,c:Q,d:t}"

def orderedTrees : { t // lowered? 1 Target.wide (sourceOf "a" orderedText) = some t ∧ t.2.2.problems = some [] ∧
    (t.2.2.structs.map fun d => d.slots.map (·.isStatic)) = [[], [true, false, true, false]] ∧
    ∀ d ∈ t.2.2.structs, Frame.compute d.name d.slots t.2.2.target = .ok d.layout ∧ Frame.InOrder d.slots } :=
  obtained (by
    rw [orderedText, Utf8.ofString_ofList]
    decide +kernel)

/-- Such fields are in order, so everything is shown where it stands. -/
theorem orderedText_listed : ∃ r p, compileSource sampleOptions "a" orderedText = .ok r ∧
    r.trees.lowered = some p ∧ (p.structs.map fun d => d.slots.map (·.isStatic)) = [[], [true, false, true, false]] ∧
    p.render?.isSome = true ∧ p.render? = p.inPlace.render? ∧ p.yaml?.isSome = true ∧
      p.yaml? = p.inPlace.yaml? := by
  obtain ⟨⟨typed, q, p⟩, done, sound, kinds, ordered⟩ := orderedTrees
  obtain ⟨sized, lowered⟩ := lowered?_eq_some.mp done
  obtain ⟨r, compiled, -, measured, made⟩ := compileSource_of_lowered (o := sampleOptions) rfl rfl sized lowered sound
  exact ⟨r, p, compiled, made, kinds,
    (listed_in_place (n := 8) ⟨by decide, by decide⟩ rfl compiled measured lowered).2 ordered⟩

/-- A field of unknown size in front of one of known size. -/
def movedText : Bytes := Bytes.ofString "struct P[t]{a:t,b:F64}"

def movedLines : Outline :=
  .under "struct P(out _result: Type [Type], in t_1: Type [Type]) \x7b"
    (.line "field a: t [Dynamic(t_1)] @0" ++ .line "field b: F64 [Trivial(8)] @8") ++ .line "\x7d"

def movedTrees : { t // lowered? 1 Target.wide (sourceOf "a" movedText) = some t ∧ t.2.2.problems = some [] ∧
    t.2.2.structs.length = 1 ∧ ∀ d ∈ t.2.2.structs, Frame.compute d.name d.slots t.2.2.target = .ok d.layout ∧
      d.fields.map (fun f => (f.name, (d.layout.offset? f.name).map (·.render))) = [("a", some "8"), ("b", some "0")] ∧
      d.outline? = some movedLines ∧ ¬ Frame.InOrder d.slots } :=
  obtained (by
    rw [movedText, Utf8.ofString_ofList]
    decide +kernel)

/-- The offsets of such fields are exchanged, in the listing as in the document. -/
theorem movedText_exchanged : ∃ r p d, compileSource sampleOptions "a" movedText = .ok r ∧
    r.trees.lowered = some p ∧ p.structs = [d] ∧ Frame.compute d.name d.slots p.target = .ok d.layout ∧
    d.fields.map (fun f => (f.name, (d.layout.offset? f.name).map (·.render))) = [("a", some "8"), ("b", some "0")] ∧
    d.outline? = some movedLines ∧ d.outline? ≠ d.inPlace.outline? ∧ d.yaml? ≠ d.inPlace.yaml? := by
  obtain ⟨⟨typed, q, p⟩, done, sound, one, each⟩ := movedTrees
  obtain ⟨d, single⟩ := List.length_eq_one_iff.mp one
  have member : d ∈ p.structs := single ▸ List.mem_singleton_self d
  obtain ⟨own, places, lines, moved⟩ := each d member
  obtain ⟨sized, lowered⟩ := lowered?_eq_some.mp done
  obtain ⟨r, compiled, -, measured, made⟩ := compileSource_of_lowered (o := sampleOptions) rfl rfl sized lowered sound
  obtain ⟨_, _, _, -, -, whole⟩ := lowered_of_sized ⟨by decide, by decide⟩ compiled measured lowered
  have machine : Target.ofPointerSize 8 = .ok p.target := by
    obtain ⟨e, -, ran⟩ := (compileSource_follows compiled).sized q measured
    rw [whole.target, target_of_measure ran]
    rfl
  obtain ⟨-, -, listing, document⟩ := whole.shown_iff machine member own
  exact ⟨r, p, d, compiled, made, single, own, places, lines, fun same => moved (listing.mp same),
    fun same => moved (document.mp same)⟩

end Listings

end WitnessLang.Build
