import Mathlib.Data.List.Count
import WitnessLang.Trace.Tracer

set_option autoImplicit false

/-! The brackets of a trace. Work that is followed begins and ends, and in between comes the work inside it. A level
that is interested in a piece of work is interested in whatever is around it, so that what it leaves out leaves no gap. -/
namespace WitnessLang.Trace

/-- The innermost piece of work that has begun and not ended, or zero. -/
def innermost : List Event → Nat
  | [] => 0
  | e :: _ => e.span

/-- A trace takes some pieces of work that are going on, the innermost first, to those that are going on after it. What
begins names the piece of work around it, and what ends is the innermost piece. -/
inductive Bracketed : List Event → List Event → List Event → Prop
  | done {going : List Event} : Bracketed going [] going
  | begins {going es left : List Event} (e : Event) (kind : e.kind = Kind.spanBegin) (around : e.parent = innermost going)
      (more : Bracketed (e :: going) es left) : Bracketed going (e :: es) left
  | ends {going es left : List Event} (b e : Event) (kind : e.kind = Kind.spanEnd) (id : e.span = b.span)
      (scope : e.scope = b.scope) (name : e.name = b.name) (parent : e.parent = b.parent)
      (more : Bracketed going es left) : Bracketed (b :: going) (e :: es) left

/-- A piece of work with the pieces inside it. It ends with a remark and facts, unless it breaks down. -/
inductive Activity where
  | mk (scope : Scope) (name : String) (ending : Option (String × List (String × String))) (inner : List Activity)

/-- The scopes of pieces of work, in the order in which they begin. -/
def scopes : List Activity → List Scope
  | [] => []
  | .mk scope _ _ inner :: rest => scope :: (scopes inner ++ scopes rest)

/-- Pieces of work that lie in work of some size are no larger, and so all the way down. Only the last one of several
that need not be whole may break down, and only in one that breaks down itself. -/
inductive Nested : Nat → Bool → List Activity → Prop
  | nil {size : Nat} {whole : Bool} : Nested size whole []
  | cons {size : Nat} {whole : Bool} {scope : Scope} {name : String} {ending : Option (String × List (String × String))}
      {inner rest : List Activity} (own : size ≤ scope.number) (inside : Nested scope.number ending.isSome inner)
      (later : Nested size whole rest) (broken : ending = none → whole = false ∧ rest = []) :
      Nested size whole (.mk scope name ending inner :: rest)

/-- How many of some pieces of work a level is interested in. -/
def Level.count (l : Level) (as : List Activity) : Nat := (scopes as).countP l.admits

def beginOf (scope : Scope) (name : String) (id parent : Nat) : Event :=
  { kind := Kind.spanBegin, scope, span := id, parent, name }

/-- The end of a piece of work, if it has one. -/
def endOf (scope : Scope) (name : String) (ending : Option (String × List (String × String))) (id parent : Nat) :
    List Event :=
  (ending.map fun e => ({ kind := Kind.spanEnd, scope, span := id, parent, name, detail := e.1, extra := e.2 } : Event)).toList

/-- What a level hears of pieces of work inside the piece with a number, when so many have begun. -/
def Level.events (l : Level) (begun parent : Nat) : List Activity → List Event
  | [] => []
  | .mk scope name ending inner :: rest =>
    if l.admits scope then
      beginOf scope name (begun + 1) parent :: (l.events (begun + 1) (begun + 1) inner
        ++ (endOf scope name ending (begun + 1) parent ++ l.events (begun + 1 + l.count inner) parent rest))
    else l.events begun parent inner ++ l.events (begun + l.count inner) parent rest

/-- The induction on pieces of work: the work inside a piece, and that after it. -/
theorem Activity.induction {P : List Activity → Prop} (nil : P [])
    (mk : ∀ scope name ending inner rest, P inner → P rest → P (.mk scope name ending inner :: rest)) : ∀ as, P as
  | [] => nil
  | .mk scope name ending inner :: rest =>
    mk scope name ending inner rest (Activity.induction nil mk inner) (Activity.induction nil mk rest)

section Hearing

variable {t : Tracer} {l : Level} {e : Event} {es es' : List Event}

/-- A tracer that has taken in some events. What begins in them counts as begun. -/
def Tracer.hear (t : Tracer) (es : List Event) : Tracer :=
  { es.foldl Tracer.emit t with spans := t.spans + es.countP (·.kind = Kind.spanBegin) }

theorem Tracer.emit_level (t : Tracer) (e : Event) : (t.emit e).level = t.level ∧ (t.emit e).spans = t.spans := by
  unfold emit writeOut keep
  repeat' split
  all_goals exact ⟨rfl, rfl⟩

theorem Tracer.emit_spans (t : Tracer) (n : Nat) (e : Event) :
    ({ t with spans := n } : Tracer).emit e = { t.emit e with spans := n } := by
  unfold emit
  dsimp only
  split
  · unfold writeOut keep
    dsimp only
    repeat' split
    all_goals simp_all [number]
  · rfl

theorem Tracer.emitAll_level (t : Tracer) (es : List Event) :
    (es.foldl emit t).level = t.level ∧ (es.foldl emit t).spans = t.spans := by
  induction es generalizing t with
  | nil => exact ⟨rfl, rfl⟩
  | cons e es ih =>
    obtain ⟨level, spans⟩ := t.emit_level e
    obtain ⟨level', spans'⟩ := ih (t.emit e)
    exact ⟨level'.trans level, spans'.trans spans⟩

theorem Tracer.emitAll_spans (t : Tracer) (n : Nat) (es : List Event) :
    es.foldl emit ({ t with spans := n } : Tracer) = { es.foldl emit t with spans := n } := by
  induction es generalizing t with
  | nil => rfl
  | cons e es ih => rw [List.foldl_cons, List.foldl_cons, emit_spans, ih]

@[simp] theorem Tracer.hear_level (t : Tracer) (es : List Event) : (t.hear es).level = t.level := (t.emitAll_level es).1

theorem Tracer.hear_spans (t : Tracer) (es : List Event) :
    (t.hear es).spans = t.spans + es.countP (·.kind = Kind.spanBegin) := rfl

theorem Tracer.hear_hear (t : Tracer) (es es' : List Event) : (t.hear es).hear es' = t.hear (es ++ es') := by
  rw [hear, hear_spans, hear, emitAll_spans, hear, List.foldl_append, List.countP_append, Nat.add_assoc]

@[simp] theorem Tracer.hear_nil (t : Tracer) : t.hear [] = t := rfl

theorem Level.count_mk (l : Level) (scope : Scope) (name : String) (ending : Option (String × List (String × String)))
    (inner rest : List Activity) : l.count (.mk scope name ending inner :: rest) =
      (if l.admits scope then 1 else 0) + l.count inner + l.count rest := by
  rw [count, scopes, List.countP_cons, List.countP_append, count, count]
  omega

theorem countP_endOf (scope : Scope) (name : String) (ending : Option (String × List (String × String)))
    (id parent : Nat) : (endOf scope name ending id parent).countP (·.kind = Kind.spanBegin) = 0 := by
  cases ending <;> rfl

/-- Every piece of work that a level is interested in begins once. -/
theorem Level.countP_events (l : Level) (as : List Activity) (begun parent : Nat) :
    (l.events begun parent as).countP (·.kind = Kind.spanBegin) = l.count as := by
  induction as using Activity.induction generalizing begun parent with
  | nil =>
    rw [events, count, scopes]
    rfl
  | mk scope name ending inner rest within after =>
    rw [events, count_mk]
    split
    · rw [List.countP_cons_of_pos (by simp [beginOf]), List.countP_append, List.countP_append, within, after,
        countP_endOf]
      omega
    · rw [List.countP_append, within, after, Nat.zero_add]

theorem Level.events_append (l : Level) (as bs : List Activity) (begun parent : Nat) : l.events begun parent (as ++ bs) =
    l.events begun parent as ++ l.events (begun + l.count as) parent bs := by
  induction as using Activity.induction generalizing begun with
  | nil =>
    rw [List.nil_append, events, List.nil_append, count, scopes]
    rfl
  | mk scope name ending inner rest within after =>
    rw [List.cons_append, events, events, count_mk]
    by_cases wanted : l.admits scope = true
    · rw [if_pos wanted, if_pos wanted, if_pos wanted, after]
      simp [Nat.add_assoc]
    · rw [if_neg wanted, if_neg wanted, if_neg wanted, after]
      simp [Nat.add_assoc]

end Hearing

section Brackets

variable {l d : Level} {as bs : List Activity} {e : Event} {going es es' left more : List Event} {size begun parent : Nat}
  {whole : Bool}

theorem Bracketed.append (first : Bracketed going es left) (second : Bracketed left es' more) :
    Bracketed going (es ++ es') more := by
  induction first with
  | done => exact second
  | begins e kind around _ ih => exact .begins e kind around (ih second)
  | ends b e kind id scope name parent _ ih => exact .ends b e kind id scope name parent (ih second)

theorem Nested.append (nested : Nested size true as) (more : Nested size whole bs) : Nested size whole (as ++ bs) := by
  generalize all : true = b at nested
  induction nested with
  | nil => exact more
  | cons own inside later broken within after =>
    refine .cons own inside (after more all) fun none => ?_
    rw [← all] at broken
    exact absurd (broken none).1 (by decide)

/-- What is interested in a piece of work is interested in larger ones. -/
theorem Level.admits_larger {s s' : Scope} (order : s.number ≤ s'.number) (wanted : l.admits s' = true) :
    l.admits s = true := by
  unfold admits at wanted ⊢
  split at wanted
  · exact decide_eq_true (Nat.le_trans order (of_decide_eq_true wanted))
  · exact decide_eq_true (Nat.le_trans order (of_decide_eq_true wanted))
  · exact decide_eq_true (Nat.le_trans order (of_decide_eq_true wanted))
  · rfl
  · cases wanted

theorem Nested.le_scopes (nested : Nested size whole as) : ∀ s ∈ scopes as, size ≤ s.number := by
  induction nested with
  | nil =>
    rw [scopes]
    exact List.forall_mem_nil _
  | cons own inside later broken within after =>
    rw [scopes]
    refine List.forall_mem_cons.mpr ⟨own, fun s member => ?_⟩
    rcases List.mem_append.mp member with early | late
    · exact Nat.le_trans own (within s early)
    · exact after s late

theorem mem_endOf {scope : Scope} {name : String} {ending : Option (String × List (String × String))} {id : Nat}
    (member : e ∈ endOf scope name ending id parent) : e.scope = scope ∧ e.span = id ∧ e.kind = Kind.spanEnd := by
  obtain ⟨_, -, rfl⟩ := Option.map_eq_some_iff.mp (Option.mem_toList.mp member)
  exact ⟨rfl, rfl, rfl⟩

/-- What is heard are beginnings and ends, and all of them are wanted. -/
theorem Level.mem_events (member : e ∈ l.events begun parent as) :
    e.scope ∈ scopes as ∧ l.admits e.scope = true ∧ (e.kind = Kind.spanBegin ∨ e.kind = Kind.spanEnd) := by
  induction as using Activity.induction generalizing begun parent with
  | nil =>
    rw [events] at member
    exact absurd member List.not_mem_nil
  | mk scope name ending inner rest within after =>
    have early : ∀ {n p}, e ∈ l.events n p inner → e.scope ∈ scope :: (scopes inner ++ scopes rest) ∧
        l.admits e.scope = true ∧ (e.kind = Kind.spanBegin ∨ e.kind = Kind.spanEnd) := fun member =>
      (within member).imp_left fun known => List.mem_cons_of_mem _ (List.mem_append_left _ known)
    have late : ∀ {n p}, e ∈ l.events n p rest → e.scope ∈ scope :: (scopes inner ++ scopes rest) ∧
        l.admits e.scope = true ∧ (e.kind = Kind.spanBegin ∨ e.kind = Kind.spanEnd) := fun member =>
      (after member).imp_left fun known => List.mem_cons_of_mem _ (List.mem_append_right _ known)
    rw [events] at member
    rw [scopes]
    split at member
    · rename_i wanted
      rcases List.mem_cons.mp member with rfl | member
      · exact ⟨List.mem_cons_self, wanted, Or.inl rfl⟩
      rcases List.mem_append.mp member with member | member
      · exact early member
      rcases List.mem_append.mp member with member | member
      · obtain ⟨own, -, kind⟩ := mem_endOf member
        rw [own]
        exact ⟨List.mem_cons_self, wanted, Or.inr kind⟩
      · exact late member
    · exact (List.mem_append.mp member).elim early late

/-- Of the work inside a piece of work that is not wanted nothing is heard. -/
theorem Nested.events_unwanted {scope : Scope} (nested : Nested scope.number whole as)
    (unwanted : ¬ l.admits scope = true) : l.events begun parent as = [] :=
  List.eq_nil_iff_forall_not_mem.mpr fun _ member =>
    unwanted (l.admits_larger (nested.le_scopes _ (Level.mem_events member).1) (Level.mem_events member).2.1)

variable (l going begun) in
/-- What is heard of work that lies in a piece of work is bracketed. It leaves open only what it began itself, and nothing
if the work is whole. -/
theorem Nested.bracketed (nested : Nested size whole as) (around : parent = innermost going) :
    ∃ opened, Bracketed going (l.events begun parent as) (opened ++ going) ∧ (whole = true → opened = []) := by
  induction nested generalizing begun parent going with
  | nil =>
    rw [Level.events]
    exact ⟨[], .done, fun _ => rfl⟩
  | @cons size whole scope name ending inner rest own inside later broken within after =>
    rw [Level.events]
    split
    · obtain ⟨opened, first, ended⟩ :=
        @within (beginOf scope name (begun + 1) parent :: going) (begun + 1) (begun + 1) rfl
      cases ending with
      | none =>
        obtain ⟨rfl, rfl⟩ := broken rfl
        refine ⟨opened ++ [beginOf scope name (begun + 1) parent], .begins _ rfl around ?_, nofun⟩
        rw [endOf, Option.map_none, Option.toList_none, List.nil_append, Level.events, List.append_nil,
          List.append_assoc]
        exact first
      | some e =>
        obtain rfl := ended rfl
        obtain ⟨last, second, same⟩ := @after going (begun + 1 + l.count inner) parent around
        exact ⟨last, .begins _ rfl around (first.append (.ends _ _ rfl rfl rfl rfl rfl second)), same⟩
    · obtain ⟨opened, first, ended⟩ := @within going begun parent around
      cases ending with
      | none =>
        obtain ⟨rfl, rfl⟩ := broken rfl
        refine ⟨opened, ?_, nofun⟩
        rw [Level.events, List.append_nil]
        exact first
      | some e =>
        obtain rfl := ended rfl
        obtain ⟨last, second, same⟩ := @after going (begun + l.count inner) parent around
        exact ⟨last, first.append second, same⟩

variable (going begun) in
/-- Work that breaks down is itself left open where it is followed. -/
theorem Nested.bracketed_broken {scope : Scope} {name : String} {inner : List Activity}
    (nested : Nested size false [.mk scope name none inner]) (wanted : l.admits scope = true)
    (around : parent = innermost going) :
    ∃ opened, opened ≠ [] ∧ Bracketed going (l.events begun parent [.mk scope name none inner]) (opened ++ going) := by
  cases nested with
  | cons own inside later broken =>
    obtain ⟨opened, first, -⟩ := inside.bracketed l (beginOf scope name (begun + 1) parent :: going) (begun + 1) rfl
    refine ⟨opened ++ [beginOf scope name (begun + 1) parent], by simp, ?_⟩
    rw [Level.events, if_pos wanted, endOf, Option.map_none, Option.toList_none, List.nil_append, Level.events,
      List.append_nil, List.append_assoc]
    exact .begins _ rfl around first

variable (l begun) in
/-- Something is left open just if the work breaks down and is followed. -/
theorem Nested.left_open {scope : Scope} {name : String} (nested : Nested scope.number whole as)
    (broken : whole = false → ∃ inner, as = [.mk scope name none inner]) :
    ∃ opened, Bracketed [] (l.events begun 0 as) opened ∧ (opened = [] ↔ whole = true ∨ l.admits scope = false) := by
  cases whole with
  | true =>
    obtain ⟨opened, bracketed, ended⟩ := nested.bracketed l [] begun rfl
    obtain rfl := ended rfl
    exact ⟨[], bracketed, by simp⟩
  | false =>
    obtain ⟨inner, rfl⟩ := broken rfl
    cases wanted : l.admits scope with
    | true =>
      obtain ⟨opened, open', bracketed⟩ := nested.bracketed_broken [] begun wanted rfl
      rw [List.append_nil] at bracketed
      exact ⟨opened, bracketed, by simpa using open'⟩
    | false =>
      rw [nested.events_unwanted (by simp [wanted])]
      exact ⟨[], .done, by simp⟩

/-- What is left open is told by what is heard. -/
theorem Bracketed.unique {left' : List Event} (first : Bracketed going es left) (second : Bracketed going es left') :
    left = left' := by
  induction first with
  | done =>
    cases second
    rfl
  | begins e kind around _ ih =>
    cases second with
    | begins _ _ _ more => exact ih more
    | ends _ _ kind' => exact absurd (kind.symm.trans kind') (by decide)
  | ends b e kind id scope name parent _ ih =>
    cases second with
    | begins _ kind' => exact absurd (kind'.symm.trans kind) (by decide)
    | ends _ _ _ _ _ _ _ more => exact ih more

end Brackets

section Numbers

variable {l d : Level} {as : List Activity} {e e' : Event} {f : Nat → Nat} {size n k p q : Nat} {ss : List Scope}
  {whole : Bool}

def Event.renumber (f : Nat → Nat) (e : Event) : Event := { e with span := f e.span, parent := f e.parent }

/-- The numbers that a level gives to pieces of work, of those given when all pieces are followed. -/
def Level.Numbers (l : Level) (f : Nat → Nat) (n k : Nat) (ss : List Scope) : Prop :=
  ∀ done s more, ss = done ++ s :: more → l.admits s = true →
    f (n + done.length + 1) = k + done.countP l.admits + 1

theorem Level.Numbers.inner {s : Scope} {inner rest : List Scope} (numbers : l.Numbers f n k (s :: (inner ++ rest)))
    (wanted : l.admits s = true) : l.Numbers f (n + 1) (k + 1) inner := by
  rintro done s' more rfl wanted'
  have here := numbers (s :: done) s' (more ++ rest) (by simp) wanted'
  rw [List.length_cons, List.countP_cons_of_pos wanted] at here
  rw [show n + 1 + done.length + 1 = n + (done.length + 1) + 1 by omega, here]
  omega

theorem Level.Numbers.rest {s : Scope} {inner rest : List Scope} (numbers : l.Numbers f n k (s :: (inner ++ rest))) :
    l.Numbers f (n + 1 + inner.length) (k + (if l.admits s then 1 else 0) + inner.countP l.admits) rest := by
  rintro done s' more rfl wanted'
  have here := numbers (s :: (inner ++ done)) s' more (by simp) wanted'
  rw [List.length_cons, List.length_append, List.countP_cons, List.countP_append] at here
  rw [show n + 1 + inner.length + done.length + 1 = n + (inner.length + done.length + 1) + 1 by omega, here]
  omega

theorem Level.count_all (all : ∀ s, d.admits s = true) (as : List Activity) : d.count as = (scopes as).length :=
  List.countP_eq_length.mpr fun s _ => all s

theorem renumber_endOf {scope : Scope} {name : String} {ending : Option (String × List (String × String))} (id : f n = k)
    (link : f p = q) : endOf scope name ending k q = (endOf scope name ending n p).map (Event.renumber f) := by
  rw [← id, ← link]
  cases ending <;> rfl

/-- What a level hears is what it wants of all that there is to hear, with other numbers. -/
theorem Nested.events_renumbered (all : ∀ s, d.admits s = true) (nested : Nested size whole as)
    (numbers : l.Numbers f n k (scopes as)) (link : f p = q) :
    l.events k q as = ((d.events n p as).filter fun e => l.admits e.scope).map (Event.renumber f) := by
  induction nested generalizing n k p q with
  | nil => rw [Level.events, Level.events, List.filter_nil, List.map_nil]
  | @cons size whole scope name ending inner rest own inside later broken within after =>
    rw [scopes] at numbers
    have next := numbers.rest
    rw [Level.events, Level.events, if_pos (all scope), d.count_all all]
    by_cases wanted : l.admits scope = true
    · have id : f (n + 1) = k + 1 := by simpa using numbers [] scope _ rfl wanted
      have ends : (endOf scope name ending (n + 1) p).filter (fun e => l.admits e.scope) =
          endOf scope name ending (n + 1) p := List.filter_eq_self.mpr fun e member => by
        rw [(mem_endOf member).1]
        exact wanted
      rw [if_pos wanted] at next ⊢
      rw [within (numbers.inner wanted) id, Level.count, after next link, List.filter_cons_of_pos (by exact wanted),
        List.filter_append, List.filter_append, ends, List.map_cons, List.map_append, List.map_append,
        ← renumber_endOf id link, Event.renumber]
      simp only [beginOf, id, link]
    · -- What is inside a piece of work that is not wanted is not wanted either.
      have unwanted : ∀ s ∈ scopes inner, ¬ l.admits s = true := fun s member held =>
        wanted (l.admits_larger (inside.le_scopes s member) held)
      have dropped : (d.events (n + 1) (n + 1) inner).filter (fun e => l.admits e.scope) = [] :=
        List.filter_eq_nil_iff.mpr fun e member => unwanted _ (Level.mem_events member).1
      have ends : (endOf scope name ending (n + 1) p).filter (fun e => l.admits e.scope) = [] :=
        List.filter_eq_nil_iff.mpr fun e member => by
          rw [(mem_endOf member).1]
          exact wanted
      rw [if_neg wanted] at next ⊢
      simp only [Nat.add_zero] at next
      rw [inside.events_unwanted wanted, List.nil_append, Level.count, after next link, List.filter_cons_of_neg (by exact wanted),
        List.filter_append, List.filter_append, dropped, ends, List.nil_append, List.nil_append]

/-- The place of an event among the pieces of work. -/
theorem Level.span_of_mem (all : ∀ s, d.admits s = true) (member : e ∈ d.events n p as) :
    ∃ done more, scopes as = done ++ e.scope :: more ∧ e.span = n + done.length + 1 := by
  induction as using Activity.induction generalizing n p with
  | nil =>
    rw [events] at member
    exact absurd member List.not_mem_nil
  | mk scope name ending inner rest within after =>
    rw [events, if_pos (all scope), d.count_all all] at member
    rw [scopes]
    rcases List.mem_cons.mp member with rfl | member
    · exact ⟨[], _, rfl, rfl⟩
    rcases List.mem_append.mp member with member | member
    · obtain ⟨done, more, split, span⟩ := within member
      refine ⟨scope :: done, more ++ scopes rest, by rw [split]; simp, ?_⟩
      rw [span, List.length_cons]
      omega
    rcases List.mem_append.mp member with member | member
    · obtain ⟨own, span, -⟩ := mem_endOf member
      rw [own, span]
      exact ⟨[], _, rfl, rfl⟩
    · obtain ⟨done, more, split, span⟩ := after member
      refine ⟨scope :: (scopes inner ++ done), more, by rw [split]; simp, ?_⟩
      rw [span, List.length_cons, List.length_append]
      omega

/-- The number that a level gives to the piece of work with a number. -/
def Level.numberOf (l : Level) (n k : Nat) (ss : List Scope) (id : Nat) : Nat :=
  if id = 0 then 0 else k + (ss.take (id - n)).countP l.admits

theorem Level.numbers_numberOf (l : Level) (n k : Nat) (ss : List Scope) : l.Numbers (l.numberOf n k ss) n k ss := by
  rintro done s more rfl wanted
  rw [numberOf, if_neg (Nat.succ_ne_zero _), Nat.add_assoc n, Nat.add_sub_cancel_left, List.append_cons,
    List.take_left' (by simp), List.countP_append, List.countP_singleton, if_pos wanted, Nat.add_assoc]

/-- Of two pieces of work the one that begins later gets the larger number. -/
theorem Level.Numbers.lt {done done' more more' : List Scope} {s s' : Scope} (numbers : l.Numbers f n k ss)
    (here : ss = done ++ s :: more) (there : ss = done' ++ s' :: more') (wanted : l.admits s = true)
    (wanted' : l.admits s' = true) (order : done.length < done'.length) :
    f (n + done.length + 1) < f (n + done'.length + 1) := by
  rw [numbers _ _ _ here wanted, numbers _ _ _ there wanted']
  rw [List.append_cons] at here
  obtain ⟨between, rfl⟩ : done ++ [s] <+: done' := by
    refine List.prefix_of_prefix_length_le ⟨more, here.symm⟩ ⟨s' :: more', there.symm⟩ ?_
    rw [List.length_append, List.length_singleton]
    exact order
  rw [List.countP_append, List.countP_append, List.countP_singleton, if_pos wanted]
  omega

/-- Different pieces of work that a level wants get different numbers. -/
theorem Level.Numbers.injective (all : ∀ s, d.admits s = true) (numbers : l.Numbers f n k (scopes as))
    (first : e ∈ d.events n p as) (second : e' ∈ d.events n p as) (wanted : l.admits e.scope = true)
    (wanted' : l.admits e'.scope = true) (same : f e.span = f e'.span) : e.span = e'.span := by
  obtain ⟨done, more, here, span⟩ := span_of_mem all first
  obtain ⟨done', more', there, span'⟩ := span_of_mem all second
  rw [span, span'] at same ⊢
  rcases Nat.lt_trichotomy done.length done'.length with lt | equal | gt
  · exact absurd same (Nat.ne_of_lt (numbers.lt here there wanted wanted' lt))
  · rw [equal]
  · exact absurd same.symm (Nat.ne_of_lt (numbers.lt there here wanted' wanted gt))

end Numbers

section Running

variable {ε α β : Type} {t : Tracer} {size n : Nat} {scope : Scope} {name : String}
  {m : Nat → ExceptT ε (StateM Tracer) α} {x : Except ε α}

theorem run_bind (first : ExceptT ε (StateM Tracer) α) (next : α → ExceptT ε (StateM Tracer) β) (t : Tracer) :
    (first >>= next).run t = match first.run t with
      | (.ok a, t') => (next a).run t'
      | (.error e, t') => (.error e, t') := by
  change ExceptT.bindCont next (first.run t).1 (first.run t).2 = _
  generalize first.run t = r
  obtain ⟨r, t'⟩ := r
  cases r <;> rfl

/-- Work inside the piece of work with a number comes to `x`, whoever listens, and what is heard of it are pieces of
work of some size. They are whole unless the work breaks down. -/
def Goes (size : Nat) (m : Nat → ExceptT ε (StateM Tracer) α) (x : Except ε α) : Prop :=
  ∃ as, Nested size x.isOk as ∧ ∀ around t, (m around).run t = (x, t.hear (t.level.events t.spans around as))

theorem goes_of_silent (silent : ∀ n t, (m n).run t = (x, t)) : Goes size m x := by
  refine ⟨[], .nil, fun n t => ?_⟩
  rw [Level.events, t.hear_nil]
  exact silent n t

theorem goes_pure (a : α) : Goes (ε := ε) size (fun _ => pure a) (.ok a) := goes_of_silent fun _ _ => rfl

theorem goes_ofExcept (x : Except ε α) : Goes size (fun _ => MonadExcept.ofExcept x) x :=
  goes_of_silent fun _ _ => by cases x <;> rfl

theorem Goes.bind {f : α → Nat → ExceptT ε (StateM Tracer) β} {g : α → Except ε β} (first : Goes size m x)
    (next : ∀ a, x = .ok a → Goes size (f a) (g a)) : Goes size (fun n => m n >>= fun a => f a n) (x >>= g) := by
  obtain ⟨as, nested, heard⟩ := first
  cases x with
  | error e =>
    refine ⟨as, nested, fun n t => ?_⟩
    rw [run_bind, heard]
    rfl
  | ok a =>
    obtain ⟨bs, later, heard'⟩ := next a rfl
    refine ⟨as ++ bs, nested.append later, fun n t => ?_⟩
    rw [run_bind, heard]
    dsimp only
    rw [heard', Tracer.hear_hear, Tracer.hear_level, Tracer.hear_spans, Level.countP_events, ← Level.events_append]
    rfl

theorem Goes.mapM {m : Nat → α → ExceptT ε (StateM Tracer) β} {f : α → Except ε β}
    (each : ∀ a, Goes size (fun n => m n a) (f a)) (as : List α) : Goes size (fun n => as.mapM (m n)) (as.mapM f) := by
  induction as with
  | nil => exact goes_pure []
  | cons a as ih =>
    simp only [List.mapM_cons]
    exact (each a).bind fun b _ => ih.bind fun bs _ => goes_pure (b :: bs)

theorem run_start (wanted : t.level.admits scope = true) :
    (liftM (start n scope name) : ExceptT ε (StateM Tracer) _).run t =
      (.ok (t.spans + 1, some ⟨t.spans + 1, n, scope, name, []⟩), t.hear [beginOf scope name (t.spans + 1) n]) := by
  have begun : t.begin scope name n =
      (t.hear [beginOf scope name (t.spans + 1) n], some ⟨t.spans + 1, n, scope, name, []⟩) := by
    rw [Tracer.begin, if_pos wanted]
    dsimp only
    rw [Tracer.emit_spans]
    rfl
  change (Except.ok (((t.begin scope name n).2.map (·.id)).getD n, (t.begin scope name n).2), (t.begin scope name n).1) = _
  rw [begun]
  rfl

theorem run_start_unwanted (unwanted : ¬ t.level.admits scope = true) :
    (liftM (start n scope name) : ExceptT ε (StateM Tracer) _).run t = (.ok (n, none), t) := by
  have begun : t.begin scope name n = (t, none) := if_neg unwanted
  change (Except.ok (((t.begin scope name n).2.map (·.id)).getD n, (t.begin scope name n).2), (t.begin scope name n).1) = _
  rw [begun]
  rfl

theorem Tracer.finish_eq (t : Tracer) (id parent : Nat) (scope : Scope) (name detail : String)
    (extra : List (String × String)) : t.finish ⟨id, parent, scope, name, extra⟩ detail =
      t.hear (endOf scope name (some (detail, extra)) id parent) := by
  rw [hear, endOf]
  change t.emit _ = { t.emit _ with spans := t.spans + 0 }
  rw [Nat.add_zero, ← (t.emit_level _).2]

/-- Work that is begun, done and ended, and what comes after it. -/
theorem Goes.exists_piece {k : α → Option Span → Nat → ExceptT ε (StateM Tracer) β} {f : α → Nat → ExceptT ε (StateM Tracer) β}
    {g : α → Except ε β} (detail : α → String) (facts : α → List (String × String) → List (String × String))
    (inside : Goes scope.number m x) (own : size ≤ scope.number) (after : ∀ a, x = .ok a → Goes size (f a) (g a))
    (ends : ∀ a, x = .ok a → ∀ span n, k a span n =
      liftM (finish (span.map fun s => { s with extra := facts a s.extra }) (detail a)) >>= fun _ => f a n) :
    ∃ as, Nested size (x >>= g).isOk as ∧
      (∀ n t, (liftM (start n scope name) >>= fun begun => m begun.1 >>= fun a => k a begun.2 n).run t =
        (x >>= g, t.hear (t.level.events t.spans n as))) ∧
      (x.isOk = false → ∃ inner, as = [.mk scope name none inner]) := by
  obtain ⟨as, nested, heard⟩ := inside
  cases x with
  | error e =>
    refine ⟨[.mk scope name none as], .cons own nested .nil fun _ => ⟨rfl, rfl⟩, fun n t => ?_, fun _ => ⟨as, rfl⟩⟩
    rw [run_bind, Level.events]
    by_cases wanted : t.level.admits scope = true
    · rw [run_start wanted, if_pos wanted]
      dsimp only
      rw [run_bind, heard, Tracer.hear_hear, Tracer.hear_level, Tracer.hear_spans, endOf, Level.events]
      simp only [List.countP_singleton, beginOf, Option.map_none, Option.toList_none, List.append_nil]
      rfl
    · rw [run_start_unwanted wanted, if_neg wanted]
      dsimp only
      rw [run_bind, heard, Level.events, List.append_nil]
      rfl
  | ok a =>
    obtain ⟨bs, later, heard'⟩ := after a rfl
    refine ⟨.mk scope name (some (detail a, facts a [])) as :: bs, .cons own nested later nofun, fun n t => ?_, nofun⟩
    rw [run_bind, Level.events]
    by_cases wanted : t.level.admits scope = true
    · rw [run_start wanted, if_pos wanted]
      dsimp only
      rw [run_bind, heard]
      dsimp only
      rw [ends a rfl, run_bind]
      change ((f a n).run (Tracer.finish _ ⟨t.spans + 1, n, scope, name, facts a []⟩ (detail a))) = _
      rw [Tracer.finish_eq, heard', Tracer.hear_hear, Tracer.hear_hear, Tracer.hear_hear]
      simp only [Tracer.hear_level, Tracer.hear_spans, Level.countP_events, countP_endOf]
      simp only [List.countP_singleton, beginOf]
      rfl
    · rw [run_start_unwanted wanted, if_neg wanted]
      dsimp only
      rw [run_bind, heard]
      dsimp only
      rw [ends a rfl, run_bind]
      change ((f a n).run _) = _
      rw [heard', Tracer.hear_hear, Tracer.hear_level, Tracer.hear_spans, Level.countP_events]
      rfl

theorem Goes.piece {k : α → Option Span → Nat → ExceptT ε (StateM Tracer) β} {f : α → Nat → ExceptT ε (StateM Tracer) β}
    {g : α → Except ε β} (detail : α → String) (facts : α → List (String × String) → List (String × String))
    (inside : Goes scope.number m x) (own : size ≤ scope.number) (after : ∀ a, x = .ok a → Goes size (f a) (g a))
    (ends : ∀ a, x = .ok a → ∀ span n, k a span n =
      liftM (finish (span.map fun s => { s with extra := facts a s.extra }) (detail a)) >>= fun _ => f a n) :
    Goes size (fun n => liftM (start n scope name) >>= fun begun => m begun.1 >>= fun a => k a begun.2 n) (x >>= g) := by
  obtain ⟨as, nested, heard, -⟩ := Goes.exists_piece detail facts inside own after ends
  exact ⟨as, nested, heard⟩

end Running

end WitnessLang.Trace
