import WitnessLang.Proofs.Run
import WitnessLang.Proofs.Surface.Derived
import WitnessLang.Proofs.Token.Partition
import WitnessLang.Surface.Spans

set_option autoImplicit false

/-! Every node of what has been read stands inside the node that owns it. A node derives from tokens one after the
other, which lie apart in the text; it spans just these, unless it stands in parentheses, and then it spans fewer.
So what derives from some of the tokens lies inside what spans all of them. -/
namespace WitnessLang.Surface

open Grammar

section Spans

variable {file : Nat}

/-- Tokens of a file one after the other, none of them empty. -/
structure InOrder (file : Nat) (ts : List Token) : Prop where
  file : ∀ t ∈ ts, t.span.file = file
  filled : ∀ t ∈ ts, t.span.start < t.span.stop
  apart : ts.Pairwise fun t u => t.span.stop ≤ u.span.start

/-- A place in a file that holds a byte and lies inside another one. -/
structure In (file : Nat) (outer s : Span) : Prop where
  file : s.file = file
  filled : s.start < s.stop
  first : outer.start ≤ s.start
  last : s.stop ≤ outer.stop

variable {outer mid s t : Span}

theorem In.trans (first : In file outer mid) (second : In file mid s) : In file outer s :=
  ⟨second.file, second.filled, Nat.le_trans first.first second.first, Nat.le_trans second.last first.last⟩

theorem In.refl (inside : In file outer s) : In file s s := ⟨inside.file, inside.filled, Nat.le_refl _, Nat.le_refl _⟩

theorem In.nested {what : String} (inside : In file outer s) : nested file what s outer = .ok () := by
  have filled := inside.filled
  have notEmpty : ¬ s.isEmpty = true := by simp [Span.isEmpty, Nat.ne_of_lt filled]
  have same : ¬ (s.file != file) = true := by simp [inside.file]
  have within : s.inside outer = true := by simp [Span.inside, inside.first, inside.last]
  rw [Surface.nested, if_neg notEmpty, if_neg same, if_pos within]

theorem cover_eq (file : Nat) {s t : Span} (first : s.file = file) (second : t.file = file) :
    s.cover t = ⟨min s.start t.start, max s.stop t.stop, file⟩ := by
  have same : ¬ (s.file != t.file) = true := by simp [first, second]
  rw [Span.cover, if_neg same, first]

/-- Both spans lie inside what covers them. -/
theorem In.cover (first : In file outer s) (second : In file outer t) :
    In file outer (s.cover t) ∧ In file (s.cover t) s ∧ In file (s.cover t) t := by
  obtain ⟨file₁, filled₁, first₁, last₁⟩ := first
  obtain ⟨file₂, filled₂, first₂, last₂⟩ := second
  rw [cover_eq file file₁ file₂]
  refine ⟨⟨rfl, ?_, ?_, ?_⟩, ⟨file₁, filled₁, ?_, ?_⟩, ⟨file₂, filled₂, ?_, ?_⟩⟩ <;> dsimp only <;> omega

variable {ts us : List Token} {a : Token}

theorem InOrder.sublist (ordered : InOrder file ts) (sub : us.Sublist ts) : InOrder file us :=
  ⟨fun t member => ordered.file t (sub.subset member), fun t member => ordered.filled t (sub.subset member),
    ordered.apart.sublist sub⟩

/-- Of some tokens none stands before the first. -/
theorem InOrder.first_le (ordered : InOrder file (a :: ts)) : ∀ t ∈ a :: ts, a.span.start ≤ t.span.start := by
  intro t member
  rcases List.mem_cons.mp member with rfl | later
  · exact Nat.le_refl _
  · have apart := (List.pairwise_cons.mp ordered.apart).1 t later
    have filled := ordered.filled a List.mem_cons_self
    omega

theorem endSpan_mem (a : Token) (ts : List Token) : ∃ t ∈ a :: ts, endSpan a.span ts = t.span := by
  induction ts generalizing a with
  | nil => exact ⟨a, List.mem_cons_self, rfl⟩
  | cons b ts ih =>
    obtain ⟨t, member, same⟩ := ih b
    rw [endSpan_cons]
    exact ⟨t, List.mem_cons_of_mem _ member, same⟩

/-- Of some tokens none stands behind the last. -/
theorem InOrder.le_last (ordered : InOrder file (a :: ts)) :
    ∀ t ∈ a :: ts, t.span.stop ≤ (endSpan a.span ts).stop := by
  induction ts generalizing a with
  | nil =>
    intro t member
    rw [List.mem_singleton.mp member]
    exact Nat.le_refl _
  | cons b ts ih =>
    have last := ih (ordered.sublist (List.sublist_cons_self _ _))
    rw [endSpan_cons]
    intro t member
    rcases List.mem_cons.mp member with rfl | later
    · have apart := (List.pairwise_cons.mp ordered.apart).1 b List.mem_cons_self
      have filled := ordered.filled b (List.mem_cons_of_mem _ List.mem_cons_self)
      have before := last b List.mem_cons_self
      omega
    · exact last t later

/-- Some tokens span from the start of the first to the end of the last. -/
theorem InOrder.spanOf_eq (ordered : InOrder file (a :: ts)) :
    spanOf (a :: ts) = ⟨a.span.start, (endSpan a.span ts).stop, file⟩ := by
  obtain ⟨t, member, same⟩ := endSpan_mem a ts
  have first := ordered.first_le t member
  have last := ordered.le_last a List.mem_cons_self
  rw [spanOf, cover_eq file (ordered.file a List.mem_cons_self) (by rw [same, ordered.file t member]), same,
    Nat.min_eq_left first, ← same, Nat.max_eq_right last]

theorem spanOf_singleton (a : Token) : spanOf [a] = a.span := by
  simp [spanOf, Span.cover]

theorem InOrder.inside (ordered : InOrder file ts) (member : a ∈ ts) : In file (spanOf ts) a.span := by
  obtain ⟨b, us, rfl⟩ := List.exists_cons_of_ne_nil (List.ne_nil_of_mem member)
  rw [ordered.spanOf_eq]
  exact ⟨ordered.file a member, ordered.filled a member, ordered.first_le a member, ordered.le_last a member⟩

/-- What spans fewer of the tokens lies inside what spans more. -/
theorem InOrder.spanOf_inside (ordered : InOrder file ts) (sub : us.Sublist ts) (some : us ≠ []) :
    In file (spanOf ts) (spanOf us) := by
  obtain ⟨b, us, rfl⟩ := List.exists_cons_of_ne_nil some
  obtain ⟨t, member, same⟩ := endSpan_mem b us
  have first := ordered.inside (sub.subset List.mem_cons_self)
  have last := ordered.inside (sub.subset member)
  have filled := (ordered.sublist sub).le_last b List.mem_cons_self
  rw [(ordered.sublist sub).spanOf_eq, same]
  rw [same] at filled
  exact ⟨rfl, Nat.lt_of_lt_of_le first.filled filled, first.first, last.last⟩

theorem InOrder.whole (ordered : InOrder file ts) (some : ts ≠ []) : In file (spanOf ts) (spanOf ts) :=
  ordered.spanOf_inside (List.Sublist.refl ts) some

theorem InOrder.spanOf_stop_le (ordered : InOrder file ts) (some : ts ≠ []) {n : Nat}
    (bound : ∀ t ∈ ts, t.span.stop ≤ n) : (spanOf ts).stop ≤ n := by
  obtain ⟨b, ts, rfl⟩ := List.exists_cons_of_ne_nil some
  obtain ⟨t, member, same⟩ := endSpan_mem b ts
  rw [ordered.spanOf_eq, same]
  exact bound t member

theorem InOrder.cover_end (ordered : InOrder file (ts ++ a :: us)) (some : ts ≠ []) :
    (spanOf ts).cover (endSpan a.span us) = spanOf (ts ++ a :: us) := by
  obtain ⟨b, ts, rfl⟩ := List.exists_cons_of_ne_nil some
  obtain ⟨t, member, same⟩ := endSpan_mem b ts
  obtain ⟨u, member', same'⟩ := endSpan_mem a us
  have front := ordered.sublist (List.sublist_append_left (b :: ts) (a :: us))
  rw [List.cons_append] at ordered ⊢
  have place : u ∈ b :: (ts ++ a :: us) := List.mem_append_right (b :: ts) member'
  have first := ordered.first_le u place
  have last := ordered.le_last t (List.mem_append_left (a :: us) member)
  rw [endSpan_append, endSpan_cons, same'] at last
  rw [front.spanOf_eq, ordered.spanOf_eq, endSpan_append, endSpan_cons, same, same',
    cover_eq file rfl (ordered.file u place), Nat.min_eq_left first, Nat.max_eq_right last]

theorem InOrder.cover (ordered : InOrder file (ts ++ us)) (some : ts ≠ []) (some' : us ≠ []) :
    (spanOf ts).cover (spanOf us) = spanOf (ts ++ us) := by
  obtain ⟨a, us, rfl⟩ := List.exists_cons_of_ne_nil some'
  have back := ordered.sublist (List.sublist_append_right ts (a :: us))
  obtain ⟨b, ts, rfl⟩ := List.exists_cons_of_ne_nil some
  rw [← ordered.cover_end some, back.spanOf_eq]
  obtain ⟨u, member, same⟩ := endSpan_mem a us
  have front := ordered.sublist (List.sublist_append_left (b :: ts) (a :: us))
  have first : b.span.start ≤ a.span.start := ordered.first_le a (by simp)
  have second : b.span.start ≤ u.span.start := ordered.first_le u (List.mem_append_right (b :: ts) member)
  rw [front.spanOf_eq, same, cover_eq file rfl rfl, cover_eq file rfl (back.file u member), Nat.min_eq_left first,
    Nat.min_eq_left second]

theorem InOrder.cover_cons (ordered : InOrder file (a :: us)) (some : us ≠ []) :
    a.span.cover (spanOf us) = spanOf (a :: us) := by
  rw [← spanOf_singleton a]
  exact InOrder.cover (show InOrder file ([a] ++ us) from ordered) (List.cons_ne_nil _ _) some

/-- What stands behind a token is some of all the tokens. -/
theorem sublist_behind (ts : List Token) (a : Token) (us : List Token) : us.Sublist (ts ++ a :: us) :=
  (List.sublist_cons_self a us).trans (List.sublist_append_right ts (a :: us))

/-- What stands next behind the first token is some of all the tokens. -/
theorem sublist_next (a : Token) (ts us : List Token) : ts.Sublist (a :: (ts ++ us)) :=
  (List.sublist_append_left ts us).trans (List.sublist_cons_self a _)

end Spans

section Fits

variable {file : Nat} {ts us : List Token} {s outer : Span} {check : Span → Except SpanFault Unit}

/-- A node that derives from `ts` stands inside what they span, and its check succeeds inside whatever it stands
in. -/
structure Fits (file : Nat) (ts : List Token) (s : Span) (check : Span → Except SpanFault Unit) : Prop where
  inside : In file (spanOf ts) s
  checked (outer : Span) : In file outer s → check outer = .ok ()

theorem Fits.ne_nil (fits : Fits file ts s check) : ts ≠ [] := by
  rintro rfl
  obtain ⟨-, filled, -, last⟩ := fits.inside
  exact Nat.not_lt_zero _ (Nat.lt_of_lt_of_le filled last)

/-- It stands inside what spans more tokens. -/
theorem Fits.within (fits : Fits file us s check) (ordered : InOrder file ts) (sub : us.Sublist ts) :
    In file (spanOf ts) s := (ordered.spanOf_inside sub fits.ne_nil).trans fits.inside

theorem Fits.mono (fits : Fits file us s check) (ordered : InOrder file ts) (sub : us.Sublist ts) :
    Fits file ts s check := ⟨fits.within ordered sub, fits.checked⟩

/-- A node that spans just the tokens it derives from. -/
structure Whole (file : Nat) (ts : List Token) (s : Span) (check : Span → Except SpanFault Unit) : Prop where
  exact : s = spanOf ts
  some : ts ≠ []
  checked (outer : Span) : In file outer s → check outer = .ok ()

theorem Whole.fits (whole : Whole file ts s check) (ordered : InOrder file ts) : Fits file ts s check := by
  obtain ⟨rfl, some, checked⟩ := whole
  exact ⟨ordered.whole some, checked⟩

theorem ok_then {first second : Except SpanFault Unit} (own : first = .ok ()) (others : second = .ok ()) :
    (first >>= fun _ => second) = .ok () := Except.bind_eq_ok.mpr ⟨(), own, others⟩

theorem items_each {α : Type} {E : List Token → α → Prop} {as : List α} (items : Items E ts as) :
    ∀ a ∈ as, ∃ us, us.Sublist ts ∧ E us a := by
  induction items with
  | nil => exact List.forall_mem_nil _
  | last own => exact List.forall_mem_singleton.mpr ⟨_, List.Sublist.refl _, own⟩
  | more own sep others ih =>
    refine List.forall_mem_cons.mpr ⟨⟨_, List.sublist_append_left _ _, own⟩, fun a member => ?_⟩
    obtain ⟨us, sub, own'⟩ := ih a member
    exact ⟨us, (sub.trans (List.sublist_cons_self _ _)).trans (List.sublist_append_right _ _), own'⟩

/-- Every element of a list derives from some of its tokens. -/
theorem enclosed_each {α : Type} {opening close : TokenKind} {E : List Token → α → Prop} {as : List α}
    (enclosed : Enclosed opening close E ts as) : ∀ a ∈ as, ∃ us, us.Sublist ts ∧ E us a := by
  obtain ⟨-, items, -⟩ := enclosed
  intro a member
  obtain ⟨us, sub, own⟩ := items_each items a member
  exact ⟨us, (sub.trans (List.sublist_append_left _ _)).trans (List.sublist_cons_self _ _), own⟩

end Fits

section Types

variable {file : Nat} {E : List Token → TypeExpr → Prop}

theorem TypeExpr.checkSpansAll_ok {outer : Span} {ts : List TypeExpr}
    (each : ∀ t ∈ ts, t.checkSpans file outer = .ok ()) : TypeExpr.checkSpansAll file outer ts = .ok () := by
  induction ts with
  | nil => rfl
  | cons t ts ih =>
    obtain ⟨own, others⟩ := List.forall_mem_cons.mp each
    exact ok_then own (ih others)

/-- What spans more tokens than a type derives from is fine for it to stand in. -/
def TypesFit (file : Nat) (E : List Token → TypeExpr → Prop) : Prop :=
  ∀ ts t, E ts t → InOrder file ts → Whole file ts t.span fun outer => t.checkSpans file outer

theorem TypesFit.child (inside : TypesFit file E) {ts us : List Token} {t : TypeExpr} (ordered : InOrder file ts)
    (sub : us.Sublist ts) (own : E us t) : t.checkSpans file (spanOf ts) = .ok () := by
  have whole := inside us t own (ordered.sublist sub)
  exact whole.checked _ ((whole.fits (ordered.sublist sub)).within ordered sub)

theorem typeForm_fits (inside : TypesFit file E) : TypesFit file (TypeForm E) := by
  intro ts t form ordered
  cases form with
  | @named t name => exact ⟨(spanOf_singleton t).symm, List.cons_ne_nil _ _, fun outer place => place.nested⟩
  | @apply t us args name list =>
    obtain ⟨o, vs, rfl⟩ := list.cons
    have exact : t.span.cover (spanOf (o :: vs)) = spanOf (t :: o :: vs) := ordered.cover_cons (List.cons_ne_nil _ _)
    refine ⟨exact, List.cons_ne_nil _ _, fun outer place => ok_then place.nested ?_⟩
    rw [exact]
    refine TypeExpr.checkSpansAll_ok fun u member => ?_
    obtain ⟨ws, sub, own⟩ := enclosed_each list u member
    exact inside.child ordered (sub.trans (List.sublist_cons_self _ _)) own
  | @func us vs arrow args result list sign own =>
    obtain ⟨o, ws, rfl⟩ := list.cons
    have exact : (spanOf (o :: ws)).cover (endSpan arrow.span vs) = spanOf (o :: ws ++ arrow :: vs) :=
      ordered.cover_end (List.cons_ne_nil _ _)
    refine ⟨exact, List.cons_ne_nil _ _, fun outer place => ok_then place.nested (ok_then ?_ ?_)⟩
    · rw [exact]
      refine TypeExpr.checkSpansAll_ok fun u member => ?_
      obtain ⟨ws, sub, own⟩ := enclosed_each list u member
      exact inside.child ordered (sub.trans (List.sublist_append_left _ _)) own
    · rw [exact]
      exact inside.child ordered (sublist_behind _ _ _) own

theorem types_fit (file : Nat) : TypesFit file IsType := by
  intro ts t own ordered
  induction own with
  | build _ form ih => exact typeForm_fits ih _ _ form ordered

end Types

section Patterns

variable {file : Nat} {E : List Token → Pattern → Prop}

theorem Pattern.checkSpansFields_ok {outer : Span} {fs : List FieldPattern}
    (each : ∀ f ∈ fs, In file outer f.span ∧ f.pattern.checkSpans file f.span = .ok ()) :
    Pattern.checkSpansFields file outer fs = .ok () := by
  induction fs with
  | nil => rfl
  | cons f fs ih =>
    obtain ⟨⟨place, own⟩, others⟩ := List.forall_mem_cons.mp each
    cases f
    exact ok_then place.nested (ok_then own (ih others))

/-- What spans more tokens than a pattern derives from is fine for it to stand in. -/
def PatternsFit (file : Nat) (E : List Token → Pattern → Prop) : Prop :=
  ∀ ts p, E ts p → InOrder file ts → Whole file ts p.span fun outer => p.checkSpans file outer

theorem PatternsFit.child (inside : PatternsFit file E) {ts us : List Token} {p : Pattern} (ordered : InOrder file ts)
    (sub : us.Sublist ts) (own : E us p) : p.checkSpans file (spanOf ts) = .ok () := by
  have whole := inside us p own (ordered.sublist sub)
  exact whole.checked _ ((whole.fits (ordered.sublist sub)).within ordered sub)

theorem fieldPattern_fits (inside : PatternsFit file E) {ts : List Token} {f : FieldPattern}
    (form : FieldPatternForm E ts f) (ordered : InOrder file ts) :
    Whole file ts f.span fun _ => f.pattern.checkSpans file f.span := by
  cases form with
  | @short t name => exact ⟨(spanOf_singleton t).symm, List.cons_ne_nil _ _, fun outer place => place.refl.nested⟩
  | @long t colon us p name sign own =>
    have exact : t.span.cover (endSpan colon.span us) = spanOf (t :: colon :: us) := by simp [spanOf]
    refine ⟨exact, List.cons_ne_nil _ _, fun outer place => ?_⟩
    rw [exact]
    exact inside.child ordered ((List.sublist_cons_self _ _).trans (List.sublist_cons_self _ _)) own

theorem patternForm_fits (inside : PatternsFit file E) : PatternsFit file (PatternForm E) := by
  intro ts p form ordered
  cases form with
  | @var t name => exact ⟨(spanOf_singleton t).symm, List.cons_ne_nil _ _, fun outer place => place.nested⟩
  | @record t us fields name list =>
    obtain ⟨o, vs, rfl⟩ := list.cons
    have exact : t.span.cover (spanOf (o :: vs)) = spanOf (t :: o :: vs) := ordered.cover_cons (List.cons_ne_nil _ _)
    refine ⟨exact, List.cons_ne_nil _ _, fun outer place => ok_then place.nested ?_⟩
    rw [exact]
    refine Pattern.checkSpansFields_ok fun f member => ?_
    obtain ⟨ws, sub, own⟩ := enclosed_each list f member
    have sub' := sub.trans (List.sublist_cons_self t _)
    have whole := fieldPattern_fits inside own (ordered.sublist sub')
    have place := (whole.fits (ordered.sublist sub')).within ordered sub'
    exact ⟨place, whole.checked _ place⟩

theorem patterns_fit (file : Nat) : PatternsFit file IsPattern := by
  intro ts p own ordered
  induction own with
  | build _ form ih => exact patternForm_fits ih _ _ form ordered

theorem param_fits {ts : List Token} {p : Param} (form : IsParam ts p) (ordered : InOrder file ts) :
    Whole file ts p.span fun outer => p.checkSpans file outer := by
  obtain @⟨ts, us, colon, p, t, pattern, sign, type⟩ := form
  have first := patterns_fit file ts p pattern (ordered.sublist (List.sublist_append_left _ _))
  have exact : p.span.cover (endSpan colon.span us) = spanOf (ts ++ colon :: us) := by
    rw [first.exact]
    exact ordered.cover_end first.some
  refine ⟨exact, by simp, fun outer place => ok_then place.nested (ok_then ?_ ?_)⟩
  · rw [exact]
    exact (patterns_fit file).child ordered (List.sublist_append_left _ _) pattern
  · rw [exact]
    exact (types_fit file).child ordered (sublist_behind _ _ _) type

/-- The parameters of a list fit into whatever spans the list. -/
theorem params_fit {opening close : TokenKind} {ts us : List Token} {ps : List Param}
    (list : Enclosed opening close IsParam us ps) (ordered : InOrder file ts) (sub : us.Sublist ts) :
    ps.forM (Param.checkSpans file (spanOf ts)) = .ok () := by
  refine forM_eq_ok.mpr fun p member => ?_
  obtain ⟨ws, sub', own⟩ := enclosed_each list p member
  have whole := param_fits own (ordered.sublist (sub'.trans sub))
  exact whole.checked _ ((whole.fits (ordered.sublist (sub'.trans sub))).within ordered (sub'.trans sub))

end Patterns

section Expressions

variable {file : Nat} {E : List Token → Expr → Prop}

theorem Expr.checkSpansAll_ok {outer : Span} {es : List Expr} (each : ∀ e ∈ es, e.checkSpans file outer = .ok ()) :
    Expr.checkSpansAll file outer es = .ok () := by
  induction es with
  | nil => rfl
  | cons e es ih =>
    obtain ⟨own, others⟩ := List.forall_mem_cons.mp each
    exact ok_then own (ih others)

theorem Expr.checkSpansFields_ok {outer : Span} {fs : List FieldInit}
    (each : ∀ f ∈ fs, In file outer f.span ∧ f.value.checkSpans file outer = .ok ()) :
    Expr.checkSpansFields file outer fs = .ok () := by
  induction fs with
  | nil => rfl
  | cons f fs ih =>
    obtain ⟨⟨place, own⟩, others⟩ := List.forall_mem_cons.mp each
    cases f
    exact ok_then place.nested (ok_then own (ih others))

theorem Expr.checkSpansLets_ok {outer : Span} {ls : List Let}
    (each : ∀ l ∈ ls, In file outer l.span ∧ l.pattern.checkSpans file l.span = .ok () ∧
      l.value.checkSpans file l.span = .ok ()) : Expr.checkSpansLets file outer ls = .ok () := by
  induction ls with
  | nil => rfl
  | cons l ls ih =>
    obtain ⟨⟨place, pattern, value⟩, others⟩ := List.forall_mem_cons.mp each
    cases l
    exact ok_then place.nested (ok_then pattern (ok_then value (ih others)))

theorem Expr.checkSpansArms_ok {outer : Span} {as : List Arm}
    (each : ∀ a ∈ as, In file outer a.span ∧ a.pattern.checkSpans file a.span = .ok () ∧
      a.body.checkSpans file a.span = .ok ()) : Expr.checkSpansArms file outer as = .ok () := by
  induction as with
  | nil => rfl
  | cons a as ih =>
    obtain ⟨⟨place, pattern, body⟩, others⟩ := List.forall_mem_cons.mp each
    cases a
    exact ok_then place.nested (ok_then pattern (ok_then body (ih others)))

/-- What spans more tokens than an expression derives from is fine for it to stand in. The expression may span fewer
than it derives from. -/
def ExprsFit (file : Nat) (E : List Token → Expr → Prop) : Prop :=
  ∀ ts e, E ts e → InOrder file ts → Fits file ts e.span fun outer => e.checkSpans file outer

theorem ExprsFit.child (inside : ExprsFit file E) {ts us : List Token} {e : Expr} (ordered : InOrder file ts)
    (sub : us.Sublist ts) (own : E us e) : e.checkSpans file (spanOf ts) = .ok () := by
  have fits := inside us e own (ordered.sublist sub)
  exact fits.checked _ (fits.within ordered sub)

theorem arm_fits (inside : ExprsFit file E) {ts : List Token} {a : Arm} (form : ArmForm E ts a)
    (ordered : InOrder file ts) :
    Whole file ts a.span fun _ => a.pattern.checkSpans file a.span >>= fun _ => a.body.checkSpans file a.span := by
  obtain @⟨ts, us, arrow, p, body, pattern, sign, own⟩ := form
  have first := patterns_fit file ts p pattern (ordered.sublist (List.sublist_append_left _ _))
  have exact : p.span.cover (endSpan arrow.span us) = spanOf (ts ++ arrow :: us) := by
    rw [first.exact]
    exact ordered.cover_end first.some
  refine ⟨exact, by simp, fun outer place => ok_then ?_ ?_⟩
  · rw [exact]
    exact (patterns_fit file).child ordered (List.sublist_append_left _ _) pattern
  · rw [exact]
    exact inside.child ordered (sublist_behind _ _ _) own

theorem arms_each {ts : List Token} {as : List Arm} (arms : Arms E ts as) :
    ∀ a ∈ as, ∃ us, us.Sublist ts ∧ ArmForm E us a := by
  induction arms with
  | last own => exact List.forall_mem_singleton.mpr ⟨_, List.Sublist.refl _, own⟩
  | closed own sep => exact List.forall_mem_singleton.mpr ⟨_, List.sublist_append_left _ _, own⟩
  | more own sep others ih =>
    refine List.forall_mem_cons.mpr ⟨⟨_, List.sublist_append_left _ _, own⟩, fun a member => ?_⟩
    obtain ⟨us, sub, own'⟩ := ih a member
    exact ⟨us, (sub.trans (List.sublist_cons_self _ _)).trans (List.sublist_append_right _ _), own'⟩

theorem let_fits (inside : ExprsFit file E) {ts : List Token} {l : Let} (form : LetForm E ts l)
    (ordered : InOrder file ts) :
    Whole file ts l.span fun _ => l.pattern.checkSpans file l.span >>= fun _ => l.value.checkSpans file l.span := by
  obtain @⟨ts, us, start, assign, semicolon, p, value, word, pattern, sign, own, close⟩ := form
  have exact : start.span.cover semicolon.span = spanOf (start :: (ts ++ assign :: (us ++ [semicolon]))) := by
    simp [spanOf]
  refine ⟨exact, List.cons_ne_nil _ _, fun outer place => ok_then ?_ ?_⟩
  · rw [exact]
    exact (patterns_fit file).child ordered (sublist_next _ _ _) pattern
  · rw [exact]
    refine inside.child ordered ?_ own
    have first := (List.sublist_append_left us [semicolon]).trans (List.sublist_cons_self assign _)
    exact (first.trans (List.sublist_append_right ts _)).trans (List.sublist_cons_self _ _)

theorem lets_each {ts : List Token} {ls : List Let} (lets : Lets E ts ls) :
    ∀ l ∈ ls, ∃ us, us.Sublist ts ∧ LetForm E us l := by
  induction lets with
  | nil => exact List.forall_mem_nil _
  | cons own others ih =>
    refine List.forall_mem_cons.mpr ⟨⟨_, List.sublist_append_left _ _, own⟩, fun l member => ?_⟩
    obtain ⟨us, sub, own'⟩ := ih l member
    exact ⟨us, sub.trans (List.sublist_append_right _ _), own'⟩

theorem atomForm_fits (inside : ExprsFit file E) : ExprsFit file (AtomForm E) := by
  intro ts e form ordered
  cases form with
  | @number t bits kind value =>
    exact Whole.fits ⟨(spanOf_singleton t).symm, List.cons_ne_nil _ _, fun outer place => place.nested⟩ ordered
  | @true t kind =>
    exact Whole.fits ⟨(spanOf_singleton t).symm, List.cons_ne_nil _ _, fun outer place => place.nested⟩ ordered
  | @false t kind =>
    exact Whole.fits ⟨(spanOf_singleton t).symm, List.cons_ne_nil _ _, fun outer place => place.nested⟩ ordered
  | @var t name =>
    exact Whole.fits ⟨(spanOf_singleton t).symm, List.cons_ne_nil _ _, fun outer place => place.nested⟩ ordered
  | @record t us fields name list =>
    obtain ⟨o, vs, rfl⟩ := list.cons
    have exact : t.span.cover (spanOf (o :: vs)) = spanOf (t :: o :: vs) := ordered.cover_cons (List.cons_ne_nil _ _)
    refine Whole.fits ⟨exact, List.cons_ne_nil _ _, fun outer place => ok_then place.nested (ok_then ?_ ?_)⟩ ordered
    · rw [exact]
      exact (ordered.inside List.mem_cons_self).nested
    · rw [exact]
      refine Expr.checkSpansFields_ok fun f member => ?_
      obtain ⟨ws, sub, own⟩ := enclosed_each list f member
      have sub' := sub.trans (List.sublist_cons_self t _)
      obtain @⟨n, colon, us, value, name', sign, own⟩ := own
      refine ⟨ordered.inside (sub'.subset List.mem_cons_self), ?_⟩
      exact inside.child ordered (((List.sublist_cons_self _ _).trans (List.sublist_cons_self _ _)).trans sub') own
  | @block o close ts us ls result opened lets own closed =>
    have exact : o.span.cover close.span = spanOf (o :: (ts ++ (us ++ [close]))) := by simp [spanOf]
    refine Whole.fits ⟨exact, List.cons_ne_nil _ _, fun outer place => ok_then place.nested (ok_then ?_ ?_)⟩ ordered
    · rw [exact]
      refine Expr.checkSpansLets_ok fun l member => ?_
      obtain ⟨ws, sub, own'⟩ := lets_each lets l member
      have sub' := (sub.trans (List.sublist_append_left ts (us ++ [close]))).trans (List.sublist_cons_self o _)
      have whole := let_fits inside own' (ordered.sublist sub')
      have place' := (whole.fits (ordered.sublist sub')).within ordered sub'
      have checked := whole.checked _ place'
      obtain ⟨⟨⟩, first, second⟩ := Except.bind_eq_ok.mp checked
      exact ⟨place', first, second⟩
    · rw [exact]
      refine inside.child ordered ?_ own
      exact ((List.sublist_append_left _ _).trans (List.sublist_append_right _ _)).trans (List.sublist_cons_self _ _)
  | @group o close ts e opened own closed =>
    have sub : ts.Sublist (o :: (ts ++ [close])) := sublist_next _ _ _
    exact (inside ts e own (ordered.sublist sub)).mono ordered sub
  | @annotated o colon close ts us e t opened own sign type closed =>
    have exact : o.span.cover close.span = spanOf (o :: (ts ++ colon :: (us ++ [close]))) := by simp [spanOf]
    refine Whole.fits ⟨exact, List.cons_ne_nil _ _, fun outer place => ok_then place.nested (ok_then ?_ ?_)⟩ ordered
    · rw [exact]
      exact inside.child ordered (sublist_next _ _ _) own
    · rw [exact]
      refine (types_fit file).child ordered ?_ type
      have first := (List.sublist_append_left us [close]).trans (List.sublist_cons_self colon _)
      exact (first.trans (List.sublist_append_right ts _)).trans (List.sublist_cons_self _ _)

/-- The span of a call holds that of its callee, and with the arguments all that is between their parentheses. The
induction follows the calls from the first one on. -/
theorem application_fits (inside : ExprsFit file E) : ExprsFit file (Application E) := by
  intro ts e form ordered
  induction form with
  | atom own => exact atomForm_fits inside _ _ own ordered
  | @call ts us callee args before list ih =>
    have left := List.sublist_append_left ts us
    have right := List.sublist_append_right ts us
    have first := (ih (ordered.sublist left)).mono ordered left
    obtain ⟨o, vs, rfl⟩ := list.cons
    obtain ⟨whole, own, rest⟩ := first.inside.cover (ordered.spanOf_inside right (List.cons_ne_nil _ _))
    refine ⟨whole, fun outer place => ok_then place.nested (ok_then (first.checked _ own) ?_)⟩
    refine Expr.checkSpansAll_ok fun a member => ?_
    obtain ⟨ws, sub, own'⟩ := enclosed_each list a member
    have fits := inside ws a own' ((ordered.sublist right).sublist sub)
    exact fits.checked _ (rest.trans (fits.within (ordered.sublist right) sub))

/-- The span of an operation holds those of its operands. -/
theorem binary_fits {ts us : List Token} {sign : Token} {op : Operator} {left right : Expr}
    (ordered : InOrder file (ts ++ sign :: us))
    (first : Fits file ts left.span fun outer => left.checkSpans file outer)
    (second : Fits file us right.span fun outer => right.checkSpans file outer) :
    Fits file (ts ++ sign :: us) (Parser.binary op left right).span
      fun outer => (Parser.binary op left right).checkSpans file outer := by
  have first' := first.mono ordered (List.sublist_append_left _ _)
  have second' := second.mono ordered (sublist_behind _ _ _)
  obtain ⟨whole, own, own'⟩ := first'.inside.cover second'.inside
  exact ⟨whole, fun outer place => ok_then place.nested (ok_then (first.checked _ own) (second.checked _ own'))⟩

theorem chain_fits {operator? : TokenKind → Option Operator} {Operand : List Token → Expr → Prop}
    (inside : ExprsFit file Operand) : ExprsFit file (Chain operator? Operand) := by
  intro ts e form ordered
  induction form with
  | single own => exact inside _ _ own ordered
  | more before operator own ih =>
    have right := inside _ _ own (ordered.sublist (sublist_behind _ _ _))
    exact binary_fits ordered (ih (ordered.sublist (List.sublist_append_left _ _))) right

theorem comparison_fits (inside : ExprsFit file E) : ExprsFit file (Comparison E) := by
  have sums : ExprsFit file (Sum E) := chain_fits (chain_fits (application_fits inside))
  intro ts e form ordered
  cases form with
  | single own => exact sums _ _ own ordered
  | less first operator second =>
    exact binary_fits ordered (sums _ _ first (ordered.sublist (List.sublist_append_left _ _)))
      (sums _ _ second (ordered.sublist (sublist_behind _ _ _)))

theorem exprForm_fits (inside : ExprsFit file E) : ExprsFit file (ExprForm E) := by
  intro ts e form ordered
  cases form with
  | comparison own => exact comparison_fits inside _ _ own ordered
  | @cond i t e ts us vs test yes no word first word₁ second word₂ third =>
    have exact : i.span.cover (endSpan e.span vs) = spanOf (i :: (ts ++ t :: (us ++ e :: vs))) := by simp [spanOf]
    have sub₁ : ts.Sublist (i :: (ts ++ t :: (us ++ e :: vs))) :=
      sublist_next _ _ _
    have tail : (us ++ e :: vs).Sublist (i :: (ts ++ t :: (us ++ e :: vs))) :=
      ((List.sublist_cons_self t _).trans (List.sublist_append_right ts _)).trans (List.sublist_cons_self _ _)
    have sub₂ := (List.sublist_append_left us (e :: vs)).trans tail
    have sub₃ := ((List.sublist_cons_self e vs).trans (List.sublist_append_right us _)).trans tail
    refine Whole.fits ⟨exact, List.cons_ne_nil _ _, fun outer place => ok_then place.nested ?_⟩ ordered
    rw [exact]
    exact ok_then (inside.child ordered sub₁ first) (ok_then (inside.child ordered sub₂ second)
      (inside.child ordered sub₃ third))
  | @case k f o close ts us scrutinee as word own word' opened alternatives closed =>
    have exact : k.span.cover close.span = spanOf (k :: (ts ++ f :: o :: (us ++ [close]))) := by simp [spanOf]
    have tail : us.Sublist (k :: (ts ++ f :: o :: (us ++ [close]))) :=
      ((((List.sublist_append_left us [close]).trans (List.sublist_cons_self o _)).trans
        (List.sublist_cons_self f _)).trans (List.sublist_append_right ts _)).trans (List.sublist_cons_self _ _)
    refine Whole.fits ⟨exact, List.cons_ne_nil _ _, fun outer place => ok_then place.nested ?_⟩ ordered
    rw [exact]
    refine ok_then (inside.child ordered (sublist_next _ _ _) own) ?_
    refine Expr.checkSpansArms_ok fun a member => ?_
    obtain ⟨ws, sub, own'⟩ := arms_each alternatives a member
    have whole := arm_fits inside own' (ordered.sublist (sub.trans tail))
    have place' := (whole.fits (ordered.sublist (sub.trans tail))).within ordered (sub.trans tail)
    obtain ⟨⟨⟩, first, second⟩ := Except.bind_eq_ok.mp (whole.checked _ place')
    exact ⟨place', first, second⟩
  | @closure bar us vs params body list own =>
    have exact : bar.span.cover (endSpan (endSpan bar.span us) vs) = spanOf (bar :: (us ++ vs)) := by simp [spanOf]
    refine Whole.fits ⟨exact, List.cons_ne_nil _ _, fun outer place => ok_then place.nested ?_⟩ ordered
    rw [exact]
    refine ok_then (params_fit list ordered ((List.sublist_append_left us vs).cons_cons bar)) ?_
    exact inside.child ordered ((List.sublist_append_right _ _).trans (List.sublist_cons_self _ _)) own

theorem exprs_fit (file : Nat) : ExprsFit file IsExpr := by
  intro ts e own ordered
  induction own with
  | build _ form ih => exact exprForm_fits ih _ _ form ordered

end Expressions

section Definitions

variable {file : Nat}

/-- The type parameters of a struct stand in it. -/
def Item.GenericsNest (file : Nat) : Item → Prop
  | .func _ => True
  | .struct s => ∀ g ∈ s.generics, nested file "generic" g.span s.span = .ok ()

theorem generics_fit {ts us : List Token} {gs : List Generic} (form : IsGenerics us gs) (ordered : InOrder file ts)
    (sub : us.Sublist ts) : ∀ g ∈ gs, nested file "generic" g.span (spanOf ts) = .ok () := by
  cases form with
  | none => exact List.forall_mem_nil _
  | some list =>
    intro g member
    obtain ⟨ws, sub', own⟩ := enclosed_each list g member
    obtain ⟨name⟩ := own
    exact (ordered.inside (sub.subset (sub'.subset List.mem_cons_self))).nested

theorem item_fits {ts : List Token} {item : Item} (form : IsItem ts item) (ordered : InOrder file ts) :
    Whole file ts item.span (fun outer => item.checkSpans file outer) ∧ item.GenericsNest file := by
  cases form with
  | @func start name colon assign gs ps rs bs generics params result body word named generic list sign type sign' own =>
    have exact : start.span.cover (endSpan assign.span bs) =
        spanOf (start :: name :: (gs ++ (ps ++ colon :: (rs ++ assign :: bs)))) := by simp [spanOf]
    have tail := ((List.sublist_append_right gs (ps ++ colon :: (rs ++ assign :: bs))).cons name).cons start
    have tail' := (sublist_behind ps colon (rs ++ assign :: bs)).trans tail
    refine ⟨⟨exact, List.cons_ne_nil _ _, fun outer place => ok_then place.nested ?_⟩, trivial⟩
    rw [exact]
    refine ok_then (ordered.inside (List.mem_cons_of_mem _ List.mem_cons_self)).nested (ok_then ?_ (ok_then ?_ ?_))
    · exact forM_eq_ok.mpr (generics_fit generic ordered (((List.sublist_append_left gs _).cons name).cons start))
    · exact params_fit list ordered ((List.sublist_append_left ps _).trans tail)
    · refine ok_then ((types_fit file).child ordered ((List.sublist_append_left rs _).trans tail') type) ?_
      exact (exprs_fit file).child ordered ((sublist_behind rs assign bs).trans tail') own
  | @struct start name gs fs generics fields word named generic list =>
    obtain ⟨o, vs, rfl⟩ := list.cons
    have exact : start.span.cover (endSpan name.span (o :: vs)) = spanOf (start :: name :: (gs ++ o :: vs)) := by
      simp [spanOf]
    have tail := ((List.sublist_append_right gs (o :: vs)).cons name).cons start
    have front := ((List.sublist_append_left gs (o :: vs)).cons name).cons start
    refine ⟨⟨exact, List.cons_ne_nil _ _, fun outer place => ok_then place.nested ?_⟩, ?_⟩
    · rw [exact]
      refine ok_then (ordered.inside (List.mem_cons_of_mem _ List.mem_cons_self)).nested (forM_eq_ok.mpr fun x member => ?_)
      obtain ⟨ws, sub, own⟩ := enclosed_each list x member
      obtain @⟨t, colon, us, type, name', sign, own⟩ := own
      have sub' := sub.trans tail
      refine ok_then (ordered.inside (sub'.subset List.mem_cons_self)).nested ?_
      exact (types_fit file).child ordered ((((List.Sublist.refl us).cons colon).cons t).trans sub') own
    · intro g member
      dsimp only
      rw [exact]
      exact generics_fit generic ordered front g member

theorem program_each {ts : List Token} {items : List Item} (program : IsProgram ts items) :
    ∀ item ∈ items, ∃ us, us.Sublist ts ∧ IsItem us item := by
  induction program with
  | nil => exact List.forall_mem_nil _
  | cons own others ih =>
    refine List.forall_mem_cons.mpr ⟨⟨_, List.sublist_append_left _ _, own⟩, fun item member => ?_⟩
    obtain ⟨us, sub, own'⟩ := ih item member
    exact ⟨us, sub.trans (List.sublist_append_right _ _), own'⟩

end Definitions

/-- The tokens of a file before its end stand in order inside the file. -/
theorem tokens_inOrder (f : SourceFile) {ts rest : List Token} (same : f.tokens = ts ++ rest)
    (before : ∀ t ∈ ts, t.kind ≠ .endOfFile) :
    InOrder f.id ts ∧ ∀ t ∈ ts, t.span.stop ≤ f.content.length := by
  have tokens := f.tokens_words
  have cut := f.words_cut
  generalize Lexer.wordsOf f.id f.content = words at tokens cut
  have sub : ts.Sublist words := by
    rw [tokens] at same
    have front : ts <+: words ++ [⟨.endOfFile, ⟨f.content.length, f.content.length, f.id⟩, ""⟩] := ⟨rest, same.symm⟩
    rcases List.prefix_concat_iff.mp front with whole | shorter
    · exact absurd rfl (before _ (whole ▸ List.mem_concat_self))
    · exact shorter.sublist
  refine ⟨⟨fun t member => ?_, fun t member => ?_, cut.apart.sublist sub⟩, fun t member => ?_⟩
  · exact (cut.placed t (sub.subset member)).1
  · exact (cut.placed t (sub.subset member)).2.1
  · exact (cut.placed t (sub.subset member)).2.2

/-- Whatever a file holds, and whether or not all of it can be read, every node of what has been read has a place
in the file that is not empty and lies inside that of the node that owns it. -/
theorem read_nested (f : SourceFile) :
    (read f).file.checkSpans f = .ok () ∧ ∀ item ∈ (read f).file.items, item.GenericsNest f.id := by
  have tokens := f.tokens_words
  generalize Lexer.wordsOf f.id f.content = words at tokens
  have all : (Cursor.ofTokens f.tokens).tokens = f.tokens := by
    rw [tokens]
    cases words <;> rfl
  have ended : (Cursor.ofTokens f.tokens).Ended := by
    refine ⟨⟨.endOfFile, ⟨f.content.length, f.content.length, f.id⟩, ""⟩, ?_, rfl⟩
    rw [all, tokens]
    exact List.mem_concat_self
  obtain ⟨ts, rest, moves, program, -⟩ := Parser.definitions_derived ⟨ended, Nat.le_refl _⟩ (Nat.le_refl _)
  have same : f.tokens = ts ++ rest.tokens := all ▸ moves.tokens
  obtain ⟨ordered, within⟩ := tokens_inOrder f same moves.inside
  have fits : ∀ item ∈ (read f).file.items, In f.id (read f).file.span item.span ∧
      item.checkSpans f.id (read f).file.span = .ok () ∧ item.GenericsNest f.id := by
    intro item member
    obtain ⟨us, sub, own⟩ := program_each program item member
    obtain ⟨whole, generics⟩ := item_fits own (ordered.sublist sub)
    have place : In f.id (read f).file.span item.span := by
      obtain ⟨file, filled, -, -⟩ := (whole.fits (ordered.sublist sub)).inside
      refine ⟨file, filled, Nat.zero_le _, ?_⟩
      rw [whole.exact]
      exact (ordered.sublist sub).spanOf_stop_le whole.some fun t member => within t (sub.subset member)
    exact ⟨place, whole.checked _ place, generics⟩
  refine ⟨?_, fun item member => (fits item member).2.2⟩
  have fine : ¬ ((read f).file.span.file != f.id || decide (f.content.length < (read f).file.span.stop)) = true := by
    simp [read]
  rw [File.checkSpans, if_neg fine]
  exact forM_eq_ok.mpr fun item member => (fits item member).2.1

end WitnessLang.Surface
