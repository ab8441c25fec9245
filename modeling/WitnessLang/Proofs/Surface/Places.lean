import WitnessLang.Proofs.Surface.Grammar
import WitnessLang.Proofs.Surface.Parsed

set_option autoImplicit false

namespace WitnessLang.Surface

open Grammar

def Cursor.tokens (c : Cursor) : List Token := c.head :: c.tail

/-- A place from which the end of the file can be reached. -/
def Cursor.Ended (c : Cursor) : Prop := ∃ t ∈ c.tokens, t.kind = .endOfFile

/-- A place with no more than `n` tokens left, one of which ends the file. -/
structure Cursor.Left (c : Cursor) (n : Nat) : Prop where
  ended : c.Ended
  size : c.size ≤ n

/-- From one place to another over some tokens, none of which ends the file. -/
structure Cursor.Moves (c : Cursor) (ts : List Token) (rest : Cursor) : Prop where
  tokens : c.tokens = ts ++ rest.tokens
  last : rest.last = endSpan c.last ts
  inside : ∀ t ∈ ts, t.kind ≠ .endOfFile

@[simp] theorem endSpan_nil (s : Span) : endSpan s [] = s := rfl

@[simp] theorem endSpan_cons (s : Span) (t : Token) (ts : List Token) : endSpan s (t :: ts) = endSpan t.span ts := by
  cases ts with
  | nil => rfl
  | cons u us => simp [endSpan, List.getLast?_cons]

@[simp] theorem endSpan_append (s : Span) (ts us : List Token) :
    endSpan s (ts ++ us) = endSpan (endSpan s ts) us := by
  induction ts generalizing s with
  | nil => rfl
  | cons t ts ih => rw [List.cons_append, endSpan_cons, endSpan_cons, ih]

namespace Cursor

variable {c d e : Cursor} {ts us : List Token}

theorem size_eq (c : Cursor) : c.size = c.tokens.length := rfl

theorem Moves.refl (c : Cursor) : c.Moves [] c := ⟨rfl, rfl, List.forall_mem_nil _⟩

theorem Moves.trans (first : c.Moves ts d) (second : d.Moves us e) : c.Moves (ts ++ us) e where
  tokens := by rw [first.tokens, second.tokens, List.append_assoc]
  last := by rw [second.last, first.last, endSpan_append]
  inside := List.forall_mem_append.mpr ⟨first.inside, second.inside⟩

theorem Moves.size (moves : c.Moves ts d) : c.size = ts.length + d.size := by
  rw [size_eq, size_eq, moves.tokens, List.length_append]

theorem Moves.ended (moves : c.Moves ts d) (ended : c.Ended) : d.Ended := by
  obtain ⟨t, member, kind⟩ := ended
  rw [moves.tokens] at member
  rcases List.mem_append.mp member with early | late
  · exact absurd kind (moves.inside t early)
  · exact ⟨t, late, kind⟩

theorem Moves.left {n : Nat} (moves : c.Moves ts d) (left : c.Left n) : d.Left n where
  ended := moves.ended left.ended
  size := by
    have size := moves.size
    have bound := left.size
    omega

/-- Taking a token leaves fewer. -/
theorem Moves.fewer {n : Nat} {t : Token} (moves : c.Moves (t :: ts) d) (left : c.Left (n + 1)) : d.Left n where
  ended := moves.ended left.ended
  size := by
    have size := moves.size
    have bound := left.size
    rw [List.length_cons] at size
    omega

theorem Left.mono {m n : Nat} (left : c.Left m) (less : m ≤ n) : c.Left n := ⟨left.ended, Nat.le_trans left.size less⟩

theorem not_left_zero : ¬ c.Left 0 := fun left => Nat.not_succ_le_zero _ left.size

theorem advance_cons {s : Span} {t u : Token} {us : List Token} (more : t.kind ≠ .endOfFile) :
    (Cursor.mk s t (u :: us)).advance = ⟨t.span, u, us⟩ := by
  unfold Cursor.advance
  split
  · exact absurd ‹_› more
  · cases ‹u :: us = []›
  · rename_i same _
    obtain ⟨rfl, rfl⟩ := List.cons.inj same
    rfl

/-- A token that does not end the file has one behind it. -/
theorem Ended.advance (ended : c.Ended) (more : c.head.kind ≠ .endOfFile) : c.Moves [c.head] c.advance := by
  obtain ⟨last, head, tail⟩ := c
  cases tail with
  | nil =>
    obtain ⟨t, member, kind⟩ := ended
    rw [List.mem_singleton.mp member] at kind
    exact absurd kind more
  | cons u us =>
    rw [advance_cons more]
    exact ⟨rfl, rfl, List.forall_mem_singleton.mpr more⟩

theorem Moves.nil (moves : c.Moves [] d) : c = d := by
  obtain ⟨last, head, tail⟩ := c
  obtain ⟨last', head', tail'⟩ := d
  obtain ⟨rfl, rfl⟩ := List.cons.inj moves.tokens
  obtain rfl : last' = last := moves.last
  rfl

/-- The first token of a way is the next one. -/
theorem Moves.first {t : Token} (moves : c.Moves (t :: ts) d) :
    c.head = t ∧ c.Moves [t] c.advance ∧ c.advance.Moves ts d := by
  obtain ⟨same, later⟩ := List.cons.inj moves.tokens
  have more : c.head.kind ≠ .endOfFile := same ▸ moves.inside t List.mem_cons_self
  obtain ⟨last, head, tail⟩ := c
  obtain rfl : head = t := same
  cases tail with
  | nil => exact absurd later.symm (List.append_ne_nil_of_right_ne_nil _ (List.cons_ne_nil _ _))
  | cons u us =>
    rw [advance_cons more]
    refine ⟨rfl, ⟨rfl, rfl, List.forall_mem_singleton.mpr more⟩, later, ?_, fun t member => ?_⟩
    · rw [moves.last, endSpan_cons]
    · exact moves.inside t (List.mem_cons_of_mem _ member)

theorem Moves.split {us : List Token} (moves : c.Moves (ts ++ us) d) : ∃ mid, c.Moves ts mid ∧ mid.Moves us d := by
  induction ts generalizing c with
  | nil => exact ⟨c, .refl c, moves⟩
  | cons t ts ih =>
    obtain ⟨-, first, later⟩ := moves.first
    obtain ⟨mid, second, third⟩ := ih later
    exact ⟨mid, first.trans second, third⟩

/-- The tokens before the end of the file are a way to it. -/
theorem Ended.stop (ended : c.Ended) :
    ∃ d, c.Moves (c.tokens.takeWhile fun t => t.kind != .endOfFile) d ∧ d.head.kind = .endOfFile := by
  induction size : c.tail.length generalizing c with
  | zero =>
    have alone : c.tokens = [c.head] := by rw [tokens, List.length_eq_zero_iff.mp size]
    obtain ⟨t, member, kind⟩ := id ended
    rw [alone, List.mem_singleton] at member
    subst member
    rw [alone, List.takeWhile_cons_of_neg (by simpa using kind)]
    exact ⟨c, .refl c, kind⟩
  | succ n ih =>
    by_cases kind : c.head.kind = .endOfFile
    · rw [tokens, List.takeWhile_cons_of_neg (by simpa using kind)]
      exact ⟨c, .refl c, kind⟩
    · have step := ended.advance kind
      have fewer : c.advance.tail.length = n := by
        have sizes := step.size
        simp only [size_eq, tokens, List.length_cons, List.length_nil] at sizes
        omega
      obtain ⟨d, moves, last⟩ := ih (step.ended ended) fewer
      rw [step.tokens, List.singleton_append, List.takeWhile_cons_of_pos (by simpa using kind)]
      exact ⟨d, step.trans moves, last⟩

/-- A way to the end of the file is made of the tokens before it. -/
theorem Moves.before (moves : c.Moves ts d) (last : d.head.kind = .endOfFile) :
    ts = c.tokens.takeWhile fun t => t.kind != .endOfFile := by
  rw [moves.tokens, List.takeWhile_append_of_pos fun t member => by simpa using moves.inside t member, Cursor.tokens,
    List.takeWhile_cons_of_neg (by simpa using last), List.append_nil]

end Cursor

theorem Grammar.Enclosed.cons {α : Type} {opening close : TokenKind} {E : List Token → α → Prop} {ts : List Token}
    {as : List α} (enclosed : Enclosed opening close E ts as) : ∃ t us, ts = t :: us := by
  cases enclosed
  exact ⟨_, _, rfl⟩

namespace Parser

variable {α β : Type}

/-- At some place two productions come to the same, and where they match they give what is said of the tokens
they take. -/
def Agree (c : Cursor) (p q : Parser α) (good : List Token → α → Prop) : Prop :=
  p c = q c ∧ ∀ a rest, p c = .ok a rest → ∃ ts, c.Moves ts rest ∧ good ts a

section Steps

variable {c : Cursor} {p q : Parser α} {f g : α → Parser β} {good : List Token → α → Prop}
  {good' : List Token → β → Prop} {e : Expectation}

theorem Agree.imp (agree : Agree c p q good) {weaker : List Token → α → Prop} (implies : ∀ ts a, good ts a → weaker ts a) :
    Agree c p q weaker := by
  refine ⟨agree.1, fun a rest ran => ?_⟩
  obtain ⟨ts, moves, own⟩ := agree.2 a rest ran
  exact ⟨ts, moves, implies ts a own⟩

theorem Agree.at {p' q' : Parser α} (agree : Agree c p' q' good) (same : p c = p' c) (same' : q c = q' c) :
    Agree c p q good := by
  rw [Agree, same, same']
  exact agree

theorem agree_pure {a : α} (own : good [] a) : Agree c (pure a) (pure a) good := by
  refine ⟨rfl, fun b rest ran => ?_⟩
  obtain ⟨rfl, rfl⟩ := Outcome.ok.inj ran
  exact ⟨[], .refl c, own⟩

theorem agree_mismatch : Agree c (mismatch e) (mismatch e) good := by
  refine ⟨rfl, fun b rest ran => ?_⟩
  cases ran

/-- What is read may depend on what is seen first. -/
theorem agree_ite {P : Cursor → Prop} [DecidablePred P] {p' q' : Parser α} (yes : P c → Agree c p q good)
    (no : ¬ P c → Agree c p' q' good) :
    Agree c (fun c => if P c then p c else p' c) (fun c => if P c then q c else q' c) good := by
  by_cases holds : P c
  · simpa only [Agree, if_pos holds] using yes holds
  · simpa only [Agree, if_neg holds] using no holds

theorem agree_if {b : Prop} [Decidable b] {p' q' : Parser α} (yes : b → Agree c p q good) (no : ¬ b → Agree c p' q' good) :
    Agree c (if b then p else p') (if b then q else q') good := by
  by_cases holds : b
  · simpa only [if_pos holds] using yes holds
  · simpa only [if_neg holds] using no holds

/-- A production, then one that depends on what it has given. -/
theorem Agree.bind (first : Agree c p q good)
    (next : ∀ ts a rest, c.Moves ts rest → good ts a → Agree rest (f a) (g a) fun us b => good' (ts ++ us) b) :
    Agree c (p >>= f) (q >>= g) good' := by
  rw [Agree, bind_apply, bind_apply, ← first.1]
  cases ran : p c with
  | ok a rest =>
    obtain ⟨ts, moves, own⟩ := first.2 a rest ran
    obtain ⟨same, after⟩ := next ts a rest moves own
    refine ⟨same, fun b rest' ran' => ?_⟩
    obtain ⟨us, moves', own'⟩ := after b rest' ran'
    exact ⟨ts ++ us, moves.trans moves', own'⟩
  | mismatch e t => exact ⟨rfl, fun b rest' ran' => by cases ran'⟩
  | failure e => exact ⟨rfl, fun b rest' ran' => by cases ran'⟩

/-- Looking at the next token takes none. -/
theorem agree_peekKind {f g : TokenKind → Parser β} (next : Agree c (f c.head.kind) (g c.head.kind) good') :
    Agree c (peekKind >>= f) (peekKind >>= g) good' := next

theorem agree_peek {f g : Token → Parser β} (next : Agree c (f c.head) (g c.head) good') :
    Agree c (peek >>= f) (peek >>= g) good' := next

theorem agree_lastSpan {f g : Span → Parser β} (next : Agree c (f c.last) (g c.last) good') :
    Agree c (lastSpan >>= f) (lastSpan >>= g) good' := next

/-- The next token is taken. -/
theorem agree_advance {v : Cursor → α} (ended : c.Ended) (more : c.head.kind ≠ .endOfFile) (own : good [c.head] (v c)) :
    Agree c (fun c => .ok (v c) c.advance) (fun c => .ok (v c) c.advance) good := by
  refine ⟨rfl, fun b rest ran => ?_⟩
  obtain ⟨rfl, rfl⟩ := Outcome.ok.inj ran
  exact ⟨[c.head], ended.advance more, own⟩

theorem agree_next (ended : c.Ended) (more : c.head.kind ≠ .endOfFile) :
    Agree c next next fun ts t => ts = [t] ∧ t = c.head := by
  refine ⟨rfl, fun b rest ran => ?_⟩
  obtain ⟨rfl, rfl⟩ := Outcome.ok.inj ran
  exact ⟨[c.head], ended.advance more, rfl, rfl⟩

theorem agree_expect (ended : c.Ended) (k : TokenKind) (more : k ≠ .endOfFile) :
    Agree c (expect k) (expect k) fun ts t => ts = [t] ∧ t.kind = k := by
  refine ⟨rfl, fun b rest ran => ?_⟩
  rw [expect] at ran
  split at ran
  · rename_i kind
    obtain ⟨rfl, rfl⟩ := Outcome.ok.inj ran
    exact ⟨[c.head], ended.advance (kind ▸ more), rfl, kind⟩
  · cases ran

theorem Agree.within {context : String} (agree : Agree c p q good) :
    Agree c (within context p) (within context q) good := by
  rw [Agree, Parser.within, Parser.within, ← agree.1]
  refine ⟨rfl, fun b rest ran => ?_⟩
  split at ran
  · rename_i a rest' read
    obtain ⟨rfl, rfl⟩ := Outcome.ok.inj ran
    exact agree.2 _ _ read
  · cases ran
  · cases ran

theorem agree_ident (ended : c.Ended) :
    Agree c ident ident fun ts n => ∃ t, ts = [t] ∧ t.kind = .identifier ∧ n = (t.text, t.span) := by
  refine (agree_expect ended _ (by decide)).bind fun ts t rest moves own => agree_pure ?_
  exact ⟨t, by rw [own.1, List.append_nil], own.2, rfl⟩

end Steps

section Within

variable {n : Nat} {p q : Parser α} {E : List Token → α → Prop}

/-- Two productions agree wherever no more than `n` tokens are left. -/
def AgreeWithin (n : Nat) (p q : Parser α) (E : List Token → α → Prop) : Prop :=
  ∀ c : Cursor, c.Left n → Agree c p q E

theorem AgreeWithin.mono {m : Nat} (agree : AgreeWithin n p q E) (less : m ≤ n) : AgreeWithin m p q E :=
  fun c left => agree c (left.mono less)

theorem agreeWithin_zero : AgreeWithin 0 p q E := fun _ left => absurd left Cursor.not_left_zero

end Within

section Recursion

variable {σ : Type} {n : Nat} {step step' : (σ → Parser α) → σ → Parser α} {readAt readAt' : Nat → σ → Parser α}
  {good : σ → List Token → α → Prop}

/-- With no more than `n` tokens left, a pass reads what is said of it from one token more than what it goes on
with. -/
def Passes (n : Nat) (step step' : (σ → Parser α) → σ → Parser α) (good : σ → List Token → α → Prop) : Prop :=
  ∀ m p q, m < n → (∀ s, AgreeWithin m (p s) (q s) (good s)) →
    ∀ s, AgreeWithin (m + 1) (step p s) (step' q s) (good s)

def Repeats (step : (σ → Parser α) → σ → Parser α) (readAt : Nat → σ → Parser α) : Prop :=
  ∀ room, readAt (room + 1) = step (readAt room)

def Solves (step : (σ → Parser α) → σ → Parser α) (p : σ → Parser α) : Prop :=
  ∀ s (c : Cursor), c.Ended → p s c = step p s c

/-- `readAt`, with the number of tokens left for a bound, is the one production that goes on with itself. -/
structure Recursive (step : (σ → Parser α) → σ → Parser α) (readAt : Nat → σ → Parser α) : Prop where
  solves : Solves step fun s c => readAt c.size s c
  unique : ∀ p, Solves step p → ∀ s (c : Cursor), c.Ended → p s c = readAt c.size s c

theorem Passes.agree (passes : Passes n step step' good) (repeats : Repeats step readAt)
    (repeats' : Repeats step' readAt') {room room' : Nat} (enough : n ≤ room) (enough' : n ≤ room') (s : σ) :
    AgreeWithin n (readAt room s) (readAt' room' s) (good s) := by
  induction n generalizing room room' s with
  | zero => exact agreeWithin_zero
  | succ n ih =>
    obtain ⟨room, rfl⟩ := Nat.exists_eq_succ_of_ne_zero (show room ≠ 0 by omega)
    obtain ⟨room', rfl⟩ := Nat.exists_eq_succ_of_ne_zero (show room' ≠ 0 by omega)
    rw [repeats, repeats']
    refine passes n _ _ (Nat.lt_succ_self n) (fun s => ?_) s
    have fewer : Passes n step step' good := fun m p q less => passes m p q (Nat.lt_succ_of_lt less)
    exact ih fewer (Nat.le_of_succ_le_succ enough) (Nat.le_of_succ_le_succ enough') s

theorem Passes.recursive (passes : ∀ n, Passes n step step good) (repeats : Repeats step readAt) :
    Recursive step readAt where
  solves := by
    intro s c ended
    have inside : ∀ s, AgreeWithin c.tail.length (readAt c.tail.length s) (fun c => readAt c.size s c) (good s) :=
      fun s d left => (passes d.size).agree repeats repeats left.size (Nat.le_refl _) s d ⟨left.ended, Nat.le_refl _⟩
    have same := passes c.size _ _ _ (Nat.lt_succ_self _) inside s c ⟨ended, Nat.le_refl _⟩
    rw [← repeats] at same
    exact same.1
  unique := by
    intro p solves s c ended
    have agree : ∀ n s, AgreeWithin n (p s) (readAt n s) (good s) := by
      intro n
      induction n with
      | zero => exact fun _ => agreeWithin_zero
      | succ n ih =>
        intro s c left
        rw [repeats]
        exact (passes (n + 1) _ _ _ (Nat.lt_succ_self n) ih s c left).at (solves s c left.ended) rfl
    exact (agree c.size s c ⟨ended, Nat.le_refl _⟩).1

/-- A production that depends on nothing but what is nested inside. -/
def alone (step : Parser α → Parser α) : (Unit → Parser α) → Unit → Parser α := fun p u => step (p u)

end Recursion

section Lists

variable {n : Nat} {p q : Parser α} {E : List Token → α → Prop}

/-- An element of a list and what stands behind it. -/
def listStep (close : TokenKind) (context : String) (p : Parser α) (self : List α → Parser (List α × Span))
    (read : List α) : Parser (List α × Span) := fun c =>
  if c.head.kind = close then .ok (read.reverse, c.head.span) c.advance
  else (within context p >>= fun a => fun c =>
    if c.head.kind = .comma then self (a :: read) c.advance
    else (fun c => if c.head.kind = close then .ok ((a :: read).reverse, c.head.span) c.advance
      else within context (mismatch (.listEnd close)) c : Parser (List α × Span)) c) c

theorem listRest_repeats (close : TokenKind) (context : String) (p : Parser α) :
    Repeats (listStep close context p) (listRest close context p) := fun _ => rfl

/-- What is said of the rest of a list behind some elements. -/
def ListRest (close : TokenKind) (E : List Token → α → Prop) (read : List α) (ts : List Token) (r : List α × Span) : Prop :=
  ∃ us c as, ts = us ++ [c] ∧ c.kind = close ∧ Items E us as ∧ r = (read.reverse ++ as, c.span)

theorem listStep_passes {close : TokenKind} {context : String} (notEnd : close ≠ .endOfFile)
    (inside : AgreeWithin n p q E) :
    Passes n (listStep close context p) (listStep close context q) (ListRest close E) := by
  intro m self self' fewer after read c left
  refine agree_ite (fun closed => ?_) fun _ => ?_
  · refine agree_advance left.ended (closed ▸ notEnd) ⟨[], c.head, [], rfl, closed, .nil, ?_⟩
    rw [List.append_nil]
  refine (inside c (left.mono fewer)).within.bind fun ts a rest moves own => ?_
  have left' := moves.left left
  refine agree_ite (fun comma => ?_) fun _ => agree_ite (fun last => ?_) fun _ => agree_mismatch.within
  · have step := left'.ended.advance (by rw [comma]; decide)
    have later := after (a :: read) rest.advance (step.fewer left')
    refine ⟨later.1, fun r stop ran => ?_⟩
    obtain ⟨vs, moves', us, c', as, rfl, closed, items, rfl⟩ := later.2 r stop ran
    refine ⟨_, step.trans moves', ts ++ rest.head :: us, c', a :: as, ?_, closed, .more own comma items, ?_⟩
    · simp
    · simp
  · refine agree_advance left'.ended (last ▸ notEnd) ⟨ts, rest.head, [a], rfl, last, .last own, ?_⟩
    rw [List.reverse_cons]

/-- A list. Its elements stand behind its first token. -/
theorem list_agree {opening close : TokenKind} {context : String}
    (notEnd : opening ≠ .endOfFile ∧ close ≠ .endOfFile) (inside : AgreeWithin n p q E) :
    AgreeWithin (n + 1) (list opening close context p) (list opening close context q)
      fun ts r => Enclosed opening close E ts r.1 ∧ r.2 = spanOf ts := by
  intro c left
  refine (agree_expect left.ended opening notEnd.1).bind fun ts t rest moves own => ?_
  obtain ⟨rfl, kind⟩ := own
  have left' := moves.fewer left
  have agree := (listStep_passes notEnd.2 (inside.mono left'.size)).agree (listRest_repeats close context p)
    (listRest_repeats close context q) (Nat.le_refl _) (Nat.le_refl _) []
  refine Agree.bind (agree rest ⟨left'.ended, Nat.le_refl _⟩) fun us r rest' moves' own' => agree_pure ?_
  obtain ⟨vs, c', as, rfl, closed, items, rfl⟩ := own'
  refine ⟨?_, ?_⟩
  · have whole := Enclosed.mk kind items closed
    simpa using whole
  · simp [spanOf]

end Lists

end Parser

end WitnessLang.Surface
