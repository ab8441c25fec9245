import Mathlib.Algebra.Group.Nat.Defs
import Mathlib.Data.List.Basic
import Mathlib.Data.List.GetD
import WitnessLang.Source.File

set_option autoImplicit false

namespace WitnessLang

def feed : UInt8 := 10

/-- An earlier line, or an earlier column of the same line. -/
def Position.Before (p q : Position) : Prop := p.line < q.line ∨ p.line = q.line ∧ p.column < q.column

section Feeds

variable {a b front tail rest : Bytes} {n offset : Nat}

theorem lineFeedsFrom_nil (n : Nat) : lineFeedsFrom n [] = [] := rfl

theorem lineFeedsFrom_cons (n : Nat) (x : UInt8) (b : Bytes) :
    lineFeedsFrom n (x :: b) = if x = 10 then n :: lineFeedsFrom (n + 1) b else lineFeedsFrom (n + 1) b := rfl

theorem lineFeeds_eq (b : Bytes) : lineFeeds b = lineFeedsFrom 0 b := rfl

theorem lineFeedsFrom_append (n : Nat) (a b : Bytes) :
    lineFeedsFrom n (a ++ b) = lineFeedsFrom n a ++ lineFeedsFrom (n + a.length) b := by
  induction a generalizing n with
  | nil => rfl
  | cons x a ih =>
    rw [List.cons_append, lineFeedsFrom_cons, lineFeedsFrom_cons, ih, List.length_cons, Nat.add_assoc, Nat.add_comm 1]
    split
    · rfl
    · rfl

theorem lineFeedsFrom_bounds : ∀ i ∈ lineFeedsFrom n b, n ≤ i ∧ i < n + b.length := by
  induction b generalizing n with
  | nil => exact List.forall_mem_nil _
  | cons x b ih =>
    have later : ∀ i ∈ lineFeedsFrom (n + 1) b, n ≤ i ∧ i < n + (x :: b).length := by
      intro i member
      have bounds := ih i member
      rw [List.length_cons]
      omega
    rw [lineFeedsFrom_cons]
    split
    · refine List.forall_mem_cons.mpr ⟨?_, later⟩
      rw [List.length_cons]
      omega
    · exact later

theorem length_lineFeedsFrom (n : Nat) (b : Bytes) : (lineFeedsFrom n b).length = b.count feed := by
  induction b generalizing n with
  | nil => rfl
  | cons x b ih =>
    rw [lineFeedsFrom_cons, List.count_cons]
    split
    · rename_i same
      rw [List.length_cons, ih, if_pos (by rw [same]; rfl)]
    · rename_i other
      rw [ih, if_neg (by simpa [feed] using other), Nat.add_zero]

theorem lineFeedsFrom_eq_nil (none : feed ∉ b) : lineFeedsFrom n b = [] := by
  rw [← List.length_eq_zero_iff, length_lineFeedsFrom, List.count_eq_zero]
  exact none

/-- The line feeds before an offset are those of the text up to it. -/
theorem takeWhile_lineFeeds (a b : Bytes) :
    (lineFeeds (a ++ b)).takeWhile (fun n => decide (n < a.length)) = lineFeeds a := by
  have early : ∀ i ∈ lineFeedsFrom 0 a, decide (i < a.length) = true := by
    intro i member
    have bounds := (lineFeedsFrom_bounds i member).2
    exact decide_eq_true (by omega)
  have late : (lineFeedsFrom (0 + a.length) b).takeWhile (fun n => decide (n < a.length)) = [] := by
    cases feeds : lineFeedsFrom (0 + a.length) b with
    | nil => rfl
    | cons i more =>
      have bounds := (lineFeedsFrom_bounds i (feeds ▸ List.mem_cons_self)).1
      exact List.takeWhile_cons_of_neg (by simp only [decide_eq_true_eq]; omega)
  rw [lineFeeds_eq, lineFeedsFrom_append, List.takeWhile_append_of_pos early, late, List.append_nil, lineFeeds_eq]

/-- A text is one line, or its last line feed is followed by one. -/
theorem exists_lastLine (b : Bytes) : feed ∉ b ∨ ∃ front tail, b = front ++ feed :: tail ∧ feed ∉ tail := by
  induction b with
  | nil => exact Or.inl List.not_mem_nil
  | cons x b ih =>
    rcases ih with none | ⟨front, tail, rfl, last⟩
    · by_cases same : x = feed
      · exact Or.inr ⟨[], b, by rw [same]; rfl, none⟩
      · exact Or.inl (by simpa [eq_comm] using And.intro same none)
    · exact Or.inr ⟨x :: front, tail, rfl, last⟩

end Feeds

namespace SourceFile

variable {f : SourceFile} {front tail rest : Bytes} {n offset : Nat}

theorem feeds_eq (split : f.content = rest) : f.lineFeeds = WitnessLang.lineFeeds rest := split ▸ rfl

theorem feeds_before (split : f.content = front ++ rest) :
    f.lineFeeds.takeWhile (fun n => decide (n < front.length)) = lineFeedsFrom 0 front := by
  rw [feeds_eq split, takeWhile_lineFeeds, lineFeeds_eq]

/-- The place behind a text without line feeds. -/
theorem position_first (split : f.content = tail ++ rest) (single : feed ∉ tail) :
    f.position tail.length = ⟨1, (tail.length + 1) % 2 ^ 32⟩ := by
  simp only [position, feeds_before split, lineFeedsFrom_eq_nil single]
  rfl

/-- The place behind a text whose last line feed is known. -/
theorem position_later (split : f.content = front ++ feed :: tail ++ rest) (single : feed ∉ tail) :
    f.position (front ++ feed :: tail).length = ⟨front.count feed + 2, tail.length + 1⟩ := by
  have feeds : lineFeedsFrom 0 (front ++ feed :: tail) = lineFeedsFrom 0 front ++ [front.length] := by
    rw [lineFeedsFrom_append, lineFeedsFrom_cons, if_pos (show feed = 10 from rfl), lineFeedsFrom_eq_nil single,
      Nat.zero_add]
  simp only [position, feeds_before split, feeds, List.getLast?_concat]
  simp only [List.length_append, length_lineFeedsFrom, List.length_cons, List.length_nil, Nat.add_sub_cancel_left]

/-- A line starts behind a line feed or at the start of the text, and goes up to the next line feed or the end. -/
theorem line_eq (split : f.content = front ++ tail ++ rest) (opened : front = [] ∨ front.getLast? = some feed)
    (single : feed ∉ tail) (closed : rest = [] ∨ rest.head? = some feed) : f.line (front.count feed + 1) = tail := by
  have feeds : f.lineFeeds = lineFeedsFrom 0 front ++ lineFeedsFrom (front.length + tail.length) rest := by
    rw [feeds_eq split, lineFeeds_eq, lineFeedsFrom_append, lineFeedsFrom_append,
      lineFeedsFrom_eq_nil single, List.append_nil, List.length_append, Nat.zero_add]
  have counted := length_lineFeedsFrom 0 front
  have start : (if front.count feed + 1 = 1 then 0 else f.lineFeeds.getD (front.count feed + 1 - 2) 0 + 1) =
      front.length := by
    rcases opened with rfl | last
    · rfl
    · obtain ⟨before, rfl⟩ := List.getLast?_eq_some_iff.mp last
      have own : lineFeedsFrom 0 (before ++ [feed]) = lineFeedsFrom 0 before ++ [before.length] := by
        rw [lineFeedsFrom_append, lineFeedsFrom_cons, if_pos (show feed = 10 from rfl), lineFeedsFrom_nil, Nat.zero_add]
      have index : (before ++ [feed]).count feed + 1 - 2 = (lineFeedsFrom 0 before).length := by
        rw [length_lineFeedsFrom, List.count_append, List.count_singleton_self]
        omega
      have several : (before ++ [feed]).count feed + 1 ≠ 1 := by
        rw [List.count_append, List.count_singleton_self]
        omega
      rw [if_neg several, feeds, own, index, List.length_append, List.length_singleton]
      simp
  have stop : f.lineFeeds.getD (front.count feed + 1 - 1) f.content.length = front.length + tail.length := by
    rw [feeds, Nat.add_sub_cancel, ← counted, List.getD_append_right _ _ _ _ (Nat.le_refl _), Nat.sub_self]
    rcases closed with rfl | next
    · rw [split, lineFeedsFrom_nil, List.getD_nil, List.append_nil, List.length_append]
    · obtain ⟨more, rfl⟩ := List.head?_eq_some_iff.mp next
      rw [lineFeedsFrom_cons, if_pos (show feed = 10 from rfl), List.getD_cons_zero]
  have known : ¬ f.lineFeeds.length + 1 < front.count feed + 1 := by
    rw [feeds, List.length_append, counted]
    omega
  rw [line, if_neg (Nat.succ_ne_zero _)]
  dsimp only
  rw [if_neg known, start, stop, Bytes.slice, split, List.append_assoc, List.drop_left, Nat.add_sub_cancel_left,
    List.take_left]

/-- The first lines, each with its line feed. -/
def above (f : SourceFile) (n : Nat) : Bytes := (List.range n).flatMap fun i => f.line (i + 1) ++ [feed]

theorem above_succ (f : SourceFile) (n : Nat) : f.above (n + 1) = f.above n ++ (f.line (n + 1) ++ [feed]) := by
  rw [above, List.range_succ, List.flatMap_append, List.flatMap_singleton, above]

/-- Where the lines above a line stop. -/
theorem above_opened (f : SourceFile) (n : Nat) : f.above n = [] ∨ (f.above n).getLast? = some feed := by
  cases n with
  | zero => exact Or.inl rfl
  | succ n =>
    rw [above_succ, ← List.append_assoc]
    exact Or.inr List.getLast?_concat

/-- As many lines as there are line feeds stand at the start of a text, and hold as many of them. The induction is on
their number: each takes the rest up to its next line feed. -/
theorem exists_below (f : SourceFile) (known : n ≤ f.content.count feed) :
    ∃ rest, f.content = f.above n ++ rest ∧ (f.above n).count feed = n := by
  induction n with
  | zero => exact ⟨f.content, rfl, rfl⟩
  | succ n ih =>
    obtain ⟨rest, split, count⟩ := ih (Nat.le_of_succ_le known)
    have more : feed ∈ rest := by
      rw [split, List.count_append, count] at known
      exact List.count_pos_iff.mp (by omega)
    obtain ⟨tail, after, rfl, single⟩ := List.eq_append_cons_of_mem more
    have own : f.line (n + 1) = tail := by
      have cut : f.content = f.above n ++ tail ++ feed :: after := by rw [split, List.append_assoc]
      have here := line_eq cut (f.above_opened n) single (Or.inr rfl)
      rwa [count] at here
    refine ⟨after, ?_, ?_⟩
    · rw [above_succ, own, split]
      simp
    · rw [above_succ, own, List.count_append, count, List.count_append, List.count_eq_zero.mpr single]
      simp

/-- A text up to some byte is the lines above and the start of a line that ends at the next line feed. -/
theorem eq_above (split : f.content = front ++ tail ++ rest) (opened : front = [] ∨ front.getLast? = some feed) :
    front = f.above (front.count feed) := by
  have count : front.count feed ≤ f.content.count feed := by
    rw [split, List.count_append, List.count_append]
    omega
  obtain ⟨below, again, same⟩ := f.exists_below count
  -- Two beginnings of one text that hold as many line feeds and end with one are the same.
  have ended : f.above (front.count feed) = [] ∨ (f.above (front.count feed)).getLast? = some feed := f.above_opened _
  rw [split, List.append_assoc] at again
  have alike : ∀ {x y z w : Bytes}, x ++ z = y ++ w → x.length ≤ y.length → x.count feed = y.count feed →
      (y = [] ∨ y.getLast? = some feed) → x = y := by
    intro x y z w whole short counts closed
    obtain ⟨more, rfl⟩ : x <+: y := List.prefix_of_prefix_length_le ⟨z, whole⟩ ⟨w, rfl⟩ short
    have none : feed ∉ more := by
      rw [List.count_append] at counts
      exact List.count_eq_zero.mp (by omega)
    rcases closed with empty | last
    · rw [List.append_eq_nil_iff] at empty
      rw [empty.1, empty.2, List.append_nil]
    · cases more with
      | nil => rw [List.append_nil]
      | cons c more =>
        rw [List.getLast?_append_cons] at last
        exact absurd (List.mem_of_getLast? last) none
  rcases Nat.le_total front.length (f.above (front.count feed)).length with short | long
  · exact alike again short same.symm ended
  · exact (alike again.symm long same opened).symm

/-- An offset is in the line of its place, behind as many bytes of it as the column says. -/
structure StandsAt (f : SourceFile) (offset : Nat) (p : Position) : Prop where
  line : p.line = (f.content.take offset).count feed + 1
  column : 1 ≤ p.column
  inLine : p.column - 1 ≤ (f.line p.line).length
  before : f.content.take offset = f.above (p.line - 1) ++ (f.line p.line).take (p.column - 1)

/-- Where an offset is in its line. -/
theorem standsAt_of_split (split : f.content = front ++ tail ++ rest) (opened : front = [] ∨ front.getLast? = some feed)
    (single : feed ∉ tail) : f.StandsAt (front ++ tail).length ⟨front.count feed + 1, tail.length + 1⟩ := by
  have cut : rest.takeWhile (· != feed) ++ rest.dropWhile (· != feed) = rest := List.takeWhile_append_dropWhile
  have whole : feed ∉ tail ++ rest.takeWhile (· != feed) := by
    rw [List.mem_append, not_or]
    refine ⟨single, fun member => ?_⟩
    exact absurd (List.all_eq_true.mp List.all_takeWhile _ member) (by decide)
  have own : f.line (front.count feed + 1) = tail ++ rest.takeWhile (· != feed) := by
    have again : f.content = front ++ (tail ++ rest.takeWhile (· != feed)) ++ rest.dropWhile (· != feed) := by
      rw [split, List.append_assoc, List.append_assoc, List.append_assoc, cut]
    refine line_eq again opened whole ?_
    cases left : rest.dropWhile (· != feed) with
    | nil => exact Or.inl rfl
    | cons c more =>
      have stops := List.head?_dropWhile_not (· != feed) rest
      rw [left] at stops
      exact Or.inr (by simpa using stops)
  have upTo : f.content.take (front ++ tail).length = front ++ tail := by rw [split, List.take_left]
  refine ⟨?_, Nat.le_add_left _ _, ?_, ?_⟩
  · rw [upTo, List.count_append, List.count_eq_zero.mpr single, Nat.add_zero]
  · rw [own, List.length_append]
    simp
  · rw [upTo, own, Nat.add_sub_cancel, Nat.add_sub_cancel, List.take_left, ← eq_above split opened]

/-- The place behind a text that is cut behind its last line feed. -/
theorem position_of_split (split : f.content = front ++ tail ++ rest) (opened : front = [] ∨ front.getLast? = some feed)
    (single : feed ∉ tail) : f.position (front ++ tail).length =
      ⟨front.count feed + 1, if front = [] then (tail.length + 1) % 2 ^ 32 else tail.length + 1⟩ := by
  rcases opened with rfl | last
  · rw [if_pos rfl, List.count_nil, List.nil_append]
    exact position_first split single
  · obtain ⟨before, rfl⟩ := List.getLast?_eq_some_iff.mp last
    rw [← List.append_cons] at split ⊢
    rw [position_later split single, if_neg (by simp), List.count_append, List.count_singleton_self]

/-- Every text is cut behind its last line feed. -/
theorem exists_split (text : Bytes) : ∃ front tail, text = front ++ tail ∧ (front = [] ∨ front.getLast? = some feed) ∧
    feed ∉ tail := by
  rcases exists_lastLine text with none | ⟨front, tail, last, none⟩
  · exact ⟨[], text, rfl, Or.inl rfl, none⟩
  · rw [List.append_cons] at last
    exact ⟨front ++ [feed], tail, last, Or.inr List.getLast?_concat, none⟩

/-- Lines put together are all of them with their line feeds, and the last one without. -/
theorem intercalate_concat (lines : List Bytes) (last : Bytes) :
    [feed].intercalate (lines ++ [last]) = lines.flatMap (· ++ [feed]) ++ last := by
  induction lines with
  | nil => simp [List.intercalate]
  | cons l lines ih =>
    cases lines with
    | nil => simp [List.intercalate]
    | cons l' lines =>
      rw [List.cons_append, List.cons_append, List.intercalate_cons_cons, ← List.cons_append, ih, List.flatMap_cons]
      simp

/-- The lines of a file make up its content. -/
theorem intercalate_lines (f : SourceFile) :
    [feed].intercalate ((List.range (f.content.count feed + 1)).map fun i => f.line (i + 1)) = f.content := by
  obtain ⟨rest, split, count⟩ := f.exists_below (Nat.le_refl _)
  have none : feed ∉ rest := by
    have whole := congrArg (List.count feed) split
    rw [List.count_append, count] at whole
    exact List.count_eq_zero.mp (by omega)
  have last : f.line (f.content.count feed + 1) = rest := by
    have whole : f.content = f.above (f.content.count feed) ++ rest ++ [] := by rw [← split, List.append_nil]
    have here := line_eq whole (f.above_opened _) none (Or.inl rfl)
    rwa [count] at here
  rw [List.range_succ, List.map_append, List.map_singleton, intercalate_concat, last, List.flatMap_map]
  exact split.symm

/-- Behind fewer bytes than there are columns, or behind a line feed, a place says where it is. -/
theorem standsAt_position (within : offset ≤ f.content.length)
    (numbered : feed ∈ f.content.take offset ∨ offset + 1 < 2 ^ 32) : f.StandsAt offset (f.position offset) := by
  obtain ⟨front, tail, cut, opened, single⟩ := exists_split (f.content.take offset)
  have split : f.content = front ++ tail ++ f.content.drop offset := by rw [← cut, List.take_append_drop]
  obtain rfl : offset = (front ++ tail).length := by rw [← cut, List.length_take_of_le within]
  have stands := standsAt_of_split split opened single
  have column : (if front = [] then (tail.length + 1) % 2 ^ 32 else tail.length + 1) = tail.length + 1 := by
    by_cases first : front = []
    · subst first
      rw [if_pos rfl]
      rw [cut, List.nil_append] at numbered
      exact Nat.mod_eq_of_lt (numbered.resolve_left single)
    · rw [if_neg first]
  rw [position_of_split split opened single, column]
  exact stands

/-- Of two places that say where they are, the one of the earlier offset comes first. -/
theorem StandsAt.before_of_lt {a b : Nat} {p q : Position} (first : f.StandsAt a p) (second : f.StandsAt b q) (lt : a < b)
    (within : b ≤ f.content.length) : p.Before q := by
  have lengths : a = (f.above (p.line - 1)).length + (p.column - 1) ∧
      b = (f.above (q.line - 1)).length + (q.column - 1) := by
    have here := congrArg List.length first.before
    have there := congrArg List.length second.before
    rw [List.length_append, List.length_take_of_le first.inLine, List.length_take_of_le (by omega)] at here
    rw [List.length_append, List.length_take_of_le second.inLine, List.length_take_of_le within] at there
    exact ⟨here, there⟩
  have fewer : p.line ≤ q.line := by
    rw [first.line, second.line]
    exact Nat.succ_le_succ ((List.take_sublist_take_left (Nat.le_of_lt lt)).count_le feed)
  rcases Nat.lt_or_eq_of_le fewer with above | same
  · exact Or.inl above
  · have column := first.column
    rw [same] at lengths
    exact Or.inr ⟨same, by omega⟩

/-- The lines of a file make up its content, and an offset is in the line of its place, behind as many bytes of it as
the column says, so that places are in the order of their offsets. Of files that are no longer than offsets can tell,
only the end of a longest file has no such place: without a line feed its column has no number and is nought, and with
nothing but line feeds its line has none. -/
theorem places_inverse (f : SourceFile) (short : f.content.length < 2 ^ 32) :
    [feed].intercalate ((List.range (f.content.count feed + 1)).map fun i => f.line (i + 1)) = f.content ∧
      (∀ offset ≤ f.content.length, feed ∈ f.content ∨ offset + 1 < 2 ^ 32 → f.StandsAt offset (f.position offset)) ∧
      (∀ a b, a < b → b ≤ f.content.length → feed ∈ f.content ∨ b + 1 < 2 ^ 32 →
        (f.position a).Before (f.position b)) ∧
      (∀ a ≤ f.content.length, ∀ b ≤ f.content.length, f.position a = f.position b → a = b) ∧
      (feed ∉ f.content → f.content.length + 1 = 2 ^ 32 → f.position f.content.length = ⟨1, 0⟩) ∧
      ∀ offset ≤ f.content.length, (f.position offset).line < 2 ^ 32 ∨
        offset + 1 = 2 ^ 32 ∧ f.content.length = offset ∧ ∀ x ∈ f.content, x = feed := by
  have stands : ∀ offset ≤ f.content.length, feed ∈ f.content ∨ offset + 1 < 2 ^ 32 →
      f.StandsAt offset (f.position offset) := by
    intro offset within numbered
    refine standsAt_position within ?_
    by_cases last : offset + 1 < 2 ^ 32
    · exact Or.inr last
    · have all : f.content.take offset = f.content := List.take_of_length_le (by omega)
      rw [all]
      exact Or.inl (numbered.resolve_right last)
  have order : ∀ a b, a < b → b ≤ f.content.length → feed ∈ f.content ∨ b + 1 < 2 ^ 32 →
      (f.position a).Before (f.position b) := by
    intro a b lt within numbered
    have first := stands a (by omega) (numbered.imp_right fun _ => by omega)
    exact first.before_of_lt (stands b within numbered) lt within
  have unnumbered : feed ∉ f.content → f.content.length + 1 = 2 ^ 32 → f.position f.content.length = ⟨1, 0⟩ := by
    intro none last
    rw [position_first (List.append_nil _).symm none, last, Nat.mod_self]
  have distinct : ∀ a b, a < b → b ≤ f.content.length → f.position a ≠ f.position b := by
    intro a b lt within same
    by_cases numbered : feed ∈ f.content ∨ b + 1 < 2 ^ 32
    · have before := order a b lt within numbered
      rw [same] at before
      unfold Position.Before at before
      omega
    · obtain ⟨none, last⟩ := not_or.mp numbered
      obtain rfl : b = f.content.length := by omega
      have column := (stands a (by omega) (Or.inr (by omega))).column
      rw [same, unnumbered none (by omega)] at column
      exact absurd column (by decide)
  refine ⟨f.intercalate_lines, stands, order, ?_, unnumbered, ?_⟩
  · intro a here b there same
    rcases Nat.lt_trichotomy a b with lt | equal | gt
    · exact absurd same (distinct a b lt there)
    · exact equal
    · exact absurd same.symm (distinct b a gt here)
  · intro offset within
    have line : (f.position offset).line = (f.content.take offset).count feed + 1 := by
      by_cases numbered : feed ∈ f.content ∨ offset + 1 < 2 ^ 32
      · exact (stands offset within numbered).line
      · obtain ⟨none, last⟩ := not_or.mp numbered
        obtain rfl : offset = f.content.length := by omega
        rw [unnumbered none (by omega), List.take_length, List.count_eq_zero.mpr none]
    have fewer := List.count_le_length (a := feed) (l := f.content.take offset)
    rw [List.length_take_of_le within] at fewer
    by_cases fits : (f.content.take offset).count feed + 1 < 2 ^ 32
    · exact Or.inl (line ▸ fits)
    · obtain rfl : offset = f.content.length := by omega
      rw [List.take_length] at fits fewer
      have all : f.content.count feed = f.content.length := by omega
      exact Or.inr ⟨by omega, rfl, fun x member => (List.count_eq_length.mp all x member).symm⟩

/-- A file of four lines, two of which are empty. -/
def fourLines : SourceFile := ⟨0, "a.kl", [97, 10, 10, 98, 99, 10], .memory⟩

theorem fourLines_places : fourLines.content.length < 2 ^ 32 ∧
    [feed].intercalate ((List.range 4).map fun i => fourLines.line (i + 1)) = fourLines.content ∧
    fourLines.position 4 = ⟨3, 2⟩ ∧ fourLines.StandsAt 4 ⟨3, 2⟩ ∧
    (fourLines.position 2).Before (fourLines.position 6) := by
  have short : fourLines.content.length < 2 ^ 32 := by decide
  obtain ⟨lines, stands, order, -⟩ := places_inverse fourLines short
  exact ⟨short, lines, rfl, stands 4 (by decide) (Or.inl (by decide)),
    order 2 6 (by decide) (by decide) (Or.inl (by decide))⟩

/-- A file of one line that is as long as offsets can tell. -/
def longestLine : SourceFile := ⟨0, "a.kl", List.replicate (2 ^ 32 - 1) 120, .memory⟩

/-- The end of the longest line has the column nought, and comes before its start. -/
theorem longestLine_misplaced : longestLine.content.length < 2 ^ 32 ∧ 2 ^ 32 - 1 ≤ longestLine.content.length ∧
    longestLine.position 0 = ⟨1, 1⟩ ∧ longestLine.position (2 ^ 32 - 1) = ⟨1, 0⟩ ∧
    ¬ (longestLine.position 0).Before (longestLine.position (2 ^ 32 - 1)) := by
  have length : longestLine.content.length = 2 ^ 32 - 1 := List.length_replicate
  have single : feed ∉ longestLine.content := by
    intro member
    exact absurd (List.eq_of_mem_replicate member) (by decide)
  generalize longestLine = f at length single
  have start : f.position 0 = ⟨1, 1⟩ := by
    have first := position_first (List.nil_append f.content).symm List.not_mem_nil
    exact first
  have stop : f.position (2 ^ 32 - 1) = ⟨1, 0⟩ := by
    have whole : f.content.length + 1 = 2 ^ 32 := by omega
    rw [← length, position_first (List.append_nil f.content).symm single, whole, Nat.mod_self]
  refine ⟨by omega, by omega, start, stop, ?_⟩
  rw [start, stop]
  exact fun before => before.elim (by decide) fun later => absurd later.2 (by decide)

end SourceFile

end WitnessLang
