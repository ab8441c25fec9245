import Mathlib.Data.List.Basic
import WitnessLang.Token.Lexer

set_option autoImplicit false

namespace WitnessLang

namespace Normal

theorem takeApart_ne_nil (depth : Nat) (c : Char) : takeApart depth c ≠ [] := by
  induction depth generalizing c with
  | zero => simp [takeApart]
  | succ depth ih =>
    rw [takeApart]
    split
    · simp
    · exact ih _
    · simp [ih]

theorem push_kept {s : Composing} (c : Char) (some : 0 < s.kept.size) : 0 < (s.push c).kept.size := by
  rw [Composing.push]
  split
  · simp
  · dsimp only
    split <;> simp [some]

theorem compose_ne_nil {cs : List Char} (some : cs ≠ []) : compose cs ≠ [] := by
  have fold : ∀ (rest : List Char) (s : Composing), 0 < s.kept.size → 0 < (rest.foldl Composing.push s).kept.size := by
    intro rest
    induction rest with
    | nil => exact fun _ => id
    | cons c rest ih => exact fun s first => ih _ (push_kept c first)
  cases cs with
  | nil => exact absurd rfl some
  | cons c rest =>
    have kept := fold rest ⟨#[c], 0, false⟩ (by simp)
    intro none
    rw [compose, Array.toList_eq_nil_iff] at none
    simp [none] at kept

/-- Something has been taken up, finished or not. -/
def Sorting.Holds (s : Sorting) : Prop := s.finished ≠ [] ∨ s.current ≠ []

theorem Sorting.insert_holds (s : Sorting) (c : Char) : (s.insert c).Holds := by
  refine Or.inr ?_
  rw [Sorting.insert]
  cases s.current with
  | nil => simp [place]
  | cons d before =>
    rw [place]
    split <;> simp

theorem Sorting.flush_finished {s : Sorting} (holds : s.Holds) : s.flush.finished ≠ [] := by
  rw [Sorting.flush]
  intro none
  obtain ⟨finished, current⟩ := List.append_eq_nil_iff.mp none
  exact holds.elim (fun some => some finished) fun some => compose_ne_nil (by simpa using some) current

/-- Each of some steps takes something up. -/
theorem foldl_holds {step : Sorting → Char → Sorting} (holds : ∀ s c, (step s c).Holds) {cs : List Char}
    (some : cs ≠ []) (s : Sorting) : (cs.foldl step s).Holds := by
  rcases List.eq_nil_or_concat cs with none | ⟨before, c, rfl⟩
  · exact absurd none some
  · rw [List.concat_eq_append, List.foldl_concat]
    exact holds _ c

theorem Sorting.insertParts_holds (s : Sorting) (c : Char) : (s.insertParts c).Holds := by
  rw [Sorting.insertParts]
  split
  · exact foldl_holds Sorting.insert_holds (takeApart_ne_nil 4 c) s
  · refine foldl_holds (fun s d => ?_) (takeApart_ne_nil 4 c) s
    split
    · exact Sorting.insert_holds _ d
    · exact Sorting.insert_holds _ d

theorem segment_ne_nil {cs : List Char} (some : cs ≠ []) (leftOver : Bool) : segment cs leftOver ≠ [] := by
  rw [segment]
  refine Sorting.flush_finished ?_
  split
  · exact Sorting.insert_holds _ _
  · exact foldl_holds Sorting.insertParts_holds some _

/-- All characters are in the stretch that stays as it is, or behind it. -/
theorem length_settledAfter (marks last : Nat) (done current cs : List Char) :
    (settledAfter marks last done current cs).1.length + (settledAfter marks last done current cs).2.length =
      done.length + current.length + cs.length := by
  induction cs generalizing marks last done current with
  | nil =>
    simp only [settledAfter, List.length_reverse, List.length_append, List.length_nil]
    omega
  | cons c rest ih =>
    rw [settledAfter]
    split
    · simp only [List.length_reverse, List.length_append, List.length_cons]
      omega
    split
    · split
      · simp only [ih, List.length_append, List.length_cons, List.length_nil]
        omega
      · simp only [List.length_reverse, List.length_append, List.length_cons]
        omega
    split
    · simp only [ih, List.length_cons]
      omega
    · simp only [List.length_reverse, List.length_append, List.length_cons]
      omega

theorem normalizeWithin_ne_nil (fuel : Nat) {cs : List Char} (some : cs ≠ []) : normalizeWithin fuel cs ≠ [] := by
  cases fuel with
  | zero => exact some
  | succ fuel =>
    have length := length_settledAfter 0 0 [] [] cs
    have positive := List.length_pos_iff.mpr some
    rw [normalizeWithin]
    split
    · rename_i done same
      rw [show settledAfter 0 0 [] [] cs = (done, []) from same] at length
      simp only [List.length_nil] at length
      exact List.length_pos_iff.mp (by omega)
    · rename_i done c rest same
      dsimp only
      intro none
      obtain ⟨early, -⟩ := List.append_eq_nil_iff.mp none
      exact segment_ne_nil (List.cons_ne_nil c _) _ (List.append_eq_nil_iff.mp early).2

theorem normalize_ne_empty {s : String} (some : s ≠ "") : normalize s ≠ "" := by
  rw [normalize]
  split
  · exact some
  · have letters : s.toList ≠ [] := fun none => some (String.toList_eq_nil_iff.mp none)
    exact fun none => normalizeWithin_ne_nil s.length letters (by simpa using none)

end Normal

def Token.Named (t : Token) : Prop := t.kind = .identifier → t.text ≠ ""

namespace Lexer

theorem stringLossy_ne_empty {b : Bytes} (some : b ≠ []) : Utf8.stringLossy b ≠ "" := by
  cases b with
  | nil => exact absurd rfl some
  | cons lead rest => simp [Utf8.stringLossy, Utf8.glyphs]

def Piece.Named (p : Piece) : Prop := ∀ text, p.kind = .token .identifier text → text ≠ ""

theorem nameAt_named {whole : Bytes} (shorter : (nameAt whole).2.length < whole.length) :
    (nameAt whole).1.Named := by
  intro text same
  have spelled : text = Normal.normalize (Utf8.stringLossy (upTo whole (afterName whole))) :=
    (PieceKind.token.inj same).2.symm
  rw [spelled]
  refine Normal.normalize_ne_empty (stringLossy_ne_empty fun none => ?_)
  have taken : (upTo whole (afterName whole)).length = 0 := by rw [none, List.length_nil]
  have left : (afterName whole).length < whole.length := shorter
  rw [upTo, List.length_take] at taken
  omega

theorem numberAt_kind (whole : Bytes) : (numberAt whole).1.Named := by
  intro text same
  rw [numberAt] at same
  have kind := (PieceKind.token.inj same).1
  split at kind <;> cases kind

theorem punctuation_kind {b : UInt8} {next : Option UInt8} {kind : TokenKind} {width : Nat}
    (found : punctuation? b next = some (kind, width)) : kind ≠ .identifier := by
  rintro rfl
  unfold punctuation? at found
  split at found <;> (first | cases found | (split at found <;> cases found))

theorem pieceAt_named (b : UInt8) (rest : Bytes) : (pieceAt b rest).1.Named := by
  have unknown : (unknownAt b rest).1.Named := fun text same => by cases same
  unfold pieceAt
  split
  · exact fun text same => by cases same
  split
  · exact fun text same => by cases same
  split
  · rename_i start
    exact nameAt_named (Nat.lt_succ_of_le (nameAt_length_ascii b rest start))
  split
  · rename_i high
    split
    · rename_i c r read
      split
      · rename_i letter
        exact nameAt_named (Nat.lt_succ_of_le (nameAt_length_letter b rest r c high read letter))
      · exact unknown
    · exact unknown
  split
  · exact numberAt_kind _
  split
  · rename_i kind width found
    exact fun text same => absurd (PieceKind.token.inj same).1 (punctuation_kind found)
  · exact unknown

theorem pieces_named (b : Bytes) : ∀ p ∈ pieces b, p.Named := by
  fun_induction pieces b with
  | case1 => exact List.forall_mem_nil _
  | case2 b rest ih => exact List.forall_mem_cons.mpr ⟨pieceAt_named b rest, ih⟩

theorem tokensFrom_named (file : Nat) {ps : List Piece} (named : ∀ p ∈ ps, p.Named) (offset : Nat) :
    ∀ t ∈ tokensFrom file offset ps, t.Named := by
  induction ps generalizing offset with
  | nil => exact List.forall_mem_singleton.mpr fun kind => by cases kind
  | cons p rest ih =>
    rw [List.forall_mem_cons] at named
    rw [tokensFrom]
    split
    · rename_i kind text same
      exact List.forall_mem_cons.mpr ⟨fun name => named.1 text (same.trans (congrArg (PieceKind.token · text) name)), ih named.2 _⟩
    · exact ih named.2 _

end Lexer

/-- The names among the tokens of a file have letters. -/
theorem SourceFile.tokens_named (f : SourceFile) : ∀ t ∈ f.tokens, t.Named :=
  Lexer.tokensFrom_named f.id (Lexer.pieces_named f.content) 0

end WitnessLang
