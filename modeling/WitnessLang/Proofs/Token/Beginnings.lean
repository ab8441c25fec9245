import WitnessLang.Proofs.Token.Partition

set_option autoImplicit false

namespace WitnessLang

namespace Lexer

section Short

variable {b : UInt8} {used mid tail rest : Bytes} {c : Char}

/-- What is left when the start of a list is dropped is left of any beginning that reaches so far. -/
theorem dropWhile_short {α : Type} {p : α → Bool} {front kept back : List α}
    (dropped : (front ++ (kept ++ back)).dropWhile p = kept ++ back) : (front ++ kept).dropWhile p = kept := by
  induction front with
  | nil =>
    cases kept with
    | nil => rfl
    | cons a more =>
      by_cases holds : p a = true
      · have fewer := ((more ++ back).dropWhile_sublist p).length_le
        rw [List.nil_append, List.cons_append, List.dropWhile_cons_of_pos holds] at dropped
        rw [dropped, List.length_cons] at fewer
        omega
      · exact List.dropWhile_cons_of_neg holds
  | cons a more ih =>
    by_cases holds : p a = true
    · rw [List.cons_append, List.dropWhile_cons_of_pos holds] at dropped ⊢
      exact ih dropped
    · rw [List.cons_append, List.dropWhile_cons_of_neg holds] at dropped
      have length := congrArg List.length dropped
      simp only [List.length_cons, List.length_append] at length
      omega

/-- A character is read the same in a beginning of the text that holds it. -/
theorem char?_short (read : Utf8.char? b (used ++ (mid ++ tail)) = some (c, rest)) (reaches : (mid ++ tail) <:+ rest) :
    ∃ more, rest = more ++ (mid ++ tail) ∧ Utf8.char? b (used ++ mid) = some (c, more ++ mid) := by
  obtain ⟨more, rfl⟩ := reaches
  obtain ⟨form, split, -, reads⟩ := Utf8.char?_form read
  rw [← List.append_assoc form] at split
  obtain rfl := List.append_cancel_right split
  refine ⟨more, rfl, ?_⟩
  rw [List.append_assoc]
  exact reads _

theorem afterName_word (word : isWordByte b = true) : afterName (b :: rest) = afterName rest := by
  rw [afterName, if_pos word]

theorem afterName_char {rest' : Bytes} (notWord : ¬ isWordByte b = true) (high : ¬ b < 0x80)
    (read : Utf8.char? b rest = some (c, rest')) (goesOn : continuesName c = true) :
    afterName (b :: rest) = afterName rest' := by
  rw [afterName, if_neg notWord, if_neg high]
  split
  · rename_i c' r again
    rw [read] at again
    cases again
    rw [if_pos goesOn]
  · rename_i none
    rw [read] at none
    cases none

theorem afterName_stop (notWord : ¬ isWordByte b = true)
    (ends : ¬ b < 0x80 → ∀ c r, Utf8.char? b rest = some (c, r) → ¬ continuesName c = true) :
    afterName (b :: rest) = b :: rest := by
  rw [afterName, if_neg notWord]
  split
  · rfl
  · rename_i high
    split
    · rename_i c r read
      rw [if_neg (ends high c r read)]
    · rfl

theorem afterName_suffix (b : Bytes) : afterName b <:+ b := by
  obtain ⟨name, split, -⟩ := afterName_split b
  exact ⟨name, split.symm⟩

/-- A character goes on behind a beginning of the text only if it does in all of it. -/
theorem char?_extend (read : Utf8.char? b mid = some (c, rest)) (tail : Bytes) :
    Utf8.char? b (mid ++ tail) = some (c, rest ++ tail) := by
  obtain ⟨form, rfl, -, reads⟩ := Utf8.char?_form read
  rw [List.append_assoc]
  exact reads _

/-- Behind the end of a name no name goes on, and neither does one if the text ends earlier. -/
theorem afterName_kept (done : afterName (mid ++ tail) = mid ++ tail) : afterName mid = mid := by
  cases mid with
  | nil => rw [afterName]
  | cons b more =>
    rw [List.cons_append] at done
    have long : ∀ {r : Bytes}, r.length ≤ (more ++ tail).length → r ≠ b :: (more ++ tail) := by
      rintro r short rfl
      rw [List.length_cons] at short
      omega
    have notWord : ¬ isWordByte b = true := fun word =>
      long (afterName_length _) (afterName_word word ▸ done)
    refine afterName_stop notWord fun high c r read goesOn => ?_
    have read := char?_extend read tail
    rw [afterName_char notWord high read goesOn] at done
    exact long (Nat.le_trans (afterName_length _) (Utf8.char?_length read)) done

theorem afterName_short (done : afterName (used ++ (mid ++ tail)) = mid ++ tail) : afterName (used ++ mid) = mid := by
  induction size : used.length using Nat.strongRecOn generalizing used with
  | ind n ih =>
    subst size
    cases used with
    | nil => exact afterName_kept done
    | cons b used =>
      rw [List.cons_append] at done ⊢
      by_cases word : isWordByte b = true
      · rw [afterName_word word] at done ⊢
        exact ih _ (Nat.lt_succ_self _) done rfl
      by_cases goes : ¬ b < 0x80 ∧ ∃ c r, Utf8.char? b (used ++ (mid ++ tail)) = some (c, r) ∧ continuesName c = true
      · obtain ⟨high, c, r, read, goesOn⟩ := goes
        rw [afterName_char word high read goesOn] at done
        obtain ⟨more, rfl, read'⟩ := char?_short read (done ▸ afterName_suffix r)
        rw [afterName_char word high read' goesOn]
        refine ih more.length ?_ done rfl
        have shorter := Utf8.char?_length read
        simp only [List.length_append, List.length_cons] at shorter ⊢
        omega
      · rw [afterName_stop word fun high c r read goesOn => goes ⟨high, c, r, read, goesOn⟩] at done
        have length := congrArg List.length done
        simp only [List.length_cons, List.length_append] at length
        omega

theorem afterDigits_fraction {text : Bytes} (left : text.dropWhile isDigit = 46 :: b :: rest)
    (digit : isDigit b = true) : afterDigits text = rest.dropWhile isDigit := by
  rw [afterDigits, left]
  exact if_pos digit

theorem afterDigits_other {text : Bytes}
    (other : ∀ d rest, text.dropWhile isDigit = 46 :: d :: rest → ¬ isDigit d = true) :
    afterDigits text = text.dropWhile isDigit := by
  rw [afterDigits]
  split
  · rename_i d rest same
    rw [if_neg (other d rest same), same]
  · rfl

theorem afterDigits_short (done : afterDigits (used ++ (mid ++ tail)) = mid ++ tail) :
    afterDigits (used ++ mid) = mid := by
  by_cases fraction : ∃ d rest, (used ++ (mid ++ tail)).dropWhile isDigit = 46 :: d :: rest ∧ isDigit d = true
  · -- The fraction is all in what has been used.
    obtain ⟨d, rest, same, digit⟩ := fraction
    rw [afterDigits_fraction same digit] at done
    obtain ⟨decimals, rfl⟩ : mid ++ tail <:+ rest := done ▸ List.dropWhile_suffix isDigit
    obtain ⟨whole, front⟩ : 46 :: d :: (decimals ++ (mid ++ tail)) <:+ used ++ (mid ++ tail) :=
      same ▸ List.dropWhile_suffix isDigit
    have parts : (whole ++ 46 :: d :: decimals) ++ (mid ++ tail) = used ++ (mid ++ tail) := by simpa using front
    obtain rfl := List.append_cancel_right parts
    have short : (whole ++ 46 :: d :: (decimals ++ mid)).dropWhile isDigit = 46 :: d :: (decimals ++ mid) :=
      dropWhile_short (show (whole ++ (46 :: d :: (decimals ++ mid) ++ tail)).dropWhile isDigit = _ by simpa using same)
    rw [List.append_assoc, List.cons_append, List.cons_append, afterDigits_fraction short digit, dropWhile_short done]
  · rw [afterDigits_other fun d rest same digit => fraction ⟨d, rest, same, digit⟩] at done
    have short := dropWhile_short done
    rw [afterDigits_other, short]
    intro d rest same digit
    obtain rfl := short.symm.trans same
    exact fraction ⟨d, rest ++ tail, done, digit⟩

theorem nameAt_short (used : Bytes) (done : (nameAt (used ++ (mid ++ tail))).2 = mid ++ tail) :
    nameAt (used ++ mid) = ((nameAt (used ++ (mid ++ tail))).1, mid) := by
  have done : afterName (used ++ (mid ++ tail)) = mid ++ tail := done
  simp only [nameAt, done, afterName_short done, upTo_append]

theorem numberAt_short (used : Bytes) (done : (numberAt (used ++ (mid ++ tail))).2 = mid ++ tail) :
    numberAt (used ++ mid) = ((numberAt (used ++ (mid ++ tail))).1, mid) := by
  have done : (afterDigits (used ++ (mid ++ tail))).dropWhile isWordByte = mid ++ tail := done
  obtain ⟨number, split, -⟩ := afterDigits_split (used ++ (mid ++ tail))
  obtain ⟨letters, sound⟩ : mid ++ tail <:+ afterDigits (used ++ (mid ++ tail)) := by
    conv => lhs; rw [← done]
    exact List.dropWhile_suffix isWordByte
  rw [← sound] at split
  obtain rfl : used = number ++ letters := by simpa [← List.append_assoc] using split
  rw [eq_comm] at sound
  have short : afterDigits (number ++ letters ++ mid) = letters ++ mid := by
    rw [List.append_assoc]
    apply afterDigits_short
    simpa using sound
  rw [sound] at done
  simp only [numberAt, sound, short, done, dropWhile_short done, upTo_append, List.length_append]
  congr 3
  simp

theorem step_char (read : Utf8.char? b rest = some (c, mid)) : Utf8.step b rest = (.char c, mid) := by
  rw [Utf8.step, read]

theorem step_stray (none : Utf8.char? b rest = none) : Utf8.step b rest = (.stray b, rest) := by
  rw [Utf8.step, none]

theorem step_short (done : (Utf8.step b (used ++ (mid ++ tail))).2 = mid ++ tail) :
    Utf8.step b (used ++ mid) = ((Utf8.step b (used ++ (mid ++ tail))).1, mid) := by
  cases read : Utf8.char? b (used ++ (mid ++ tail)) with
  | none =>
    rw [step_stray read] at done ⊢
    obtain rfl : used = [] := List.self_eq_append_left.mp done.symm
    refine step_stray (Option.eq_none_iff_forall_ne_some.mpr fun r again => ?_)
    obtain ⟨c, r⟩ := r
    have longer := char?_extend again tail
    rw [List.append_assoc, read] at longer
    cases longer
  | some r =>
    obtain ⟨c, r⟩ := r
    rw [step_char read] at done ⊢
    obtain rfl : r = mid ++ tail := done
    obtain ⟨more, same, read'⟩ := char?_short read (List.suffix_refl _)
    obtain rfl : more = [] := List.self_eq_append_left.mp same
    exact step_char read'

theorem unknownAt_short (done : (unknownAt b (used ++ (mid ++ tail))).2 = mid ++ tail) :
    unknownAt b (used ++ mid) = ((unknownAt b (used ++ (mid ++ tail))).1, mid) := by
  have done : (Utf8.step b (used ++ (mid ++ tail))).2 = mid ++ tail := done
  simp only [unknownAt, done, step_short done, ← List.cons_append, upTo_append]

theorem punctuation?_none {next : Option UInt8} (none : punctuation? b next = none) : punctuation? b .none = .none := by
  unfold punctuation? at none ⊢
  split at none
  case h_14 | h_15 => split at none <;> cases none
  case h_16 => rfl
  all_goals cases none

theorem punctuation?_one {next : Option UInt8} {kind : TokenKind} (found : punctuation? b next = some (kind, 1)) :
    punctuation? b .none = some (kind, 1) := by
  unfold punctuation? at found ⊢
  split at found
  case h_14 | h_15 =>
    split at found
    · cases found
    · exact found
  case h_16 => cases found
  all_goals exact found

theorem comment_short (next : (used ++ (mid ++ tail)).head? = some 47)
    (done : (used ++ (mid ++ tail)).dropWhile (· != 10) = mid ++ tail) : (used ++ mid).head? = some 47 ∧
      (used ++ mid).takeWhile (· != 10) = (used ++ (mid ++ tail)).takeWhile (· != 10) ∧
      (used ++ mid).dropWhile (· != 10) = mid := by
  have short := dropWhile_short done
  have whole : (used ++ (mid ++ tail)).takeWhile (· != 10) ++ (used ++ (mid ++ tail)).dropWhile (· != 10) = _ :=
    List.takeWhile_append_dropWhile
  have front : (used ++ mid).takeWhile (· != 10) ++ (used ++ mid).dropWhile (· != 10) = _ :=
    List.takeWhile_append_dropWhile
  rw [done] at whole
  rw [short] at front
  refine ⟨?_, (List.append_cancel_right front).trans (List.append_cancel_right whole).symm, short⟩
  cases used with
  | nil =>
    have first := List.head?_dropWhile_not (· != 10) ([] ++ (mid ++ tail))
    rw [done, show (mid ++ tail).head? = some 47 from next] at first
    cases first
  | cons x more => exact next

/-- What stands at the end of a beginning of the text is what stands there in all of it, or nothing. -/
theorem head?_short (used mid tail : Bytes) :
    (used ++ mid).head? = none ∨ (used ++ mid).head? = (used ++ (mid ++ tail)).head? := by
  rw [← List.append_assoc, @List.head?_append _ tail (used ++ mid)]
  cases (used ++ mid).head? with
  | none => exact Or.inl rfl
  | some x => exact Or.inr rfl

theorem punctuation?_short {kind : TokenKind} {width : Nat}
    (found : punctuation? b (used ++ (mid ++ tail)).head? = some (kind, width))
    (done : (used ++ (mid ++ tail)).drop (width - 1) = mid ++ tail) :
    punctuation? b (used ++ mid).head? = some (kind, width) ∧ (used ++ mid).drop (width - 1) = mid ∧
      (b :: (used ++ mid)).take width = (b :: (used ++ (mid ++ tail))).take width := by
  obtain ⟨-, -, -, -, ⟨rfl, -⟩ | ⟨rfl, next, -⟩⟩ := punctuation?_spelled found
  · obtain rfl : used = [] := List.self_eq_append_left.mp done.symm
    refine ⟨?_, rfl, rfl⟩
    rcases head?_short [] mid tail with none | same
    · rw [none]
      exact punctuation?_one found
    · rw [same]
      exact found
  · cases used with
    | nil =>
      have length := congrArg List.length done
      cases whole : mid ++ tail with
      | nil =>
        rw [List.nil_append, whole] at next
        cases next
      | cons x more =>
        rw [List.nil_append, whole] at length
        simp at length
    | cons x more =>
      obtain rfl : more = [] := List.self_eq_append_left.mp (show mid ++ tail = more ++ (mid ++ tail) from done.symm)
      exact ⟨found, rfl, rfl⟩

theorem punctuation?_kept (none : punctuation? b (used ++ (mid ++ tail)).head? = none) :
    punctuation? b (used ++ mid).head? = .none := by
  rcases head?_short used mid tail with ended | same
  · rw [ended]
    exact punctuation?_none none
  · rw [same]
    exact none

theorem char?_kept (none : Utf8.char? b (used ++ (mid ++ tail)) = none) : Utf8.char? b (used ++ mid) = .none := by
  refine Option.eq_none_iff_forall_ne_some.mpr fun r again => ?_
  obtain ⟨c, r⟩ := r
  have longer := char?_extend again tail
  rw [List.append_assoc, none] at longer
  cases longer

/-- A letter beyond ASCII is all in the name that starts with it. -/
theorem letter_short (high : 0x80 ≤ b) (read : Utf8.char? b (used ++ (mid ++ tail)) = some (c, rest))
    (letter : CharClass.letter.has c = true) (done : (nameAt (b :: (used ++ (mid ++ tail)))).2 = mid ++ tail) :
    ∃ more, Utf8.char? b (used ++ mid) = some (c, more) := by
  have notLow : ¬ b < 0x80 := UInt8.not_lt.mpr high
  have notWord : ¬ isWordByte b = true := fun word => notLow (isWordByte_ascii word)
  have goesOn : continuesName c = true := by rw [continuesName, letter, Bool.true_or, Bool.true_or]
  have reaches : afterName rest = mid ++ tail := (afterName_char notWord notLow read goesOn).symm.trans done
  obtain ⟨more, -, read'⟩ := char?_short read (reaches ▸ afterName_suffix rest)
  exact ⟨_, read'⟩

theorem other_short (read : Utf8.char? b (used ++ (mid ++ tail)) = some (c, rest))
    (done : (unknownAt b (used ++ (mid ++ tail))).2 = mid ++ tail) :
    ∃ more, Utf8.char? b (used ++ mid) = some (c, more) := by
  have reaches : (Utf8.step b (used ++ (mid ++ tail))).2 = mid ++ tail := done
  rw [step_char read] at reaches
  obtain ⟨more, -, read'⟩ := char?_short read (reaches ▸ List.suffix_refl _)
  exact ⟨_, read'⟩

/-- What is read at the start of a text, up to some place, is read of the text up to any later place. -/
theorem pieceAt_short (done : (pieceAt b (used ++ (mid ++ tail))).2 = mid ++ tail) :
    pieceAt b (used ++ mid) = ((pieceAt b (used ++ (mid ++ tail))).1, mid) := by
  unfold pieceAt at done ⊢
  by_cases blank : isBlank b = true
  · simp only [blank, if_true] at done ⊢
    rw [List.self_eq_append_left.mp done.symm, List.nil_append]
  simp only [blank, Bool.false_eq_true, if_false] at done ⊢
  by_cases comment : (b == 47 && (used ++ (mid ++ tail)).head? == some 47) = true
  · rw [if_pos comment] at done ⊢
    obtain ⟨slash, next⟩ := Bool.and_eq_true_iff.mp comment
    obtain ⟨next', line, after⟩ := comment_short (beq_iff_eq.mp next) done
    rw [if_pos (by rw [slash, next']; rfl), line, after]
  have comment' : ¬ (b == 47 && (used ++ mid).head? == some 47) = true := by
    rcases head?_short used mid tail with none | same
    · simp [none]
    · rwa [same]
  rw [if_neg comment] at done ⊢
  rw [if_neg comment']
  by_cases word : isWordStart b = true
  · rw [if_pos word] at done ⊢
    rw [if_pos word]
    exact nameAt_short (b :: used) done
  rw [if_neg word] at done ⊢
  rw [if_neg word]
  by_cases high : 0x80 ≤ b
  · rw [if_pos high] at done ⊢
    rw [if_pos high]
    cases read : Utf8.char? b (used ++ (mid ++ tail)) with
    | none =>
      rw [read] at done
      rw [char?_kept read]
      exact unknownAt_short done
    | some r =>
      obtain ⟨c, r⟩ := r
      rw [read] at done
      dsimp only at done ⊢
      by_cases letter : CharClass.letter.has c = true
      · rw [if_pos letter] at done
        obtain ⟨more, read'⟩ := letter_short high read letter done
        rw [read', if_pos letter]
        dsimp only
        rw [if_pos letter]
        exact nameAt_short (b :: used) done
      · rw [if_neg letter] at done
        obtain ⟨more, read'⟩ := other_short read done
        rw [read', if_neg letter]
        dsimp only
        rw [if_neg letter]
        exact unknownAt_short done
  rw [if_neg high] at done ⊢
  rw [if_neg high]
  by_cases digit : isDigit b = true
  · rw [if_pos digit] at done ⊢
    rw [if_pos digit]
    exact numberAt_short (b :: used) done
  rw [if_neg digit] at done ⊢
  rw [if_neg digit]
  cases found : punctuation? b (used ++ (mid ++ tail)).head? with
  | none =>
    rw [found] at done
    rw [punctuation?_kept found]
    exact unknownAt_short done
  | some sign =>
    obtain ⟨kind, width⟩ := sign
    rw [found] at done
    obtain ⟨found', after, raw⟩ := punctuation?_short found done
    rw [found']
    dsimp only
    rw [after, raw]

theorem pieces_cons (b : UInt8) (rest : Bytes) :
    pieces (b :: rest) = (pieceAt b rest).1 :: pieces (pieceAt b rest).2 := by
  rw [pieces]

/-- The text of the first pieces of a text is cut into these pieces. -/
theorem pieces_flatMap {text : Bytes} {ps qs : List Piece} (split : pieces text = ps ++ qs) :
    pieces (ps.flatMap (·.raw)) = ps := by
  induction ps generalizing text with
  | nil => rw [List.flatMap_nil, pieces]
  | cons p ps ih =>
    cases text with
    | nil =>
      rw [pieces] at split
      cases split
    | cons b rest =>
      rw [pieces_cons, List.cons_append] at split
      obtain ⟨first, later⟩ := List.cons.inj split
      have rests := pieces_flatten (pieceAt b rest).2
      rw [later, List.flatMap_append] at rests
      have whole := (pieceAt_fits b rest).1
      have filled := pieceAt_length b rest
      rw [first] at whole
      cases raw : p.raw with
      | nil =>
        rw [raw, List.nil_append] at whole
        rw [← whole, List.length_cons] at filled
        omega
      | cons x used =>
        rw [raw, List.cons_append, ← rests] at whole
        obtain ⟨rfl, rfl⟩ := List.cons.inj whole
        have short := pieceAt_short (b := b) rests.symm
        rw [List.flatMap_cons, raw, List.cons_append, pieces_cons, short, first, ih later]

/-- The pieces before a token. -/
theorem exists_before {file offset : Nat} {ps : List Piece} {before after : List Token} {t : Token}
    (split : tokensFrom file offset ps = before ++ t :: after) (more : t.kind ≠ .endOfFile) :
    ∃ front back, ps = front ++ back ∧ t.span.start = offset + (front.flatMap (·.raw)).length ∧
      tokensFrom file offset front = before ++ [⟨.endOfFile, ⟨t.span.start, t.span.start, file⟩, ""⟩] := by
  induction ps generalizing offset before with
  | nil =>
    have member : t ∈ tokensFrom file offset [] := split ▸ List.mem_append_right _ List.mem_cons_self
    rw [List.mem_singleton.mp member] at more
    exact absurd rfl more
  | cons p rest ih =>
    rw [tokensFrom] at split
    cases kind : p.kind with
    | token k text =>
      rw [kind] at split
      cases before with
      | nil =>
        obtain ⟨rfl, -⟩ := List.cons.inj split
        exact ⟨[], p :: rest, rfl, rfl, rfl⟩
      | cons u before =>
        obtain ⟨rfl, later⟩ := List.cons.inj split
        obtain ⟨front, back, rfl, start, tokens⟩ := ih later
        refine ⟨p :: front, back, rfl, ?_, ?_⟩
        · rw [start, List.flatMap_cons, List.length_append, Nat.add_assoc]
        · rw [tokensFrom, kind, tokens]
          rfl
    | _ =>
      rw [kind] at split
      obtain ⟨front, back, rfl, start, tokens⟩ := ih split
      refine ⟨p :: front, back, rfl, ?_, ?_⟩
      · rw [start, List.flatMap_cons, List.length_append, Nat.add_assoc]
      · rw [tokensFrom, kind, tokens]

end Short

end Lexer

/-- The text before a token has the tokens before it. -/
theorem SourceFile.tokens_before {f : SourceFile} {before after : List Token} {first : Token}
    (split : f.tokens = before ++ first :: after) (more : first.kind ≠ .endOfFile) :
    SourceFile.tokens { f with content := f.content.take first.span.start } =
      before ++ [⟨.endOfFile, ⟨first.span.start, first.span.start, f.id⟩, ""⟩] := by
  obtain ⟨front, back, pieces, start, tokens⟩ := Lexer.exists_before split more
  have whole := Lexer.pieces_flatten f.content
  have text : f.content.take first.span.start = front.flatMap (·.raw) := by
    rw [start, Nat.zero_add, ← whole, pieces, List.flatMap_append, List.take_left]
  rw [SourceFile.tokens, text, Lexer.pieces_flatMap pieces]
  exact tokens

end WitnessLang
