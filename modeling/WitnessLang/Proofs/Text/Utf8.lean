import WitnessLang.Text.Utf8

set_option autoImplicit false

namespace WitnessLang.Utf8

/-- The form of the character of a number. -/
theorem encode_ofNat {n : Nat} (valid : n.isValidChar) : String.utf8EncodeChar (Char.ofNat n) =
    if n ≤ 127 then [.ofNat n]
    else if n ≤ 2047 then [.ofNat (n / 64 % 32 + 192), .ofNat (n % 64 + 128)]
    else if n ≤ 65535 then [.ofNat (n / 4096 % 16 + 224), .ofNat (n / 64 % 64 + 128), .ofNat (n % 64 + 128)]
    else [.ofNat (n / 262144 % 8 + 240), .ofNat (n / 4096 % 64 + 128), .ofNat (n / 64 % 64 + 128),
      .ofNat (n % 64 + 128)] := by
  have value : (Char.ofNat n).val.toNat = n := by
    rw [Char.ofNat, dif_pos valid]
    rfl
  simp only [String.utf8EncodeChar, value]

theorem within_iff {lo hi b : UInt8} : within lo hi b = true ↔ lo.toNat ≤ b.toNat ∧ b.toNat ≤ hi.toNat := by
  simp [within, UInt8.le_iff_toNat_le]

theorem isTail_iff {b : UInt8} : isTail b = true ↔ 128 ≤ b.toNat ∧ b.toNat ≤ 191 := within_iff

/-- The second byte keeps a sequence from being too long, from standing for half of a pair, and from being
out of range. -/
theorem second_bounds {a b : UInt8} (second : within (secondBounds a).1 (secondBounds a).2 b = true) :
    128 ≤ b.toNat ∧ b.toNat ≤ 191 ∧ (a.toNat = 224 → 160 ≤ b.toNat) ∧ (a.toNat = 237 → b.toNat ≤ 159) ∧
      (a.toNat = 240 → 144 ≤ b.toNat) ∧ (a.toNat = 244 → b.toNat ≤ 143) := by
  have number (n : UInt8) : a = n ↔ a.toNat = n.toNat := UInt8.toNat_inj.symm
  rw [within_iff, secondBounds] at second
  simp only [number] at second
  split at second
  · obtain ⟨least, greatest⟩ : 160 ≤ b.toNat ∧ b.toNat ≤ 191 := second
    rename_i lead
    replace lead : a.toNat = 224 := lead
    omega
  split at second
  · obtain ⟨least, greatest⟩ : 128 ≤ b.toNat ∧ b.toNat ≤ 159 := second
    rename_i lead
    replace lead : a.toNat = 237 := lead
    omega
  split at second
  · obtain ⟨least, greatest⟩ : 144 ≤ b.toNat ∧ b.toNat ≤ 191 := second
    rename_i lead
    replace lead : a.toNat = 240 := lead
    omega
  split at second
  · obtain ⟨least, greatest⟩ : 128 ≤ b.toNat ∧ b.toNat ≤ 143 := second
    rename_i lead
    replace lead : a.toNat = 244 := lead
    omega
  · obtain ⟨least, greatest⟩ : 128 ≤ b.toNat ∧ b.toNat ≤ 191 := second
    rename_i other₁ other₂ other₃ other₄
    replace other₁ : a.toNat ≠ 224 := other₁
    replace other₂ : a.toNat ≠ 237 := other₂
    replace other₃ : a.toNat ≠ 240 := other₃
    replace other₄ : a.toNat ≠ 244 := other₄
    omega

section Forms

variable {a b c d : UInt8}

theorem encode_one (low : a < 0x80) : String.utf8EncodeChar (Char.ofNat a.toNat) = [a] := by
  have low : a.toNat < 128 := UInt8.lt_iff_toNat_lt.mp low
  rw [encode_ofNat (Or.inl (by omega)), if_pos (by omega), UInt8.ofNat_toNat]

theorem encode_two (lead : within 0xC2 0xDF a = true) (second : isTail b = true) :
    String.utf8EncodeChar (Char.ofNat (a.toNat % 32 * 64 + payload b)) = [a, b] := by
  obtain ⟨low, high⟩ : 194 ≤ a.toNat ∧ a.toNat ≤ 223 := within_iff.mp lead
  rw [isTail_iff] at second
  rw [payload, encode_ofNat (Or.inl (by omega)), if_neg (by omega), if_pos (by omega)]
  simp only [List.cons.injEq, and_true, ← UInt8.toNat_inj, UInt8.toNat_ofNat']
  omega

theorem encode_three (lead : within 0xE0 0xEF a = true)
    (second : within (secondBounds a).1 (secondBounds a).2 b = true) (third : isTail c = true) :
    String.utf8EncodeChar (Char.ofNat ((a.toNat % 16 * 64 + payload b) * 64 + payload c)) = [a, b, c] := by
  obtain ⟨low, high⟩ : 224 ≤ a.toNat ∧ a.toNat ≤ 239 := within_iff.mp lead
  obtain ⟨least, greatest, longer, single, -, -⟩ := second_bounds second
  rw [isTail_iff] at third
  simp only [payload]
  rw [encode_ofNat, if_neg (by omega), if_neg (by omega), if_pos (by omega)]
  · simp only [List.cons.injEq, and_true, ← UInt8.toNat_inj, UInt8.toNat_ofNat']
    omega
  · rw [Nat.isValidChar]
    omega

theorem encode_four (lead : within 0xF0 0xF4 a = true)
    (second : within (secondBounds a).1 (secondBounds a).2 b = true) (third : isTail c = true)
    (fourth : isTail d = true) :
    String.utf8EncodeChar (Char.ofNat (((a.toNat % 8 * 64 + payload b) * 64 + payload c) * 64 + payload d)) =
      [a, b, c, d] := by
  obtain ⟨low, high⟩ : 240 ≤ a.toNat ∧ a.toNat ≤ 244 := within_iff.mp lead
  obtain ⟨least, greatest, -, -, longer, bounded⟩ := second_bounds second
  rw [isTail_iff] at third fourth
  simp only [payload]
  rw [encode_ofNat, if_neg (by omega), if_neg (by omega), if_neg (by omega)]
  · simp only [List.cons.injEq, and_true, ← UInt8.toNat_inj, UInt8.toNat_ofNat']
    omega
  · rw [Nat.isValidChar]
    omega

end Forms

/-- A character is one byte, or all its bytes are beyond ASCII. -/
theorem encode_high (c : Char) :
    (∃ x, String.utf8EncodeChar c = [x]) ∨ ∀ x ∈ String.utf8EncodeChar c, 128 ≤ x.toNat := by
  rw [← Char.ofNat_toNat c, encode_ofNat (n := c.toNat) c.valid]
  split
  · exact Or.inl ⟨_, rfl⟩
  · right
    split
    · simp only [List.forall_mem_cons, UInt8.toNat_ofNat']
      exact ⟨by omega, by omega, List.forall_mem_nil _⟩
    split
    · simp only [List.forall_mem_cons, UInt8.toNat_ofNat']
      exact ⟨by omega, by omega, by omega, List.forall_mem_nil _⟩
    · simp only [List.forall_mem_cons, UInt8.toNat_ofNat']
      exact ⟨by omega, by omega, by omega, by omega, List.forall_mem_nil _⟩

/-- Only the character zero has a zero among its bytes. -/
theorem zero_of_mem_encode {c : Char} (member : 0 ∈ String.utf8EncodeChar c) : c.toNat = 0 := by
  rw [← Char.ofNat_toNat c, encode_ofNat (n := c.toNat) c.valid] at member
  have zero : (0 : UInt8).toNat = 0 := rfl
  repeat' split at member
  all_goals
    simp only [List.mem_cons, List.not_mem_nil, or_false, ← UInt8.toNat_inj, UInt8.toNat_ofNat', zero] at member
    omega

theorem char?_ascii {b : UInt8} (low : b < 0x80) (rest : Bytes) :
    char? b rest = some (Char.ofNat b.toNat, rest) := by
  unfold char?
  rw [if_pos low]

/-- What is read as a character is the form of that character; it is read the same whatever follows. -/
theorem char?_form {lead : UInt8} {rest rest' : Bytes} {c : Char} (read : char? lead rest = some (c, rest')) :
    ∃ used, rest = used ++ rest' ∧ lead :: used = String.utf8EncodeChar c ∧
      ∀ more, char? lead (used ++ more) = some (c, more) := by
  unfold char? at read
  split at read
  · rename_i low
    cases read
    exact ⟨[], rfl, (encode_one low).symm, char?_ascii low⟩
  rename_i high
  split at read
  · rename_i two
    split at read
    · rename_i b rest
      split at read
      · rename_i second
        cases read
        refine ⟨[b], rfl, (encode_two two second).symm, fun more => ?_⟩
        simp [char?, high, two, second]
      · cases read
    · cases read
  rename_i notTwo
  split at read
  · rename_i three
    split at read
    · rename_i b c rest
      split at read
      · rename_i tails
        cases read
        obtain ⟨second, third⟩ := Bool.and_eq_true_iff.mp tails
        refine ⟨[b, c], rfl, (encode_three three second third).symm, fun more => ?_⟩
        simp [char?, high, notTwo, three, second, third]
      · cases read
    · cases read
  rename_i notThree
  split at read
  · rename_i four
    split at read
    · rename_i b c d rest
      split at read
      · rename_i tails
        cases read
        obtain ⟨early, fourth⟩ := Bool.and_eq_true_iff.mp tails
        obtain ⟨second, third⟩ := Bool.and_eq_true_iff.mp early
        refine ⟨[b, c, d], rfl, (encode_four four second third fourth).symm, fun more => ?_⟩
        simp [char?, high, notTwo, notThree, four, second, third, fourth]
      · cases read
    · cases read
  · cases read

/-- What is read of a character behind its first byte is beyond ASCII. -/
theorem char?_used {lead : UInt8} {rest after : Bytes} {c : Char} (read : char? lead rest = some (c, after)) :
    ∃ used, rest = used ++ after ∧ (∀ x ∈ used, 128 ≤ x.toNat) ∧ ∀ more, char? lead (used ++ more) = some (c, more) := by
  obtain ⟨used, split, form, reads⟩ := char?_form read
  refine ⟨used, split, ?_, reads⟩
  rcases encode_high c with ⟨x, single⟩ | all
  · rw [single] at form
    rw [(List.cons.inj form).2]
    exact List.forall_mem_nil _
  · rw [← form] at all
    exact fun x member => all x (List.mem_cons_of_mem lead member)

def WellFormed (b : Bytes) : Prop := ∀ g ∈ glyphs b, ∃ c, g = .char c

theorem wellFormed_nil : WellFormed [] := by
  intro g member
  rw [glyphs] at member
  cases member

/-- A character before a text of characters. -/
theorem WellFormed.cons {lead : UInt8} {whole rest : Bytes} {c : Char}
    (read : char? lead whole = some (c, rest)) (later : WellFormed rest) : WellFormed (lead :: whole) := by
  have first : step lead whole = (.char c, rest) := by rw [step, read]
  intro g member
  rw [glyphs, first] at member
  rcases List.mem_cons.mp member with same | after
  · exact ⟨c, same⟩
  · exact later g after

theorem wellFormed_ascii {b : Bytes} (ascii : ∀ x ∈ b, x < 0x80) : WellFormed b := by
  induction b with
  | nil => exact wellFormed_nil
  | cons x rest ih =>
    have later := ih fun y member => ascii y (List.mem_cons_of_mem x member)
    exact WellFormed.cons (char?_ascii (ascii x List.mem_cons_self) rest) later

/-- A string literal is opened as a list of characters. -/
theorem ofString_ofList (cs : List Char) : Bytes.ofString (String.ofList cs) = cs.flatMap String.utf8EncodeChar := by
  rw [Bytes.ofString, String.toList_ofList]

/-- Texts are told apart by their bytes. -/
theorem ofString_inj {a b : String} (same : Bytes.ofString a = Bytes.ofString b) : a = b := by
  rw [← String.toByteArray_inj, ← String.ofList_toList (s := a), ← String.ofList_toList (s := b),
    String.toByteArray_ofList, String.toByteArray_ofList]
  exact congrArg List.toByteArray same

theorem ofString_append (a b : String) : Bytes.ofString (a ++ b) = Bytes.ofString a ++ Bytes.ofString b := by
  rw [Bytes.ofString, String.toList_append, List.flatMap_append, Bytes.ofString, Bytes.ofString]

/-- A text of characters is spelled back byte for byte. -/
theorem ofString_stringLossy {b : Bytes} (formed : WellFormed b) : Bytes.ofString (stringLossy b) = b := by
  rw [stringLossy, ofString_ofList]
  fun_induction glyphs b with
  | case1 => rfl
  | case2 lead rest ih =>
    rw [WellFormed, glyphs, List.forall_mem_cons] at formed
    obtain ⟨⟨c, first⟩, later⟩ := formed
    rw [List.map_cons, List.flatMap_cons, ih later, first, Glyph.shown]
    rw [step] at first ⊢
    split at first
    · rename_i c' rest' read
      cases first
      obtain ⟨used, split, form, -⟩ := char?_form read
      rw [split, ← form]
      rfl
    · cases first

end WitnessLang.Utf8
