import WitnessLang.Proofs.Types.Structure

set_option autoImplicit false

/-! Keys tell types apart. A key can be read back from the left: the text behind it never
starts with a character that could go on with it. -/
namespace WitnessLang

/-- A text that no number and no application goes on into. -/
def Stops (text : List Char) : Prop :=
  ∀ c ∈ text.head?, c.isDigit = false ∧ c ≠ '.' ∧ c ≠ '['

def Closes (text : List Char) : Prop := text.head? = some ']' ∨ text.head? = some ')'

theorem Closes.stops {text : List Char} (closes : Closes text) : Stops text := by
  rintro c found
  rcases closes with head | head
  · obtain rfl : ']' = c := by simpa [head] using found
    decide
  · obtain rfl : ')' = c := by simpa [head] using found
    decide

theorem Stops.of_head {c : Char} {text : List Char}
    (stops : c.isDigit = false ∧ c ≠ '.' ∧ c ≠ '[') : Stops (c :: text) := by
  intro d found
  obtain rfl : c = d := by simpa using found
  exact stops

/-- Numbers are read up to the first character that is no digit. -/
theorem digits_append {m n : Nat} {x y : List Char}
    (stopX : ∀ c ∈ x.head?, c.isDigit = false) (stopY : ∀ c ∈ y.head?, c.isDigit = false)
    (same : Nat.toDigits 10 m ++ x = Nat.toDigits 10 n ++ y) : m = n ∧ x = y := by
  have read : ∀ (k : Nat) (text : List Char), (∀ c ∈ text.head?, c.isDigit = false) →
      (Nat.toDigits 10 k ++ text).takeWhile Char.isDigit = Nat.toDigits 10 k := by
    intro k text stop
    have none : text.takeWhile Char.isDigit = [] := by
      cases text with
      | nil => rfl
      | cons c rest => simp [stop c rfl]
    rw [List.takeWhile_append_of_pos, none, List.append_nil]
    exact fun c member => Nat.isDigit_of_mem_toDigits (by decide) (by decide) member
  have digits : Nat.toDigits 10 m = Nat.toDigits 10 n := by
    rw [← read m x stopX, ← read n y stopY, same]
  have number : m = n := by
    rw [← Nat.ofDigitChars_ten_toDigits (n := m), digits, Nat.ofDigitChars_ten_toDigits]
  subst number
  exact ⟨rfl, List.append_cancel_left same⟩

theorem Tag.toList_render (t : Tag) :
    t.render.toList = Nat.toDigits 10 t.unit ++ '.' :: Nat.toDigits 10 t.key := by
  simp [Tag.render]

theorem Tag.render_append {t u : Tag} {x y : List Char}
    (stopX : ∀ c ∈ x.head?, c.isDigit = false) (stopY : ∀ c ∈ y.head?, c.isDigit = false)
    (same : t.render.toList ++ x = u.render.toList ++ y) : t = u ∧ x = y := by
  rw [Tag.toList_render, Tag.toList_render, List.append_assoc, List.append_assoc] at same
  obtain ⟨unit, rest⟩ := digits_append (by simp) (by simp) same
  obtain ⟨key, rest⟩ := digits_append stopX stopY (List.cons.inj rest).2
  refine ⟨?_, rest⟩
  cases t
  cases u
  simp_all

namespace Ty

section Spelling

variable (name : Ident) (args : List Ty) (result : Ty)

theorem key_named : (named name args).key = if args.isEmpty then "N" ++ name.tag.render
    else "N" ++ name.tag.render ++ "[" ++ commaSeparated (args.map key) ++ "]" :=
  keys_eq_map args ▸ rfl

theorem key_generic : (generic name).key = "G" ++ name.tag.render := rfl

theorem key_func :
    (func args result).key = "F(" ++ commaSeparated (args.map key) ++ ")" ++ result.key :=
  keys_eq_map args ▸ rfl

end Spelling

def keyText (ts : List Ty) : List Char := (commaSeparated (ts.map key)).toList

theorem toList_commaSeparated_key (ts : List Ty) : (commaSeparated (ts.map key)).toList = keyText ts := rfl

theorem keyText_eq (ts : List Ty) : keyText ts = (", ".intercalate (ts.map key)).toList := rfl

@[simp] theorem keyText_nil : keyText [] = [] := by simp [keyText_eq]

@[simp] theorem keyText_single (t : Ty) : keyText [t] = t.key.toList := by simp [keyText_eq]

@[simp] theorem keyText_cons (t u : Ty) (rest : List Ty) :
    keyText (t :: u :: rest) = t.key.toList ++ ',' :: ' ' :: keyText (u :: rest) := by
  simp [keyText_eq, String.intercalate_cons_cons]

theorem toList_key_named (name : Ident) (args : List Ty) :
    (named name args).key.toList = 'N' :: (name.tag.render.toList ++
      if args.isEmpty then [] else '[' :: (keyText args ++ [']'])) := by
  rw [key_named]
  split <;> simp [toList_commaSeparated_key]

theorem toList_key_generic (name : Ident) :
    (generic name).key.toList = 'G' :: name.tag.render.toList := by
  simp [key_generic]

theorem toList_key_func (args : List Ty) (result : Ty) :
    (func args result).key.toList =
      'F' :: '(' :: (keyText args ++ ')' :: result.key.toList) := by
  simp [key_func, toList_commaSeparated_key]

/-- The key of a type can be told from the text behind it. -/
def Readable (t : Ty) : Prop :=
  ∀ (u : Ty) (x y : List Char), u.cells = [] → Stops x → Stops y →
    t.key.toList ++ x = u.key.toList ++ y → Alike t u ∧ x = y

theorem head_key {t : Ty} (closed : t.cells = []) :
    ∃ c rest, t.key.toList = c :: rest ∧ c ≠ ']' ∧ c ≠ ')' := by
  cases t with
  | named name args => exact ⟨'N', _, toList_key_named name args, by decide, by decide⟩
  | generic name => exact ⟨'G', _, toList_key_generic name, by decide, by decide⟩
  | func args result => exact ⟨'F', _, toList_key_func args result, by decide, by decide⟩
  | cell c => simp at closed

theorem head_keyText {t : Ty} (closed : t.cells = []) (rest : List Ty) :
    ∃ c more, keyText (t :: rest) = c :: more ∧ c ≠ ']' ∧ c ≠ ')' := by
  obtain ⟨c, more, text, apart⟩ := head_key closed
  cases rest with
  | nil => exact ⟨c, more, by simp [text], apart⟩
  | cons u rest => exact ⟨c, more ++ ',' :: ' ' :: keyText (u :: rest), by simp [text], apart⟩

/-- Lists of keys are read up to what closes them. -/
theorem keyText_append {ts us : List Ty} {x y : List Char} (readable : ∀ t ∈ ts, Readable t)
    (closedT : ∀ t ∈ ts, t.cells = []) (closedU : ∀ u ∈ us, u.cells = []) (closesX : Closes x)
    (closesY : Closes y) (same : keyText ts ++ x = keyText us ++ y) :
    ts.map erase = us.map erase ∧ x = y := by
  have apart : ∀ {v : Ty} {vs : List Ty} {z w : List Char}, v.cells = [] → Closes z →
      z ≠ keyText (v :: vs) ++ w := by
    intro v vs z w closed closes equal
    obtain ⟨c, more, text, apart⟩ := head_keyText closed vs
    rw [equal, text] at closes
    rcases closes with head | head <;> simp_all
  induction ts generalizing us with
  | nil =>
    cases us with
    | nil => exact ⟨rfl, by simpa using same⟩
    | cons u us => exact absurd (by simpa using same) (apart (closedU u (by simp)) closesX)
  | cons t ts ih =>
    cases us with
    | nil => exact absurd (by simpa using same.symm) (apart (closedT t (by simp)) closesY)
    | cons u us =>
      rw [List.forall_mem_cons] at readable closedT closedU
      have comma : ∀ text, Stops (',' :: text) := fun text => .of_head (by decide)
      cases ts with
      | nil =>
        cases us with
        | nil =>
          obtain ⟨alike, rest⟩ := readable.1 u x y closedU.1 closesX.stops closesY.stops
            (by simpa using same)
          exact ⟨congrArg (· :: []) alike, rest⟩
        | cons u' us =>
          obtain ⟨-, rest⟩ := readable.1 u x _ closedU.1 closesX.stops (comma _)
            (by simpa using same)
          rw [rest] at closesX
          rcases closesX with head | head <;> simp at head
      | cons t' ts =>
        cases us with
        | nil =>
          obtain ⟨-, rest⟩ := readable.1 u _ y closedU.1 (comma _) closesY.stops
            (by simpa using same)
          rw [← rest] at closesY
          rcases closesY with head | head <;> simp at head
        | cons u' us =>
          obtain ⟨alike, rest⟩ := readable.1 u _ _ closedU.1 (comma _) (comma _)
            (by simpa using same)
          obtain ⟨others, rest⟩ := ih readable.2 closedT.2 closedU.2
            (List.cons.inj (List.cons.inj rest).2).2
          exact ⟨congrArg₂ (· :: ·) alike others, rest⟩

theorem readable_of_closed {t : Ty} (closed : t.cells = []) : Readable t := by
  have tagStops : ∀ {x : List Char} {args : List Ty}, Stops x → ∀ c ∈ List.head?
      ((if args.isEmpty then [] else '[' :: (keyText args ++ [']'])) ++ x), c.isDigit = false := by
    intro x args stops c found
    split at found
    · exact (stops c (by simpa using found)).1
    · obtain rfl : '[' = c := by simpa using found
      decide
  induction t with
  | named name args ih =>
    intro u x y closedU stopX stopY same
    simp only [cells_named, List.flatMap_eq_nil_iff] at closed
    rw [toList_key_named] at same
    cases u with
    | named name' args' =>
      simp only [cells_named, List.flatMap_eq_nil_iff] at closedU
      rw [toList_key_named] at same
      simp only [List.cons_append, List.append_assoc, List.cons.injEq, true_and] at same
      obtain ⟨tag, rest⟩ := Tag.render_append (tagStops stopX) (tagStops stopY) same
      rw [alike_named]
      cases args with
      | nil =>
        cases args' with
        | nil => exact ⟨⟨tag, rfl⟩, by simpa using rest⟩
        | cons t ts =>
          simp only [List.isEmpty_nil, ↓reduceIte, List.nil_append, List.isEmpty_cons,
            Bool.false_eq_true, List.cons_append] at rest
          rw [rest] at stopX
          exact absurd rfl (stopX '[' rfl).2.2
      | cons t ts =>
        cases args' with
        | nil =>
          simp only [List.isEmpty_nil, ↓reduceIte, List.nil_append, List.isEmpty_cons,
            Bool.false_eq_true, List.cons_append] at rest
          rw [← rest] at stopY
          exact absurd rfl (stopY '[' rfl).2.2
        | cons t' ts' =>
          simp only [List.isEmpty_cons, Bool.false_eq_true, ↓reduceIte, List.cons_append,
            List.append_assoc, List.cons.injEq, true_and] at rest
          obtain ⟨args, rest⟩ := keyText_append (fun t member => ih t member (closed t member))
            closed closedU (Or.inl rfl) (Or.inl rfl) rest
          exact ⟨⟨tag, args⟩, (List.cons.inj rest).2⟩
    | generic name' => simp [toList_key_generic] at same
    | func args' result' => simp [toList_key_func] at same
    | cell c => simp at closedU
  | generic name =>
    intro u x y closedU stopX stopY same
    rw [toList_key_generic] at same
    cases u with
    | named name' args' => simp [toList_key_named] at same
    | generic name' =>
      simp only [toList_key_generic, List.cons_append, List.cons.injEq, true_and] at same
      obtain ⟨tag, rest⟩ := Tag.render_append (fun c found => (stopX c found).1)
        (fun c found => (stopY c found).1) same
      exact ⟨by simpa [Alike, Ident.erase_inj] using tag, rest⟩
    | func args' result' => simp [toList_key_func] at same
    | cell c => simp at closedU
  | func args result ih ihResult =>
    intro u x y closedU stopX stopY same
    simp only [cells_func, List.append_eq_nil_iff, List.flatMap_eq_nil_iff] at closed
    rw [toList_key_func] at same
    cases u with
    | named name' args' => simp [toList_key_named] at same
    | generic name' => simp [toList_key_generic] at same
    | func args' result' =>
      simp only [cells_func, List.append_eq_nil_iff, List.flatMap_eq_nil_iff] at closedU
      simp only [toList_key_func, List.cons_append, List.append_assoc, List.cons.injEq,
        true_and] at same
      obtain ⟨params, rest⟩ := keyText_append (fun t member => ih t member (closed.1 t member))
        closed.1 closedU.1 (Or.inr rfl) (Or.inr rfl) same
      obtain ⟨results, rest⟩ := ihResult closed.2 _ x y closedU.2 stopX stopY
        (List.cons.inj rest).2
      exact ⟨alike_func.mpr ⟨params, results⟩, rest⟩
    | cell c => simp at closedU
  | cell c => simp at closed

/-- Types without cells have the same key only if they are alike. -/
theorem alike_of_key {t u : Ty} (closedT : t.cells = []) (closedU : u.cells = [])
    (same : t.key = u.key) : Alike t u := by
  refine (readable_of_closed closedT u [] [] closedU ?_ ?_ (by rw [same])).1
  · simp [Stops]
  · simp [Stops]

theorem key_erase (t : Ty) : t.erase.key = t.key := by
  induction t with
  | named name args ih =>
    simp only [erase_named, key_named, List.isEmpty_map, List.map_map, Ident.tag_erase]
    rw [List.map_congr_left (f := key ∘ erase) ih]
  | generic name => simp [key_generic]
  | func args result ih ihResult =>
    simp only [erase_func, key_func, List.map_map, ihResult]
    rw [List.map_congr_left (f := key ∘ erase) ih]
  | cell c => simp

theorem Alike.key {t u : Ty} (alike : Alike t u) : t.key = u.key := by
  rw [← key_erase t, ← key_erase u, alike]

end Ty

/-- A text that a number behind it can be told from. -/
def Stem (front : String) : Prop := ∀ c ∈ front.toList.getLast?, c.isDigit = false

theorem Stem.append (front : String) {c : Char} (stop : c.isDigit = false) : Stem (front ++ c.toString) := by
  intro d found
  obtain rfl : c = d := by simpa using found
  exact stop

theorem stem_underscore (name : String) : Stem (name ++ "_") := Stem.append name (c := '_') rfl

/-- The number at the end of a name is read from the right. -/
theorem takeWhile_numbered {front : String} (stem : Stem front) (n : Nat) :
    (front ++ toString n).toList.reverse.takeWhile Char.isDigit = (Nat.toDigits 10 n).reverse := by
  have stops : front.toList.reverse.takeWhile Char.isDigit = [] := by
    rw [Stem, ← List.head?_reverse] at stem
    cases text : front.toList.reverse with
    | nil => rfl
    | cons c rest => simp [stem c (by simp [text])]
  have digits : (front ++ toString n).toList = front.toList ++ Nat.toDigits 10 n := by simp
  rw [digits, List.reverse_append, List.takeWhile_append_of_pos, stops, List.append_nil]
  intro c member
  exact Nat.isDigit_of_mem_toDigits (by decide) (by decide) (List.mem_reverse.mp member)

theorem numbered_eq {front back : String} (stem : Stem front) (stem' : Stem back) {m n : Nat} :
    front ++ toString m = back ++ toString n ↔ front = back ∧ m = n := by
  refine ⟨fun same => ?_, fun ⟨first, second⟩ => by rw [first, second]⟩
  have digits := takeWhile_numbered stem m
  rw [same, takeWhile_numbered stem' n, List.reverse_inj] at digits
  have number : m = n := by
    rw [← Nat.ofDigitChars_ten_toDigits (n := m), ← digits, Nat.ofDigitChars_ten_toDigits]
  rw [number] at same
  exact ⟨(String.append_left_inj _).mp same, number⟩

/-- A name that ends in something else has no number at its end. -/
theorem numbered_ne {front name : String} (stem : Stem name) (n : Nat) : front ++ toString n ≠ name := by
  intro same
  obtain ⟨c, last⟩ : ∃ c, (Nat.toDigits 10 n).getLast? = some c :=
    Option.isSome_iff_exists.mp (List.getLast?_isSome.mpr Nat.toDigits_ne_nil)
  have found : name.toList.getLast? = some c := by
    rw [← same]
    simp [List.getLast?_append, last]
  have digit := Nat.isDigit_of_mem_toDigits (by decide) (by decide) (List.mem_of_getLast? last)
  rw [stem c found] at digit
  cases digit

theorem mangled_of_local {i : Ident} (plain : i.isGlobal = false) (proper : i.tag.isBuiltin = false) :
    i.mangled = i.name ++ "_" ++ toString i.tag.key := by
  rw [Ident.mangled, plain, proper]
  rfl

theorem mangled_of_global {i : Ident} (plain : i.isGlobal = true) : i.mangled = i.name := by
  rw [Ident.mangled, plain]
  rfl

end WitnessLang
