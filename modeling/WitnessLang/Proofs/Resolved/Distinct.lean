import WitnessLang.Proofs.Resolved.Agreement

set_option autoImplicit false

namespace WitnessLang.Resolved.Reference

section Runs

variable {α β : Type} {x : Numbered α} {g : α → Numbered β} {n n' : Nat}

theorem numbered_bind_ok {b : β} :
    (x >>= g) n = .ok (b, n') ↔ ∃ a m, x n = .ok (a, m) ∧ g a m = .ok (b, n') := by
  rw [numbered_bind]
  cases x n with
  | error e => simp
  | ok p =>
    obtain ⟨a, m⟩ := p
    simp

theorem numbered_pure_ok {a b : α} : (pure a : Numbered α) n = .ok (b, n') ↔ a = b ∧ n = n' := by
  change Except.ok (a, n) = _ ↔ _
  simp

theorem refuse_ok {taken : Option Span} {name : String} {span : Span} {u : Unit}
    (done : refuse taken name span n = .ok (u, n')) : taken = none ∧ n' = n := by
  cases taken with
  | some previous => cases done
  | none => exact ⟨rfl, (numbered_pure_ok.mp done).2.symm⟩

end Runs

section Items

variable {unit n n' : Nat} {own own' : Names} {name : String} {span : Span} {i : Ident}

theorem declareValue_ok {kind : SymbolKind} (plain : kind ≠ .binding)
    (done : declareValue unit kind own name span n = .ok ((i, own'), n')) :
    i.name = name ∧ i.isGlobal = decide (kind = .function) ∧ own' = { own with values := ⟨i, span⟩ :: own.values } ∧
      name ∉ own.values.map (·.ident.name) := by
  rw [declareValue, if_neg plain, numbered_bind_ok] at done
  obtain ⟨u, m, free, done⟩ := done
  obtain ⟨none, rfl⟩ := refuse_ok free
  rw [numbered_bind_ok] at done
  obtain ⟨tag, m', -, done⟩ := done
  obtain ⟨same, -⟩ := numbered_pure_ok.mp done
  obtain ⟨rfl, rfl⟩ := Prod.mk.inj same
  rw [Option.map_eq_none_iff, List.find?_eq_none] at none
  refine ⟨rfl, rfl, rfl, fun taken => ?_⟩
  obtain ⟨v, member, same⟩ := List.mem_map.mp taken
  exact none v (List.mem_reverse.mpr member) (beq_iff_eq.mpr same)

theorem declareType_ok {meaning : Meaning} (done : declareType unit meaning own name span n = .ok ((i, own'), n')) :
    i.name = name ∧ i.isGlobal = decide (meaning ≠ .parameter) ∧
      own' = { own with types := ⟨i, span, meaning⟩ :: own.types } ∧ name ∉ own.types.map (·.ident.name) := by
  rw [declareType, numbered_bind_ok] at done
  obtain ⟨u, m, free, done⟩ := done
  obtain ⟨none, rfl⟩ := refuse_ok free
  rw [numbered_bind_ok] at done
  obtain ⟨tag, m', -, done⟩ := done
  obtain ⟨same, -⟩ := numbered_pure_ok.mp done
  obtain ⟨rfl, rfl⟩ := Prod.mk.inj same
  rw [Option.map_eq_none_iff, List.find?_eq_none] at none
  refine ⟨rfl, rfl, rfl, fun taken => ?_⟩
  obtain ⟨t, member, same⟩ := List.mem_map.mp taken
  exact none t (List.mem_reverse.mpr member) (beq_iff_eq.mpr same)

/-- Definitions take names that are free. The induction is on the definitions that are left. -/
theorem declareItems_ok {items : List Surface.Item} {is : List Ident}
    (done : declareItems unit own items n = .ok ((is, own'), n')) (values : (own.values.map (·.ident.name)).Nodup)
    (types : (own.types.map (·.ident.name)).Nodup) :
    ((functionsOf (is.zip items)).map (·.1.name) ++ own.values.map (·.ident.name)).Nodup ∧
      ((structsOf (is.zip items)).map (·.1.name) ++ own.types.map (·.ident.name)).Nodup ∧
      ∀ i ∈ is, i.isGlobal = true := by
  induction items generalizing own own' n n' is with
  | nil =>
    obtain ⟨same, -⟩ := numbered_pure_ok.mp done
    obtain ⟨rfl, rfl⟩ := Prod.mk.inj same
    exact ⟨values, types, List.forall_mem_nil _⟩
  | cons item rest ih =>
    rw [declareItems, numbered_bind_ok] at done
    obtain ⟨⟨i, own₁⟩, m, first, done⟩ := done
    rw [numbered_bind_ok] at done
    obtain ⟨⟨js, own₂⟩, m', others, done⟩ := done
    obtain ⟨same, -⟩ := numbered_pure_ok.mp done
    obtain ⟨rfl, rfl⟩ := Prod.mk.inj same
    cases item with
    | func f =>
      obtain ⟨named, global, rfl, free⟩ := declareValue_ok (by decide) first
      rw [← named] at free
      obtain ⟨functions, structs, globals⟩ := ih others (List.nodup_cons.mpr ⟨free, values⟩) types
      exact ⟨List.perm_middle.nodup_iff.mp functions, structs, List.forall_mem_cons.mpr ⟨global, globals⟩⟩
    | struct s =>
      rw [declareItem] at first
      cases repeated : s.fields.zipIdx.find? (repeats s.fields) with
      | some f =>
        rw [repeated] at first
        cases first
      | none =>
        rw [repeated] at first
        obtain ⟨named, global, rfl, free⟩ := declareType_ok first
        rw [← named] at free
        obtain ⟨functions, structs, globals⟩ := ih others values (List.nodup_cons.mpr ⟨free, types⟩)
        exact ⟨functions, List.perm_middle.nodup_iff.mp structs, List.forall_mem_cons.mpr ⟨global, globals⟩⟩

theorem structs_names {names : Names} {named : List (Ident × Surface.Item)} {ss : List Struct}
    (done : structs unit names named n = .ok (ss, n')) : ss.map (·.name) = (structsOf named).map (·.1) := by
  induction named generalizing n n' ss with
  | nil =>
    obtain ⟨rfl, -⟩ := numbered_pure_ok.mp done
    rfl
  | cons e rest ih =>
    obtain ⟨name, f | s⟩ := e
    · exact ih done
    · rw [structs, numbered_bind_ok] at done
      obtain ⟨s', m, first, done⟩ := done
      rw [numbered_bind_ok] at done
      obtain ⟨ss, m', others, done⟩ := done
      obtain ⟨rfl, -⟩ := numbered_pure_ok.mp done
      rw [struct, numbered_bind_ok] at first
      obtain ⟨_, _, _, first⟩ := first
      rw [numbered_bind_ok] at first
      obtain ⟨_, _, _, first⟩ := first
      obtain ⟨rfl, -⟩ := numbered_pure_ok.mp first
      exact congrArg (name :: ·) (ih others)

theorem functions_names {names : Names} {named : List (Ident × Surface.Item)} {fs : List Function}
    (done : functions unit names named n = .ok (fs, n')) : fs.map (·.name) = (functionsOf named).map (·.1) := by
  induction named generalizing n n' fs with
  | nil =>
    obtain ⟨rfl, -⟩ := numbered_pure_ok.mp done
    rfl
  | cons e rest ih =>
    obtain ⟨name, f | s⟩ := e
    · rw [functions, numbered_bind_ok] at done
      obtain ⟨f', m, first, done⟩ := done
      rw [numbered_bind_ok] at done
      obtain ⟨fs, m', others, done⟩ := done
      obtain ⟨rfl, -⟩ := numbered_pure_ok.mp done
      simp only [function, numbered_bind_ok] at first
      obtain ⟨_, _, _, _, _, _, _, _, _, _, _, _, first⟩ := first
      obtain ⟨rfl, -⟩ := numbered_pure_ok.mp first
      exact congrArg (name :: ·) (ih others)
    · exact ih done

end Items

end WitnessLang.Resolved.Reference

namespace WitnessLang.Resolved

/-- The definitions of a file that is resolved are told apart by their names, each kind among themselves. -/
theorem resolve_distinct {file : Surface.File} {names : List String} {unit : Nat} {p : Program} {table : SymbolTable}
    (own : unit ≠ Tag.builtinUnit)
    (resolved : resolve file (names.foldl SymbolTable.intern .start) unit = (.ok p, table)) :
    ((p.structs.map (·.name.name)).Nodup ∧ ∀ s ∈ p.structs, s.name.isGlobal = true) ∧
      (p.functions.map (·.name.name)).Nodup ∧ ∀ f ∈ p.functions, f.name.isGlobal = true := by
  have done := resolve_eq_reference own file names
  rw [resolved] at done
  change Except.ok p = (·.1) <$> Reference.program unit file.items 0 at done
  cases ran : Reference.program unit file.items 0 with
  | error e =>
    rw [ran] at done
    cases done
  | ok end_ =>
    obtain ⟨p', n'⟩ := end_
    rw [ran] at done
    obtain rfl : p = p' := Except.ok.inj done
    simp only [Reference.program, Reference.numbered_bind_ok] at ran
    obtain ⟨⟨is, names⟩, _, declared, ss, _, structs, fs, _, functions, ran⟩ := ran
    obtain ⟨rfl, -⟩ := Reference.numbered_pure_ok.mp ran
    obtain ⟨onceF, onceS, globals⟩ := Reference.declareItems_ok declared List.nodup_nil List.nodup_nil
    have namesS := Reference.structs_names structs
    have namesF := Reference.functions_names functions
    have inside : ∀ i, (∃ item, (i, item) ∈ is.zip file.items) → i.isGlobal = true := by
      rintro i ⟨item, member⟩
      exact globals i (List.of_mem_zip member).1
    refine ⟨⟨?_, fun s member => inside _ ?_⟩, ?_, fun f member => inside _ ?_⟩
    · have same := congrArg (List.map (·.name)) namesS
      rw [List.map_map, List.map_map] at same
      rw [List.map_nil, List.append_nil] at onceS
      exact (congrArg List.Nodup same).mpr onceS
    · have listed : s.name ∈ (structsOf (is.zip file.items)).map (·.1) := namesS ▸ List.mem_map_of_mem member
      obtain ⟨⟨i, d⟩, found, same⟩ := List.mem_map.mp listed
      obtain ⟨⟨j, item⟩, paired, made⟩ := List.mem_filterMap.mp found
      cases item with
      | func f => cases made
      | struct d =>
        obtain ⟨rfl, rfl⟩ := Prod.mk.inj (Option.some.inj made)
        exact ⟨_, (show j = s.name from same) ▸ paired⟩
    · have same := congrArg (List.map (·.name)) namesF
      rw [List.map_map, List.map_map] at same
      rw [List.map_nil, List.append_nil] at onceF
      exact (congrArg List.Nodup same).mpr onceF
    · have listed : f.name ∈ (functionsOf (is.zip file.items)).map (·.1) := namesF ▸ List.mem_map_of_mem member
      obtain ⟨⟨i, d⟩, found, same⟩ := List.mem_map.mp listed
      obtain ⟨⟨j, item⟩, paired, made⟩ := List.mem_filterMap.mp found
      cases item with
      | struct d => cases made
      | func d =>
        obtain ⟨rfl, rfl⟩ := Prod.mk.inj (Option.some.inj made)
        exact ⟨_, (show j = f.name from same) ▸ paired⟩

end WitnessLang.Resolved
