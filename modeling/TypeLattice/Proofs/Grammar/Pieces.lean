import TypeLattice.Proofs.Grammar.Failing

/-!
The parts of an annotation in its text. Each of them is an annotation in its own right and stands
somewhere in the text, but for the elements of an array without brackets, which are not written.
-/
namespace TypeLattice.TypeTerm

/-- After its question mark an annotation is one without. -/
theorem grammar_bare {ts : List Token} {a : WrittenType} (parsed : Grammar ts a) :
    ∃ nullable us, ts = marks nullable ++ us ∧ us ≠ [] ∧ Grammar us a.bare := by
  cases parsed with
  | keyword nullable b => exact ⟨nullable, _, rfl, nofun, Grammar.keyword false b⟩
  | className nullable proper => exact ⟨nullable, _, rfl, nofun, Grammar.className false proper⟩
  | bareArray nullable nonEmpty => exact ⟨nullable, _, rfl, nofun, Grammar.bareArray false nonEmpty⟩
  | array nullable nonEmpty inner =>
    exact ⟨nullable, _, rfl, nofun, Grammar.array false nonEmpty inner⟩
  | keyedArray nullable nonEmpty written inner =>
    exact ⟨nullable, _, rfl, nofun, Grammar.keyedArray false nonEmpty written inner⟩

variable {text : List Char} {a : WrittenType}

theorem occurs_of_derives (derived : Derives text a) : Occurs text a := by
  obtain ⟨rest, starts, _⟩ := derives_iff_starts.mp derived
  exact ⟨text, rest, List.suffix_rfl, starts⟩

theorem occurs_bare (occurs : Occurs text a) : Occurs text a.bare := by
  obtain ⟨inner, rest, suffix, ts, parsed, spelled, ends⟩ := occurs
  obtain ⟨nullable, us, rfl, some, bare⟩ := grammar_bare parsed
  obtain ⟨unmarked, marked, spelled⟩ := spells_append_iff.mp spelled
  refine ⟨unmarked, rest, (suffix_of_spells marked).trans suffix, us, bare, spelled, ?_⟩
  intro nonEmpty last
  apply ends nonEmpty
  rw [List.getLast?_append_of_ne_nil _ some]
  exact last

theorem occurs_elem {nullable nonEmpty : Bool} {key : ArrayKey} {elem : WrittenType}
    (occurs : Occurs text (array nullable nonEmpty key elem)) : elem = any ∨ Occurs text elem := by
  obtain ⟨outer, rest, suffix, ts, parsed, spelled, _⟩ := occurs
  cases parsed with
  | bareArray => exact Or.inl rfl
  | array _ _ parsed =>
    rw [← List.append_assoc] at spelled
    obtain ⟨inner, opened, body⟩ := spells_append_iff.mp spelled
    obtain ⟨next, element, closing⟩ := spells_append_iff.mp body
    exact Or.inr ⟨inner, next, (suffix_of_spells opened).trans suffix, _, parsed, element,
      fun _ _ => notOpening_closing closing⟩
  | keyedArray _ _ _ parsed =>
    rw [← List.append_assoc] at spelled
    obtain ⟨inner, opened, body⟩ := spells_append_iff.mp spelled
    obtain ⟨after, keyed, argument⟩ := spells_append_iff.mp body
    obtain ⟨next, element, closing⟩ := spells_append_iff.mp argument
    have within := (suffix_of_spells keyed).trans (suffix_of_spells opened)
    exact Or.inr ⟨after, next, within.trans suffix, _, parsed, element,
      fun _ _ => notOpening_closing closing⟩

theorem occurs_part (occurs : Occurs text a) {part : WrittenType} (member : part ∈ a.parts) :
    part = any ∨ Occurs text part := by
  induction a with
  | basic nullable b =>
    rcases List.mem_pair.mp member with rfl | rfl
    · exact Or.inr (occurs_bare occurs)
    · exact Or.inr occurs
  | instanceOf nullable name =>
    rcases List.mem_pair.mp member with rfl | rfl
    · exact Or.inr (occurs_bare occurs)
    · exact Or.inr occurs
  | array nullable nonEmpty key elem ih =>
    rcases mem_parts_array.mp member with inside | rfl | rfl
    · rcases occurs_elem occurs with rfl | element
      · left
        simpa [parts, any] using inside
      · exact ih element inside
    · exact Or.inr (occurs_bare occurs)
    · exact Or.inr occurs

/-- What stands in a text is derived from a piece of it. -/
theorem piece_of_occurs (occurs : Occurs text a) : ∃ piece, piece <:+: text ∧ Derives piece a := by
  obtain ⟨inner, rest, suffix, starts⟩ := occurs
  obtain ⟨written, same, derived⟩ := derives_of_starts starts
  have front : written <+: skipBlanks inner := ⟨rest, same.symm⟩
  have back : skipBlanks inner <:+ text := (List.dropWhile_suffix _).trans suffix
  exact ⟨written, front.isInfix.trans back.isInfix, derived⟩

end TypeLattice.TypeTerm
