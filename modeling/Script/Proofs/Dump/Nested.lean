import Script.Proofs.Token.Lexemes

/-!
# Nested lists as text

A dump is a nested list written out: atoms with blanks between them, and parentheses around the
items of a list. Nothing in it is escaped, but an atom is either free of blanks, parentheses and
quotes or a string between its two quotes, so it is clear where each atom ends. Hence a text is
the text of one form only (`Form.eq_of_text`), whatever comes after it.
-/

namespace Script

/-- A nested list of atoms, which is what dumps write. -/
inductive Form where
  | atom (text : String)
  | list (items : List Form)

namespace Form

mutual

/-- The text of a form: an atom as it is, and a list between parentheses with blanks between its
items. -/
def text : Form → List Char
  | .atom text => text.toList
  | .list items => '(' :: inside items

/-- The text of the items of a list, up to its closing parenthesis. -/
def inside : List Form → List Char
  | [] => [')']
  | first :: others => first.text ++ more others

/-- The text of the items after the first, a blank before each, and the closing parenthesis. -/
def more : List Form → List Char
  | [] => [')']
  | next :: others => ' ' :: (next.text ++ more others)

end

/-! ## Atoms

Only at the end of an atom is there a question where it ends: a plain one at the next delimiter, a
string at its second quote. Escapes do not come up, since no string of the source holds a quote. -/

/-- The characters that atoms do not hold, outside strings. -/
def delimiters : List Char := [' ', '(', ')', '"']

/-- A text that can be an atom. -/
inductive IsAtom : List Char → Prop where
  | plain {text : List Char} (hne : text ≠ []) (h : ∀ c ∈ text, c ∉ delimiters) : IsAtom text
  | quoted {inside : List Char} (h : '"' ∉ inside) : IsAtom ('"' :: (inside ++ ['"']))

/-- What may come after an item: the end, a blank or a closing parenthesis. -/
def Closes (after : List Char) : Prop := ∀ c ∈ after.head?, c = ' ' ∨ c = ')'

variable {a b after after' : List Char}

/-- An atom begins with a character that begins neither a list nor what comes after an item. -/
theorem isAtom_head (h : IsAtom a) :
    ∃ c others, a = c :: others ∧ c ≠ ' ' ∧ c ≠ '(' ∧ c ≠ ')' := by
  cases h with
  | plain hne h =>
    obtain ⟨c, others, rfl⟩ := List.exists_cons_of_ne_nil hne
    have hfirst := h c (.head _)
    simp only [delimiters, List.mem_cons, List.not_mem_nil, or_false, not_or] at hfirst
    exact ⟨c, others, rfl, hfirst.1, hfirst.2.1, hfirst.2.2.1⟩
  | quoted h => exact ⟨'"', _, rfl, by decide, by decide, by decide⟩

/-- A plain atom goes on to the next delimiter. -/
theorem takeWhile_plain (h : ∀ c ∈ a, c ∉ delimiters) (hafter : Closes after) :
    (a ++ after).takeWhile (· ∉ delimiters) = a := by
  rw [List.takeWhile_append_of_pos fun c hc => decide_eq_true (h c hc)]
  suffices hnone : after.takeWhile (· ∉ delimiters) = [] by rw [hnone, List.append_nil]
  cases after with
  | nil => rfl
  | cons c others =>
    have hc : c ∈ delimiters := by
      rcases hafter c rfl with rfl | rfl <;> decide
    simp [hc]

/-- It is clear where an atom ends: before the first blank or parenthesis, or at its second quote.
So two texts that begin with atoms begin with the same one. -/
theorem eq_of_atom (ha : IsAtom a) (hb : IsAtom b) (hafter : Closes after)
    (hafter' : Closes after') (h : a ++ after = b ++ after') : a = b := by
  cases ha with
  | plain hne ha =>
    cases hb with
    | plain _ hb => rw [← takeWhile_plain ha hafter, h, takeWhile_plain hb hafter']
    -- Only one of the two begins with a quote.
    | quoted hb =>
      obtain ⟨c, others, rfl⟩ := List.exists_cons_of_ne_nil hne
      obtain ⟨rfl, -⟩ := List.cons.inj h
      exact absurd (ha '"' (.head _)) (by decide)
  | @quoted inside ha =>
    cases hb with
    | plain hne hb =>
      obtain ⟨c, others, rfl⟩ := List.exists_cons_of_ne_nil hne
      obtain ⟨rfl, -⟩ := List.cons.inj h
      exact absurd (hb '"' (.head _)) (by decide)
    | @quoted inside' hb =>
      -- A string goes on to the next quote.
      have hstrings : inside ++ '"' :: after = inside' ++ '"' :: after' := by simpa using h
      have hinside : inside = inside' := by
        rw [← @takeWhile_ne_append _ _ after ha, hstrings, takeWhile_ne_append hb]
      rw [hinside]

/-! ## Forms

Two texts are compared from the left. The first character tells whether the form is an atom or a
list, and after an item whether the list goes on. -/

mutual

/-- All atoms in the form can be atoms. -/
def Valid : Form → Prop
  | .atom text => IsAtom text.toList
  | .list items => AllValid items

/-- `Form.Valid` for each of these forms. -/
def AllValid : List Form → Prop
  | [] => True
  | first :: others => first.Valid ∧ AllValid others

end

/-- The text of a form is not empty, and begins with nothing that comes after an item. -/
theorem text_head {form : Form} (h : form.Valid) :
    ∃ c others, form.text = c :: others ∧ c ≠ ' ' ∧ c ≠ ')' := by
  cases form with
  | atom text =>
    rw [Valid] at h
    obtain ⟨c, others, htext, hblank, -, hclose⟩ := isAtom_head h
    exact ⟨c, others, by rw [Form.text, htext], hblank, hclose⟩
  | list items => exact ⟨'(', inside items, by rw [text], by decide, by decide⟩

/-- What follows an item of a list is a blank or the closing parenthesis. -/
theorem closes_more (items : List Form) : Closes (more items ++ after) := by
  cases items with
  | nil =>
    rw [more]
    rintro c ⟨⟩
    exact .inr rfl
  | cons next others =>
    rw [more]
    rintro c ⟨⟩
    exact .inl rfl

mutual

/-- A text is the text of one form only. -/
theorem eq_of_text : ∀ {f g : Form} {after after' : List Char}, f.Valid → g.Valid →
    Closes after → Closes after' → f.text ++ after = g.text ++ after' → f = g ∧ after = after'
  | .atom s, .atom t, after, after', hf, hg, hafter, hafter', h => by
    rw [Valid] at hf hg
    rw [text, text] at h
    have hsame := eq_of_atom hf hg hafter hafter' h
    rw [hsame] at h
    exact ⟨congrArg atom (String.toList_inj.mp hsame), List.append_cancel_left h⟩
  -- An atom does not begin with a parenthesis.
  | .atom s, .list items, _, _, hf, _, _, _, h => by
    rw [Valid] at hf
    obtain ⟨c, others, hs, -, hopen, -⟩ := isAtom_head hf
    rw [text, text, hs] at h
    exact absurd (List.cons.inj h).1 hopen
  | .list items, .atom s, _, _, _, hg, _, _, h => by
    rw [Valid] at hg
    obtain ⟨c, others, hs, -, hopen, -⟩ := isAtom_head hg
    rw [text, text, hs] at h
    exact absurd (List.cons.inj h).1.symm hopen
  | .list items, .list items', _, _, hf, hg, _, _, h => by
    rw [Valid] at hf hg
    rw [text, text] at h
    obtain ⟨hitems, hafter⟩ := eq_of_inside hf hg (List.cons.inj h).2
    exact ⟨congrArg list hitems, hafter⟩

/-- The text of the items of a list is the text of these items only. -/
theorem eq_of_inside : ∀ {fs gs : List Form} {after after' : List Char}, AllValid fs →
    AllValid gs → inside fs ++ after = inside gs ++ after' → fs = gs ∧ after = after'
  | [], [], _, _, _, _, h => ⟨rfl, (List.cons.inj h).2⟩
  -- An item does not begin with the parenthesis that closes the list.
  | [], g :: gs, _, _, _, hg, h => by
    obtain ⟨c, others, hg, -, hclose⟩ := text_head hg.1
    rw [inside, inside, hg] at h
    exact absurd (List.cons.inj h).1.symm hclose
  | f :: fs, [], _, _, hf, _, h => by
    obtain ⟨c, others, hf, -, hclose⟩ := text_head hf.1
    rw [inside, inside, hf] at h
    exact absurd (List.cons.inj h).1 hclose
  | f :: fs, g :: gs, _, _, hf, hg, h => by
    rw [inside, inside, List.append_assoc, List.append_assoc] at h
    obtain ⟨hfirst, hrest⟩ := eq_of_text hf.1 hg.1 (closes_more fs) (closes_more gs) h
    obtain ⟨hothers, hafter⟩ := eq_of_more hf.2 hg.2 hrest
    exact ⟨by rw [hfirst, hothers], hafter⟩

/-- The text of the items after the first is the text of these items only. -/
theorem eq_of_more : ∀ {fs gs : List Form} {after after' : List Char}, AllValid fs →
    AllValid gs → more fs ++ after = more gs ++ after' → fs = gs ∧ after = after'
  | [], [], _, _, _, _, h => ⟨rfl, (List.cons.inj h).2⟩
  | [], g :: gs, _, _, _, hg, h => by
    rw [more, more] at h
    exact absurd (List.cons.inj h).1 (by decide)
  | f :: fs, [], _, _, hf, _, h => by
    rw [more, more] at h
    exact absurd (List.cons.inj h).1 (by decide)
  | f :: fs, g :: gs, _, _, hf, hg, h => by
    rw [more, more, List.cons_append, List.cons_append, List.append_assoc, List.append_assoc] at h
    obtain ⟨hfirst, hrest⟩ :=
      eq_of_text hf.1 hg.1 (closes_more fs) (closes_more gs) (List.cons.inj h).2
    obtain ⟨hothers, hafter⟩ := eq_of_more hf.2 hg.2 hrest
    exact ⟨by rw [hfirst, hothers], hafter⟩

end

end Form

end Script
