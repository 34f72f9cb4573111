import Script.Table

/-!
# What tables hold

The laws of the operations on tables that the store is built with, as far as they tell which names
a table holds and which values (`Table.Holds`).
-/

namespace Script

namespace Table

variable {α : Type} {P Q : α → Prop} {table table' : Table α} {name other : String}

/-- What a table holds after a value was set. -/
theorem get?_set (table : Table α) (name other : String) (value : α) :
    (table.set name value).get? other = if other = name then some value else table.get? other := by
  by_cases h : other = name
  · subst h
    rw [if_pos rfl, get?_set_self]
  · rw [if_neg h, get?_set_of_ne table value h]

/-- The names of a table after a value was set. -/
theorem contains_set (table : Table α) (name other : String) (value : α) :
    (table.set name value).contains other = (decide (other = name) || table.contains other) := by
  unfold contains
  rw [get?_set]
  by_cases h : other = name <;> simp [h]

/-- A name that a table does not have. -/
theorem contains_eq_false : table.contains name = false ↔ table.get? name = none := by
  simp [contains]

/-- All the values that the table holds have the property. -/
def Holds (P : α → Prop) (table : Table α) : Prop :=
  ∀ name value, table.get? name = some value → P value

theorem holds_empty (P : α → Prop) : (empty : Table α).Holds P := by
  intro name value h
  simp at h

/-- A value with the property may be set. -/
theorem Holds.set (h : table.Holds P) {value : α} (hvalue : P value) :
    (table.set name value).Holds P := by
  intro other found hfound
  rw [get?_set] at hfound
  split at hfound
  · obtain rfl := Option.some.inj hfound
    exact hvalue
  · exact h other found hfound

theorem Holds.mono (h : table.Holds P) (himp : ∀ a, P a → Q a) : table.Holds Q :=
  fun name value hvalue => himp value (h name value hvalue)

/-- The values of a row of entries that are set one after the other. -/
theorem holds_foldl_set {entries : List (String × α)} (h : table.Holds P)
    (hentries : ∀ entry ∈ entries, P entry.2) :
    (entries.foldl (fun table entry => table.set entry.1 entry.2) table).Holds P := by
  induction entries generalizing table with
  | nil => exact h
  | cons entry rest ih =>
    exact ih (h.set (hentries entry (.head _))) fun e he => hentries e (.tail _ he)

/-- The values of a table that is made of entries. -/
theorem holds_ofList {entries : List (String × α)} (hentries : ∀ entry ∈ entries, P entry.2) :
    (ofList entries).Holds P :=
  holds_foldl_set (holds_empty P) hentries

/-- The last entry for a name is what a table of the entries holds for it. -/
theorem get?_ofList (entries : List (String × α)) (name : String) :
    (ofList entries).get? name =
      (entries.reverse.find? fun entry => entry.1 = name).map Prod.snd := by
  -- On top of another table the entries hide what it holds.
  suffices h : ∀ table : Table α,
      (entries.foldl (fun table entry => table.set entry.1 entry.2) table).get? name =
        ((entries.reverse.find? fun entry => entry.1 = name).map Prod.snd).or
          (table.get? name) by
    rw [ofList, h, get?_empty, Option.or_none]
  induction entries with
  | nil => exact fun table => rfl
  | cons entry rest ih =>
    intro table
    rw [List.foldl_cons, ih, get?_set, List.reverse_cons, List.find?_append, Option.map_or,
      Option.or_assoc]
    by_cases h : entry.1 = name
    · simp [h]
    · simp [h, Ne.symm h]

/-! ## Adding distinct names

Where the parameters of a call are bound, a name that is there already is refused. If all entries
have been added, then their names are different, and each of them stands for its own value. -/

/-- If a row of entries has been added, then the first one was new, and the others have been added
after it. -/
theorem addDistinct_cons {value : α} {rest : List (String × α)}
    (h : table.addDistinct ((name, value) :: rest) = .ok table') :
    table.contains name = false ∧ (table.set name value).addDistinct rest = .ok table' := by
  rw [addDistinct] at h
  cases hname : table.contains name with
  | true =>
    rw [hname, if_pos rfl] at h
    cases h
  | false =>
    rw [hname] at h
    exact ⟨rfl, h⟩

/-- The values of a table to which entries were added. -/
theorem Holds.addDistinct {entries : List (String × α)} (h : table.Holds P)
    (hentries : ∀ entry ∈ entries, P entry.2) (hresult : table.addDistinct entries = .ok table') :
    table'.Holds P := by
  induction entries generalizing table with
  | nil =>
    cases hresult
    exact h
  | cons entry rest ih =>
    obtain ⟨-, hrest⟩ := addDistinct_cons hresult
    exact ih (h.set (hentries entry (.head _))) (fun e he => hentries e (.tail _ he)) hrest

/-- The table of distinct entries on top of another holds what this one held, and the entries. -/
theorem get?_addDistinct {entries : List (String × α)}
    (h : table.addDistinct entries = .ok table') (name : String) :
    table'.get? name = (table.get? name).or (findIn name entries) := by
  induction entries generalizing table with
  | nil =>
    cases h
    simp [findIn]
  | cons entry rest ih =>
    obtain ⟨key, value⟩ := entry
    obtain ⟨hkey, hrest⟩ := addDistinct_cons h
    rw [ih hrest, get?_set, findIn]
    by_cases hname : key = name
    · subst hname
      rw [if_pos rfl, if_pos rfl, contains_eq_false.mp hkey]
      rfl
    · rw [if_neg hname, if_neg (Ne.symm hname)]

/-- Something is found for just the names of the entries. -/
theorem findIn_isSome {entries : List (String × α)} :
    (findIn name entries).isSome = true ↔ name ∈ entries.map Prod.fst := by
  induction entries with
  | nil => simp [findIn]
  | cons entry rest ih =>
    obtain ⟨key, value⟩ := entry
    by_cases h : key = name
    · simp [findIn, h]
    · simp [findIn, h, ih, Ne.symm h]

/-- A table that is made of distinct entries holds the names of the entries. -/
theorem contains_of_addDistinct {entries : List (String × α)}
    (h : (empty : Table α).addDistinct entries = .ok table) (name : String) :
    table.contains name = true ↔ name ∈ entries.map Prod.fst := by
  rw [contains, get?_addDistinct h, get?_empty, Option.none_or, findIn_isSome]

/-- With one value for each of several names, a name has the value at its place. -/
theorem findIn_zip {names : List String} (hnames : names.Nodup) {values : List α} {i : Nat}
    {value : α} (hname : names[i]? = some name) (hvalue : values[i]? = some value) :
    findIn name (names.zip values) = some value := by
  induction names generalizing values i with
  | nil => cases hname
  | cons first rest ih =>
    cases values with
    | nil => cases hvalue
    | cons firstValue others =>
      rw [List.zip_cons_cons, findIn]
      cases i with
      | zero =>
        obtain rfl := Option.some.inj hname
        obtain rfl := Option.some.inj hvalue
        rw [if_pos rfl]
      | succ i =>
        -- The first name is not the one looked for, as that one stands further on.
        have hne : first ≠ name := by
          rintro rfl
          exact (List.nodup_cons.mp hnames).1 (List.mem_of_getElem? hname)
        rw [if_neg hne]
        exact ih (List.nodup_cons.mp hnames).2 hname hvalue

/-- Entries with distinct names that a table does not hold can be added to it. -/
theorem exists_addDistinct {entries : List (String × α)} (hnodup : (entries.map Prod.fst).Nodup)
    (hfree : ∀ name ∈ entries.map Prod.fst, table.contains name = false) :
    ∃ table', table.addDistinct entries = .ok table' := by
  induction entries generalizing table with
  | nil => exact ⟨table, rfl⟩
  | cons entry rest ih =>
    obtain ⟨name, value⟩ := entry
    rw [List.map_cons, List.nodup_cons] at hnodup
    rw [addDistinct, hfree name List.mem_cons_self]
    refine ih hnodup.2 fun other hother => ?_
    rw [contains_set, hfree other (List.mem_cons_of_mem _ hother), Bool.or_false]
    exact decide_eq_false fun heq => hnodup.1 (heq ▸ hother)

end Table

end Script
