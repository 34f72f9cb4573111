/-!
# Tables

A table maps names to values. It holds each name once, in the order in which the names first came.
-/

namespace Script

/-- A map from names, kept as a row of entries in the order in which the names came. Only `set`
changes it, so that no name comes twice. -/
structure Table (α : Type) where
  entries : List (String × α)
deriving DecidableEq, Repr

namespace Table

variable {α : Type}

/-- The table without names, as every scope and every object begins. -/
def empty : Table α := ⟨[]⟩

instance : Inhabited (Table α) := ⟨empty⟩

/-- The value of the first entry for `name`. -/
def findIn (name : String) : List (String × α) → Option α
  | [] => none
  | (key, value) :: rest => if key = name then some value else findIn name rest

/-- The entries with `value` for `name`, in its old place if there was one and else at the end. -/
def setIn (name : String) (value : α) : List (String × α) → List (String × α)
  | [] => [(name, value)]
  | (key, old) :: rest =>
    if key = name then (key, value) :: rest else (key, old) :: setIn name value rest

/-- The value that the table holds for `name`. -/
def get? (table : Table α) (name : String) : Option α := findIn name table.entries

/-- Whether the table holds a value for `name`. -/
def contains (table : Table α) (name : String) : Bool := (table.get? name).isSome

/-- The table that holds `value` for `name` and is otherwise the same. -/
def set (table : Table α) (name : String) (value : α) : Table α :=
  ⟨setIn name value table.entries⟩

/-- The table of a list of entries, in which a later entry replaces an earlier one. -/
def ofList (entries : List (String × α)) : Table α :=
  entries.foldl (fun table entry => table.set entry.1 entry.2) empty

/-- The table of `entries` on top of `table`, or the first name that would be there twice.
Parameters of a call are put into their scope by this. -/
def addDistinct (table : Table α) : List (String × α) → Except String (Table α)
  | [] => .ok table
  | (name, value) :: rest =>
    if table.contains name then .error name else (table.set name value).addDistinct rest

/-- The names that the table holds, in the order in which they first came. -/
def names (table : Table α) : List String := table.entries.map (·.1)

@[simp] theorem get?_empty (name : String) : (empty : Table α).get? name = none := rfl

@[simp] theorem get?_set_self (table : Table α) (name : String) (value : α) :
    (table.set name value).get? name = some value := by
  obtain ⟨entries⟩ := table
  simp only [get?, set]
  induction entries with
  | nil => simp [setIn, findIn]
  | cons entry rest ih =>
    obtain ⟨key, old⟩ := entry
    by_cases h : key = name <;> simp [setIn, findIn, h, ih]

theorem get?_set_of_ne (table : Table α) {name other : String} (value : α) (h : other ≠ name) :
    (table.set name value).get? other = table.get? other := by
  obtain ⟨entries⟩ := table
  simp only [get?, set]
  induction entries with
  | nil => simp [setIn, findIn, h.symm]
  | cons entry rest ih =>
    obtain ⟨key, old⟩ := entry
    by_cases hk : key = name
    · subst hk
      simp [setIn, findIn, h.symm]
    · by_cases ho : key = other
      · subst ho
        simp [setIn, findIn, hk]
      · simp [setIn, findIn, hk, ho, ih]

end Table

end Script
