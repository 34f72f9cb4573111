/-!
# Arenas

An arena numbers the things it holds in the order in which they came, from zero. Things are added
and changed, never removed, so that a number keeps meaning the same thing.
-/

namespace Script

/-- A growing row of numbered things. References are such numbers, and one that is out of range
refers to the default. -/
structure Arena (α : Type) where
  cells : Array α

namespace Arena

variable {α : Type}

/-- The arena without things, in which the next number is zero. -/
def empty : Arena α := ⟨#[]⟩

instance : Inhabited (Arena α) := ⟨empty⟩

/-- How many things there are; the number that the next one gets. -/
def size (arena : Arena α) : Nat := arena.cells.size

/-- The thing with this number, and the default where there is none. -/
def get [Inhabited α] (arena : Arena α) (i : Nat) : α := arena.cells.getD i default

/-- Adds a thing, which gets the number `arena.size`. -/
def push (arena : Arena α) (a : α) : Arena α := ⟨arena.cells.push a⟩

/-- Changes the thing with this number, if there is one. -/
def modify (arena : Arena α) (i : Nat) (f : α → α) : Arena α := ⟨arena.cells.modify i f⟩

@[simp] theorem size_empty : (empty : Arena α).size = 0 := rfl

@[simp] theorem size_push (arena : Arena α) (a : α) : (arena.push a).size = arena.size + 1 := by
  simp [size, push]

@[simp] theorem size_modify (arena : Arena α) (i : Nat) (f : α → α) :
    (arena.modify i f).size = arena.size := by
  simp [size, modify]

variable [Inhabited α]

@[simp] theorem get_push_size (arena : Arena α) (a : α) : (arena.push a).get arena.size = a := by
  simp [get, push, size]

theorem get_push_of_lt (arena : Arena α) (a : α) {i : Nat} (h : i < arena.size) :
    (arena.push a).get i = arena.get i := by
  have h' : i < arena.cells.size := h
  simp [get, push, Array.getElem?_push, Nat.ne_of_lt h']

theorem get_modify_self (arena : Arena α) (f : α → α) {i : Nat} (h : i < arena.size) :
    (arena.modify i f).get i = f (arena.get i) := by
  have h' : i < arena.cells.size := h
  simp [get, modify, h', Array.getElem_modify_self]

theorem get_modify_of_ne (arena : Arena α) (f : α → α) {i j : Nat} (h : i ≠ j) :
    (arena.modify i f).get j = arena.get j := by
  simp [get, modify, Array.getElem?_modify, h]

end Arena

end Script
