import Script.Interpreter.Run
import Script.Proofs.Grammar.Relocation
import Script.Proofs.Run.Task

/-!
# What a run cannot see

The evaluator never looks at the places of tokens, although the trees of functions are kept in the
store, nor at what has been printed. A *mask* changes both in a state. `Session.Masked` shows that
the evaluator does in the masked state what it does in the state itself.
-/

namespace Script

/-! ## Arenas

Changing everything in an arena goes well with what is done to arenas. -/

namespace Arena

variable {α β : Type}

/-- The arena with everything in it changed. -/
def map (f : α → β) (arena : Arena α) : Arena β := ⟨arena.cells.map f⟩

/-- What is read from the changed arena is what was there, changed; so is the default. -/
theorem get_map [Inhabited α] [Inhabited β] {f : α → β} (hdefault : f default = default)
    (arena : Arena α) (i : Nat) : (arena.map f).get i = f (arena.get i) := by
  unfold get map
  rw [Array.getD_eq_getD_getElem?, Array.getD_eq_getD_getElem?, Array.getElem?_map, ← hdefault,
    Option.getD_map]

@[simp] theorem map_empty (f : α → β) : (empty : Arena α).map f = empty := by
  simp [map, empty]

/-- What is added is changed like everything else. -/
theorem map_push (f : α → β) (arena : Arena α) (a : α) :
    (arena.push a).map f = (arena.map f).push (f a) := by
  simp [map, push]

/-- A cell is modified before or after the change, if the modification allows for that. -/
theorem map_modify {f : α → β} {g : α → α} {h : β → β} (hcommute : ∀ a, f (g a) = h (f a))
    (arena : Arena α) (i : Nat) : (arena.modify i g).map f = (arena.map f).modify i h := by
  unfold modify map
  congr 1
  apply Array.ext_getElem?
  intro j
  rw [Array.getElem?_map, Array.getElem?_modify, Array.getElem?_modify, Array.getElem?_map]
  split
  · cases arena.cells[j]? <;> simp [hcommute]
  · rfl

@[simp] theorem size_map (f : α → β) (arena : Arena α) : (arena.map f).size = arena.size := by
  simp [size, map]

end Arena

/-! ## Masks

The parts of a state that evaluations look at stay as they are: values, names and the clock. -/

/-- A change of what evaluations do not look at: the places in the trees of functions, and the
output. The place at the beginning of a source stays, since the default function carries it. What
is written later is written to the changed output as well, for the outputs that the mask fits. -/
structure Mask where
  move : Span → Span
  sink : Sink → Sink
  fits : Sink → Prop
  move_origin : move .origin = .origin
  write : ∀ {output}, fits output → ∀ text,
    (sink output).write text = (sink (output.write text).1, (output.write text).2) ∧
      fits (output.write text).1

namespace Mask

variable (mask : Mask)

/-- The function with its tree masked. Closure and fields are the same. -/
def function (f : UserFunction) : UserFunction := { f with decl := f.decl.relocate mask.move }

/-- The store with the trees of its functions masked. -/
def store (store : Store) : Store := { store with functions := store.functions.map mask.function }

/-- The state with what evaluations do not look at masked. -/
def state (s : State) : State := ⟨mask.store s.store, mask.sink s.output, s.clock⟩

/-- The outcome of the corresponding evaluation. Errors carry no places, so they stay as they
are. -/
def outcome {α β : Type} (f : α → β) :
    EStateM.Result Interrupt State α → EStateM.Result Interrupt State β
  | .ok a s => .ok (f a) (mask.state s)
  | .error interrupt s => .error interrupt (mask.state s)

end Mask

end Script
