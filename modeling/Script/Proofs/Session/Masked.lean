import Script.Proofs.Grammar.Relocation
import Script.Proofs.Renaming.Evaluator

/-!
# The evaluator does not see what is masked

Evaluating a tree with its tokens at other places, in a store whose trees have their tokens there
too and with other things printed before, goes exactly as it goes otherwise. A mask is a disguise
that leaves all names as they are (`Mask.disguise`).
-/

namespace Script

namespace Mask

variable (mask : Mask)

/-- The mask as a disguise that changes no name. -/
def disguise : Disguise where
  toMask := mask
  name := id
  injective := Function.injective_id
  own := fun _ _ => rfl

/-- In the tree of a function only places change. -/
theorem disguise_function (f : UserFunction) : mask.disguise.function f = mask.function f := by
  show UserFunction.mk (f.decl.recast ⟨id, mask.move⟩) _ (f.fields.rename id) = _
  rw [FunctionDecl.recast_move, Table.rename_id]
  rfl

/-- Tables and names stay, so that only the trees of the functions change. -/
theorem disguise_store (store : Store) : mask.disguise.store store = mask.store store := by
  have hsame : ∀ {α : Type} {f : α → α} (arena : Arena α), (∀ a, f a = a) → arena.map f = arena :=
    fun arena hf => congrArg Arena.mk (Array.map_id'' hf arena.cells)
  have hname : mask.disguise.name = id := rfl
  have hscope : ∀ s, mask.disguise.scope s = s := fun s => by
    rw [Disguise.scope, hname, Table.rename_id]
  have hbound : ∀ m, mask.disguise.boundMethod m = m := fun m => by
    rw [Disguise.boundMethod, hname, Table.rename_id]
  have hclass : ∀ c, mask.disguise.classOf c = c := fun c => by
    rw [Disguise.classOf, hname, Table.rename_id, Table.rename_id, id]
  have hinstance : ∀ i, mask.disguise.instanceOf i = i := fun i => by
    rw [Disguise.instanceOf, hname, Table.rename_id]
  rw [Disguise.store, hsame _ hscope, hsame _ hbound, hsame _ hclass, hsame _ hinstance,
    funext mask.disguise_function, hname, Table.rename_id, Table.rename_id]
  rfl

/-- A state in disguise is the masked one. -/
theorem disguise_state (s : State) : mask.disguise.state s = mask.state s :=
  congrArg (fun store => State.mk store _ _) (mask.disguise_store s.store)

/-- So is an outcome, since errors name nothing that is masked. -/
theorem disguise_outcome {α β : Type} (f : α → β) (x : Outcome α) :
    mask.disguise.outcome f x = mask.outcome f x := by
  cases x with
  | ok a s => exact congrArg (EStateM.Result.ok (f a)) (mask.disguise_state s)
  | error interrupt s =>
    show EStateM.Result.error (interrupt.rename id) _ = _
    rw [interrupt.rename_id, disguise_state]
    rfl

/-- Nothing shows where all names stay as they are. -/
theorem disguise_hides {s : State} (h : mask.fits s.output) : mask.disguise.Hides s where
  store := ⟨fun _ _ _ => rfl, fun _ => rfl⟩
  output := h

end Mask

/-- Statements that are in no function do not see what is masked. -/
theorem runStatement_masked {mask : Mask} {fuel : Nat} (scope : ScopeId) (stmt : Stmt) (s : State)
    (h : mask.fits s.output) :
    Eval.runStatement fuel scope (stmt.relocate mask.move) (mask.state s) =
        mask.outcome id (Eval.runStatement fuel scope stmt s) ∧
      mask.fits (finalState (Eval.runStatement fuel scope stmt s)).output := by
  obtain ⟨hrun, hhides⟩ := @runStatement_disguised mask.disguise fuel scope stmt (fun _ _ => rfl) s
    (mask.disguise_hides h)
  have hstmt : stmt.recast mask.disguise.recast = stmt.relocate mask.move := stmt.recast_move _
  rw [hstmt, mask.disguise_state, mask.disguise_outcome] at hrun
  exact ⟨hrun, hhides.output⟩

end Script
