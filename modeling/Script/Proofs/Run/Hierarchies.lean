import Script.Proofs.Run.Receivers
import Script.Proofs.Run.Stable
import Script.Proofs.Store.Hierarchy

/-!
# The structure of the store in a session

A session is a row of statements, each from a source that was accepted: a script, or what is typed
line by line. It is run in the global scope, from the initial state on, and goes on after a
failure.

Whatever is run in a session, the structure of what is in the store stays as it is, and names are
only added. What is new belongs to something older. So in each state of the session scopes and
classes form two trees, and searches upward come to an end (`hierarchiesKept_of_accepted`).
-/

namespace Script

open Contract

/-! ## Changes of the structure

Each of the few ways to change a state is looked at once; a run is a row of such changes. -/

/-- No change of a state changes the structure of what is there. -/
theorem stable_persists : Stable fun s s' => s.store.Persists s'.store where
  refl := fun s => .refl s.store
  newScope := fun s => Store.persists_newScope s.store
  bind := fun s => Store.persists_bind s.store
  newFunctions := fun s closure decls => Store.persists_newFunctions closure decls s.store
  newBoundMethod := fun s => Store.persists_newBoundMethod s.store
  newClass := fun s => Store.persists_newClass s.store
  newInstance := fun s => Store.persists_newInstance s.store
  setProperty := fun _ _ _ _ _ => Store.persists_setProperty
  write := fun s text => by
    rw [write_store text s]
    exact .refl s.store
  readClock := fun s => .refl s.store

/-- Scopes and classes are made one at a time. -/
theorem stable_oneMore : Stable fun s s' => s.store.OneMore s'.store where
  refl := fun _ => .of_same rfl rfl
  newScope := fun s => Store.oneMore_newScope s.store
  bind := fun s => Store.oneMore_bind s.store
  newFunctions := fun s closure decls => Store.oneMore_newFunctions closure decls s.store
  newBoundMethod := fun _ _ _ _ => .of_same rfl rfl
  newClass := fun s => Store.oneMore_newClass s.store
  newInstance := fun _ _ => .of_same rfl rfl
  setProperty := fun _ _ _ _ _ => Store.oneMore_setProperty
  write := fun s text => by
    rw [write_store text s]
    exact .of_same rfl rfl
  readClock := fun _ => .of_same rfl rfl

/-- Whatever is run in whatever state, and however it ends, nothing that was there goes away or
changes its structure. -/
theorem run_persists (fuel : Nat) (task : Task) (s : State) :
    s.store.Persists (finalState (task.run fuel s)).store :=
  stable_persists.run .trans fuel task s

/-! ## Sessions

What was shown of programs holds of sessions, with the occurrences of all their statements. -/

/-- The statement is one of a source that is accepted. -/
def Accepted (stmt : Stmt) : Prop :=
  ∃ source program, readProgram source = .ok program ∧ stmt ∈ program

section

variable {session : List Stmt}

/-- The names in a session are those in its sources. -/
theorem keepsReserved_of_accepted (h : ∀ stmt ∈ session, Accepted stmt) :
    KeepsReserved (session.flatMap (Stmt.occurrences [])) := by
  intro o ho
  obtain ⟨stmt, hstmt, ho⟩ := List.mem_flatMap.mp ho
  obtain ⟨source, program, hread, hmem⟩ := h stmt hstmt
  exact not_reserved_of_read hread (occurrences_subset_program hmem ho)

/-- The run of a session keeps the store sound throughout. -/
theorem session_sound (h : ∀ stmt ∈ session, Accepted stmt) (fuel : Nat) (output : Sink)
    (clock : Clock) :
    ∃ s', (soundness (session.flatMap (Stmt.occurrences [])) fun _ => True).Ends
      (programTrace fuel session (.initial output clock)) (.initial output clock) s' := by
  have hpre : ∀ stmt ∈ session, ∀ s : State,
      SoundStore (session.flatMap (Stmt.occurrences [])) (fun _ => True) s.store → True →
      (Task.execute Store.globalScope stmt).Valid s.store ∧
        (Task.execute Store.globalScope stmt).Within (session.flatMap (Stmt.occurrences [])) := by
    intro stmt hstmt s hs _
    refine ⟨hs.consistent.globalScope, [], fun o ho => ?_⟩
    exact List.mem_flatMap.mpr ⟨stmt, hstmt, ho⟩
  obtain ⟨s', hends, -⟩ := @session_covers _ _ (soundness_kept (keepsReserved_of_accepted h))
    (fun _ => True) fuel Store.globalScope session (.initial output clock) hpre
    (fun _ _ _ _ _ => trivial) soundStore_initial trivial fun _ _ => trivial
  exact ⟨s', hends⟩

/-- What holds of the structure of the store throughout a session. -/
structure HierarchiesKept (fuel : Nat) (session : List Stmt) (s : State) : Prop where
  /-- Whatever is evaluated, everything that was there is still there, as it was. -/
  persists : ∀ fuel' task state, .visit fuel' task state ∈ programTrace fuel session s →
    state.store.Persists (finalState (task.run fuel' state)).store
  /-- What is new then belongs to something older, which is what has the smaller number. -/
  founds : ∀ fuel' task state, .visit fuel' task state ∈ programTrace fuel session s →
    state.store.Founds (finalState (task.run fuel' state)).store
  /-- Things are made one at a time, and numbered in this order. -/
  oneMore : ∀ event before after, .step event before after ∈ programTrace fuel session s →
    before.store.OneMore after.store
  /-- Everything that is there in a state is there, as it is, in all states after it. -/
  lasting : (programStates fuel session s).Pairwise fun a b => a.store.Persists b.store
  /-- In each state scopes and classes are trees, and searches in them come to an end. -/
  grounded : ∀ state ∈ programStates fuel session s, state.store.Grounded

/-- In every session, and in each of its states, scopes and classes form trees that only grow. What
is there stays as it is, because each single change leaves it so; and it belongs to something older,
because the store is sound. -/
theorem hierarchiesKept_of_accepted (h : ∀ stmt ∈ session, Accepted stmt) (fuel : Nat)
    (output : Sink) (clock : Clock) :
    HierarchiesKept fuel session (.initial output clock) := by
  obtain ⟨s', hends⟩ := session_sound h fuel output clock
  have hlasting : (programStates fuel session (.initial output clock)).Pairwise
      fun a b => a.store.Persists b.store :=
    stable_persists.session_states .trans fuel Store.globalScope session _
  refine ⟨?persists, ?founds, ?oneMore, hlasting, ?grounded⟩
  case persists => exact fun fuel' task state _ => run_persists fuel' task state
  case founds =>
    intro fuel' task state hvisit
    obtain ⟨hbefore, -, hafter, -⟩ := hends.covers.facts _ hvisit
    have hbefore : SoundStore _ _ state.store := hbefore
    have hafter : SoundStore _ _ (finalState (task.run fuel' state)).store := hafter
    exact hbefore.consistent.founds hafter.consistent
  case oneMore => exact fun event before after hstep => stable_oneMore.step hstep
  case grounded =>
    intro state hstate
    have hsound : SoundStore _ _ state.store := soundStore_of_state hends hstate
    -- The initial state is the first of all.
    have hroot : Store.initial.Persists state.store := by
      rcases List.mem_cons.mp hstate with rfl | hstate
      · exact .refl Store.initial
      · exact List.rel_of_pairwise_cons hlasting hstate
    exact hsound.consistent.grounded hroot

end

/-- Classes that are declared with, next to and in place of others of the same name, the name of the
root class among them, and a function that the scope around it holds. -/
def rootShadowingSource : String :=
  "class A {} { class A < A {} var f = A; fun g() { return f; } f = g; }
   Object = 1; class B < B {} class C { fun m() { return this; } }
   { class Object < C {} var o = Object(); o.p = o.m; o.p(); }"

theorem hierarchiesKept_rootShadowing : ∃ program, readProgram rootShadowingSource = .ok program ∧
    HierarchiesKept 60 program (.initial .unlimited ⟨fun _ => ⟨0⟩⟩) := by
  obtain ⟨program, hread, -⟩ :=
    @exists_read rootShadowingSource (fun _ => True) _ (by decide +kernel)
  have haccepted : ∀ stmt ∈ program, Accepted stmt := fun stmt hstmt =>
    ⟨rootShadowingSource, program, hread, hstmt⟩
  exact ⟨program, hread, hierarchiesKept_of_accepted haccepted 60 _ _⟩

end Script
