import Script.Proofs.Run.SoundStatements
import Script.Proofs.Run.Super
import Script.Proofs.Scoping.Names

/-!
# Receivers in the runs of programs

The variables `this` and `super` are ordinary names in ordinary scopes. In the runs of programs
they nevertheless belong together: a scope holds both or neither, and holds them for good. So the
keyword `super` never meets anything but a receiver and a class that the receiver inherits from.
-/

namespace Script

open Contract

/-- What happens when a program is run in the global scope. -/
abbrev programTrace (fuel : Nat) (program : List Stmt) (s : State) : List Moment :=
  sessionTrace fuel Store.globalScope program s

/-- The states that a program passes through, in the order of time. -/
def programStates (fuel : Nat) (program : List Stmt) (s : State) : List State :=
  s :: statesOf (programTrace fuel program s)

/-- The state in which a run ends is one that it passes through. -/
theorem final_mem_programStates (fuel : Nat) (program : List Stmt) (s : State) :
    finalState (Eval.runEach fuel Store.globalScope program s) ∈ programStates fuel program s := by
  rw [← sessionTrace_state]
  unfold lastState programStates programTrace
  cases hlast : (sessionTrace fuel Store.globalScope program s).getLast? with
  | none => exact .head _
  | some moment =>
    exact .tail _ (List.mem_flatMap.mpr ⟨moment, List.mem_of_getLast? hlast, .tail _ (.head _)⟩)

section

variable {U : List Occurrence} {Occurs : Moment → Prop} {fuel : Nat} {program : List Stmt}
  {source : String} {s : State}

/-- The initial store has one scope, and this holds neither of the two names. -/
theorem soundStore_initial : SoundStore U Occurs .initial where
  consistent := Store.consistent_initial
  receivers := fun id hid => by
    obtain ⟨i⟩ := id
    obtain rfl : i = 0 := Nat.lt_one_iff.mp hid
    left
    intro name hname
    rcases List.mem_cons.mp hname with rfl | hname
    · rfl
    · obtain rfl := List.mem_singleton.mp hname
      rfl

/-- The run of a program keeps the store sound throughout. -/
theorem program_sound (h : readProgram source = .ok program) (fuel : Nat) (output : Sink)
    (clock : Clock) :
    ∃ s', (soundness (programOccurrences program)
        (· ∈ programTrace fuel program (.initial output clock))).Ends
      (programTrace fuel program (.initial output clock)) (.initial output clock) s' := by
  have hkept : KeepsReserved (programOccurrences program) := fun _ => not_reserved_of_read h
  have hpre : ∀ stmt ∈ program, ∀ s : State,
      SoundStore (programOccurrences program)
        (· ∈ programTrace fuel program (.initial output clock)) s.store → True →
      (Task.execute Store.globalScope stmt).Valid s.store ∧
        (Task.execute Store.globalScope stmt).Within (programOccurrences program) :=
    fun stmt hstmt s hs _ =>
      ⟨hs.consistent.globalScope, [], occurrences_subset_program hstmt⟩
  obtain ⟨s', hends, -⟩ := @session_covers _ _ (soundness_kept hkept) (fun _ => True) fuel
    Store.globalScope program (.initial output clock) hpre (fun _ _ _ _ _ => trivial)
    soundStore_initial trivial fun _ hmem => hmem
  exact ⟨s', hends⟩

/-- So the store is sound in each of the states of the run, the first one included. -/
theorem soundStore_of_state {output : Sink} {clock : Clock} {s' state : State}
    (h : (soundness U Occurs).Ends (programTrace fuel program (.initial output clock))
      (.initial output clock) s')
    (hstate : state ∈ programStates fuel program (.initial output clock)) :
    SoundStore U Occurs state.store := by
  rcases List.mem_cons.mp hstate with rfl | hstate
  · exact soundStore_initial
  · exact h.covers.invariant hstate

/-- In the scope the two variables stand for this instance and for this class, which the instance
inherits from. -/
structure ReceiverAt (store : Store) (scope : ScopeId) (receiver : InstanceId)
    (parent : ClassId) : Prop where
  this : store.lookup scope thisName = .ok (.instanceRef receiver)
  super : store.lookup scope superName = .ok (.classRef parent)
  inherits : store.isSubclass (store.instanceOf receiver).ofClass parent = true

/-- In the scope neither of the two variables stands for anything, or both do as they should. -/
def ResolvesReceiver (store : Store) (scope : ScopeId) : Prop :=
  (store.lookup scope thisName = .error (.undefinedVariable thisName) ∧
    store.lookup scope superName = .error (.undefinedVariable superName)) ∨
  ∃ receiver parent, ReceiverAt store scope receiver parent

/-- In a sound store no scope resolves the names otherwise. -/
theorem SoundStore.resolvesReceiver {store : Store} (h : SoundStore U Occurs store)
    {scope : ScopeId} (hscope : scope.index < store.scopes.size) :
    ResolvesReceiver store scope := by
  rcases h.resolve hscope with hnone | ⟨call, _, _, _, _, hcall, hthis, hsuper⟩
  · exact .inl hnone
  · have hinherited := hcall.parent_inherited h.consistent
    exact .inr ⟨call.receiver, call.parent, hthis, hsuper, decide_eq_true hinherited⟩

/-- What holds of receivers throughout the run of a program. -/
structure ReceiversKept (fuel : Nat) (program : List Stmt) (s : State) : Prop where
  /-- Each scope holds both `this` and `super`, or neither. -/
  bound : ∀ state ∈ programStates fuel program s, ∀ id : ScopeId,
    id.index < state.store.scopes.size →
      ReceiverSound (· ∈ programTrace fuel program s) state.store id
  /-- What a scope holds under the two names never changes. -/
  unchanged : (programStates fuel program s).Pairwise fun a b =>
    ∀ id : ScopeId, id.index < a.store.scopes.size → ∀ name ∈ reservedNames,
      (b.store.bindings id).get? name = (a.store.bindings id).get? name
  /-- Nowhere does one of the names stand for a value of another kind. -/
  resolved : ∀ state ∈ programStates fuel program s, ∀ id : ScopeId,
    id.index < state.store.scopes.size → ResolvesReceiver state.store id
  /-- Where `super.m` is evaluated there is no receiver, or `m` is looked up in a class that the
  receiver inherits from. -/
  superGet : ∀ fuel' scope keyword method state,
    .visit (fuel' + 1) (.evaluate scope (.superGet keyword method)) state ∈
      programTrace fuel program s →
    Eval.evaluate (fuel' + 1) scope (.superGet keyword method) state =
        .error (.error (.unboundThis superName)) state ∨
      ∃ receiver start, ReceiverAt state.store scope receiver start ∧
        Eval.evaluate (fuel' + 1) scope (.superGet keyword method) state =
          match state.store.method? start method.lexeme with
          | none => .ok .nil state
          | some resolution =>
            .ok (state.store.bindMethod resolution receiver).1
              { state with store := (state.store.bindMethod resolution receiver).2 }
  /-- Where `super(...)` is evaluated there is no receiver, or the constructor of a class that the
  receiver inherits from is run once the arguments are evaluated. -/
  superCall : ∀ fuel' scope keyword arguments state,
    .visit (fuel' + 1) (.evaluate scope (.superCall keyword arguments)) state ∈
      programTrace fuel program s →
    Eval.evaluate (fuel' + 1) scope (.superCall keyword arguments) state =
        .error (.error (.unboundThis superName)) state ∨
      ∃ receiver start, ReceiverAt state.store scope receiver start ∧
        Eval.evaluate (fuel' + 1) scope (.superCall keyword arguments) state =
          (do
            let values ← Eval.evaluateAll fuel' scope arguments
            Eval.construct fuel' receiver (some start) values
            pure .nil : Eval Value) state
  /-- Every search for a constructor begins in a class that the new or running instance inherits
  from. -/
  construct : ∀ fuel' id start arguments state,
    .visit fuel' (.construct id start arguments) state ∈ programTrace fuel program s →
    ∃ first, start = some first ∧
      state.store.isSubclass (state.store.instanceOf id).ofClass first = true

/-- In every run of a program that was read, the receivers are as they should be: both names are
bound together, to an instance and to the superclass of a class that declares the running method and
that the instance inherits from, and they stay so. All of this is read off the soundness of the
store, which holds in each state of the run. -/
theorem receiversKept_of_read (h : readProgram source = .ok program) (fuel : Nat)
    (output : Sink) (clock : Clock) : ReceiversKept fuel program (.initial output clock) := by
  obtain ⟨s', hends⟩ := program_sound h fuel output clock
  have hgrows := hends.covers.states
  refine ⟨?bound, ?unchanged, ?resolved, ?superGet, ?superCall, ?construct⟩
  case bound => exact fun state hstate => (soundStore_of_state hends hstate).receivers
  case unchanged =>
    refine hgrows.imp fun {a b} hab id hid name hname => ?_
    have hab : a.store.Grows b.store := hab
    exact hab.reserved hid hname
  case resolved =>
    exact fun state hstate id hid => (soundStore_of_state hends hstate).resolvesReceiver hid
  -- What is resolved decides how the keyword is evaluated.
  case superGet =>
    intro fuel' scope keyword method state hvisit
    obtain ⟨hinvariant, ⟨hscope, -⟩, -⟩ := hends.covers.facts _ hvisit
    have hinvariant : SoundStore _ _ state.store := hinvariant
    rcases hinvariant.resolvesReceiver hscope with ⟨hthis, -⟩ | ⟨receiver, parent, hat⟩
    · exact .inl (superGet_unbound hthis)
    · exact .inr ⟨receiver, parent, hat, superGet_bound hat.this hat.super⟩
  case superCall =>
    intro fuel' scope keyword arguments state hvisit
    obtain ⟨hinvariant, ⟨hscope, -⟩, -⟩ := hends.covers.facts _ hvisit
    have hinvariant : SoundStore _ _ state.store := hinvariant
    rcases hinvariant.resolvesReceiver hscope with ⟨hthis, -⟩ | ⟨receiver, parent, hat⟩
    · exact .inl (superCall_unbound hthis)
    · exact .inr ⟨receiver, parent, hat, superCall_bound hat.this hat.super⟩
  case construct =>
    intro fuel' id start arguments state hvisit
    obtain ⟨-, ⟨⟨-, ⟨first, hfirst, hmem⟩, -⟩, -⟩, -⟩ := hends.covers.facts _ hvisit
    exact ⟨first, hfirst, decide_eq_true hmem⟩

theorem receiversKept_overriding : ∃ program, readProgram overridingSource = .ok program ∧
    ReceiversKept 60 program (.initial .unlimited ⟨fun _ => ⟨0⟩⟩) := by
  obtain ⟨program, hread⟩ := read_overriding
  exact ⟨program, hread, receiversKept_of_read hread 60 _ _⟩

end

end Script
