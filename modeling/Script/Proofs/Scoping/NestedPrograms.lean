import Mathlib.Data.List.Pairwise
import Script.Proofs.Run.Receivers
import Script.Proofs.Scoping.NestedStatements

/-!
# Scopes in the runs of programs

The run of a program opens every scope once (`program_opensOnce`): the scopes are numbered in the
order of time, so two of one number would have been opened at the same moment. With that the run
keeps the nesting of scopes, functions and text throughout (`program_nested`).
-/

namespace Script

open Contract

/-! ## Scopes are opened once

A trace records when a scope is opened and in which store, and the number of scopes in this store is
the number of the new one. In a sound run stores only grow, and opening a scope makes the count
greater. So two moments with the same count are the same moment. -/

/-- Two moments that open a scope of the same number open it for the same. -/
def Moment.AgreeOnScope (a b : Moment) : Prop :=
  ∀ opening opening' before before' after after', a = .step (.opens opening) before after →
    b = .step (.opens opening') before' after' →
    before.store.scopes.size = before'.store.scopes.size → opening = opening'

theorem Moment.agreeOnScope_refl (a : Moment) : a.AgreeOnScope a := by
  rintro opening opening' before before' after after' rfl hsame -
  injection hsame with hevent
  injection hevent

/-- The order of the two moments does not matter. -/
theorem Moment.AgreeOnScope.symm {a b : Moment} (h : a.AgreeOnScope b) : b.AgreeOnScope a :=
  fun opening opening' _ _ _ _ hb ha hsize =>
    (h opening' opening _ _ _ _ ha hb hsize.symm).symm

section

variable {U : List Occurrence} {Occurs : Moment → Prop} {fuel : Nat} {program : List Stmt}
  {source : String}

/-- Of two moments of a sound run that open scopes, the later one opens a later scope. -/
theorem agreeOnScope_of_sound {a b : Moment} (ha : (soundness U Occurs).Fact a)
    (hlater : (soundness U Occurs).later a.after b.before) : a.AgreeOnScope b := by
  rintro opening opening' before before' after after' rfl rfl hsize
  -- After the first moment there is one scope more, and the second is not earlier than that.
  obtain ⟨-, -, -, hopens, -⟩ := ha
  have hgrows : after.store.Grows before'.store := hlater
  have hle := hgrows.scopes.size
  omega

/-- In a sound run no scope is opened twice, and the global scope is never opened: there is a scope
before any moment. -/
theorem opensOnce_of_sound {moments : List Moment} {s s' : State}
    (h : (soundness U (· ∈ moments)).Ends moments s s') : OpensOnce (· ∈ moments) where
  unique := by
    rintro id opening opening' ⟨before, after, hmem, hsize⟩ ⟨before', after', hmem', hsize'⟩
    have horder : moments.Pairwise Moment.AgreeOnScope :=
      h.covers.order.imp_of_mem fun {a b} ha _ hlater =>
        agreeOnScope_of_sound (h.covers.facts a ha) hlater
    -- Any two moments of the trace stand in one order or in the other.
    have hagree := horder.forall_of_forall_of_flip (fun a _ => a.agreeOnScope_refl)
      (horder.imp Moment.AgreeOnScope.symm) hmem hmem'
    exact hagree _ _ _ _ _ _ rfl rfl (hsize.trans hsize'.symm)
  global := by
    rintro opening ⟨before, after, hmem, hsize⟩
    obtain ⟨hsound, -⟩ := h.covers.facts _ hmem
    have hsound : SoundStore U (· ∈ moments) before.store := hsound
    have hpos := hsound.consistent.globalScope
    rw [hsize] at hpos
    exact Nat.lt_irrefl 0 hpos

/-- So it is in the run of every accepted program. -/
theorem program_opensOnce (h : readProgram source = .ok program) (fuel : Nat) (output : Sink)
    (clock : Clock) : OpensOnce (· ∈ programTrace fuel program (.initial output clock)) := by
  obtain ⟨s', hends⟩ := program_sound h fuel output clock
  exact opensOnce_of_sound hends

/-! ## Places in a program

Tokens are told apart by their spans, so a token of an accepted source stands at one place of the
program. -/

/-- The token has this role at this place of the program, and stands nowhere else. -/
structure StandsAt (program : List Stmt) (role : Role) (token : Token) (context : Context) :
    Prop where
  occurs : ⟨role, token, context⟩ ∈ programOccurrences program
  only : ∀ o ∈ programOccurrences program, o.token = token → o = ⟨role, token, context⟩

/-- In an accepted source each token occurs at most once, so its role and its context are
determined. -/
theorem standsAt_of_read {role : Role} {token : Token} {context : Context}
    (h : readProgram source = .ok program)
    (hoccurs : ⟨role, token, context⟩ ∈ programOccurrences program) :
    StandsAt program role token context where
  occurs := hoccurs
  only := fun _ ho htoken => occurrence_eq_of_token h ho hoccurs htoken

/-! ## The nesting of a program

At first there is the global scope and nothing in it; then each statement of the program begins
there, in the empty context, and keeps the nesting. -/

/-- The store in which a program begins has no scope but the global one, no function, and one
class. -/
theorem nested_initial (honce : OpensOnce Occurs) : Nested U Occurs .initial where
  bounded := by
    intro id hid opening hopened
    obtain ⟨i⟩ := id
    obtain rfl : i = 0 := Nat.lt_one_iff.mp hid
    exact absurd hopened (honce.global opening)
  placed := fun _ hid => nomatch hid
  distinct := by
    intro c c' _ hc hc' _ _
    obtain ⟨i⟩ := c
    obtain ⟨j⟩ := c'
    exact congrArg ClassId.mk ((Nat.lt_one_iff.mp hc).trans (Nat.lt_one_iff.mp hc').symm)

/-- The global scope has no region around it. -/
theorem at_globalScope {store : Store} (h : SoundStore U Occurs store) :
    At Occurs store Store.globalScope [] where
  follows := by
    refine .global h.consistent.globalScope ?_
    rcases (h.consistent.scopes 0 h.consistent.globalScope).enclosing with ⟨-, hnone⟩ | ⟨_, hlt, -⟩
    · show Store.globalScope :: (store.scopes.get 0).enclosing = _
      rw [hnone]
    · cases hlt
  exact := fun _ hframe => nomatch hframe

/-- The run of a program keeps the nesting throughout. -/
theorem program_nested (h : readProgram source = .ok program) (fuel : Nat) (output : Sink)
    (clock : Clock) :
    ∃ s', (nesting (programOccurrences program)
        (· ∈ programTrace fuel program (.initial output clock))).Ends
      (programTrace fuel program (.initial output clock)) (.initial output clock) s' ∧
      Nested (programOccurrences program)
        (· ∈ programTrace fuel program (.initial output clock)) s'.store := by
  obtain ⟨s', hends⟩ := program_sound h fuel output clock
  have honce := opensOnce_of_sound hends
  have hkept := nesting_kept hends.covers.facts honce
  refine @session_covers _ _ hkept (fun s => Nested _ _ s.store) _ _ _ _ ?_ ?_ soundStore_initial
    (nested_initial honce) fun _ hmem => hmem
  · -- A statement of the program is run in the global scope, which has no region around it.
    intro stmt hstmt s hs hnested
    have hs : SoundStore _ _ s.store := hs
    refine ⟨hnested, ?_, trivial⟩
    intro scope hscope
    obtain rfl := Option.some.inj hscope
    refine ⟨[], at_globalScope hs, occurrences_subset_program hstmt, ?_⟩
    exact fun _ hframe => nomatch hframe
  · rintro stmt - s outcome ⟨hreaches, -⟩
    exact hreaches.nested

end

end Script
