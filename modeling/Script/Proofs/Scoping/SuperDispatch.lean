import Script.Proofs.Scoping.NestedPrograms
import Script.Proofs.Store.Search

/-!
# Calls of overridden methods

What `super.m` and `super(...)` stand for in a method depends on the class that declares the
method, and on nothing else: not on the class of the receiver, which may be any class below, and
not on fields, which hide methods only where a property is read off an object
(`superDispatched_of_read`).

The place of the keyword in the text leads to the scope of the parameters of the innermost method
around it. The scopes passed on the way there are not those of methods, so they hold neither `this`
nor `super`, and the scope that is reached was opened for one call of the method.
-/

namespace Script

open Contract

/-! ## The method around a place

A place in a method may be any number of blocks and functions deep. What counts is the innermost
region for the parameters of a method; regions for the parameters of other functions are passed. -/

/-- The method whose parameters a region holds. -/
def Region.method? : Region → Option FunctionDecl
  | .parameters decl true => some decl
  | _ => none

/-- The innermost method around a place. Around a method of a nested class it is that method, and
around a nested function it is the method that the function is nested in. -/
def Context.method? (context : Context) : Option FunctionDecl :=
  context.findSome? fun frame => frame.region.method?

/-- The number of regions inside the parameters of the innermost method. -/
def Context.methodDepth (context : Context) : Nat :=
  context.findIdx fun frame => frame.region.method?.isSome

/-- At this place a call of the method `decl` is running: the scope of its parameters is as many
scopes away as the text says, and was opened for this function and this binding. -/
def Running (Occurs : Moment → Prop) (store : Store) (scope : ScopeId) (context : Context)
    (decl : FunctionDecl) (function : FunctionId) (binding : Option (InstanceId × ClassId)) :
    Prop :=
  ∃ owner, (store.chain scope)[context.methodDepth]? = some owner ∧
    Opened Occurs owner (.parameters decl function binding)

/-- The function is a method of this class and of no other, bound to a receiver of the class or of
a class below it, and the receiver is what `this` stands for. -/
structure BoundTo (store : Store) (scope : ScopeId) (function : FunctionId)
    (receiver : InstanceId) (declaringClass : ClassId) : Prop where
  this : store.lookup scope thisName = .ok (.instanceRef receiver)
  inherits : store.isSubclass (store.instanceOf receiver).ofClass declaringClass = true
  declares : store.Declares declaringClass function
  only : ∀ c : ClassId, c.index < store.classes.size → store.Declares c function →
    c = declaringClass

/-- The outcome is a new method bound to the receiver, or `nil` if no method has been found. -/
def Binds (receiver : InstanceId) (s : State) : Option MethodResolution → Outcome Value → Prop
  | none, outcome => outcome = .ok .nil s
  | some resolution, outcome => ∃ id after, outcome = .ok (.function (.bound id)) after ∧
      after.store.boundMethod id =
        ⟨resolution.method, receiver, resolution.declaringClass, .empty⟩

section

variable {Occurs : Moment → Prop} {U : List Occurrence} {store : Store} {scope owner : ScopeId}
  {context : Context} {decl : FunctionDecl} {function : FunctionId} {receiver : InstanceId}
  {declaringClass : ClassId}

/-- A scope that was opened for anything but the parameters of a method holds neither of the two
names. -/
theorem unreserved_of_region (honce : OpensOnce Occurs) {opening : Opening} {region : Region}
    (hsound : ReceiverSound Occurs store scope) (hopened : Opened Occurs scope opening)
    (hregion : opening.For region) (hnone : region.method? = none) :
    ∀ name ∈ reservedNames, (store.bindings scope).get? name = none := by
  rcases hsound with hfree | ⟨call, rfl, hcall⟩
  · exact hfree
  · -- Only the parameters of a method are opened for a receiver.
    obtain ⟨decl, hmethod⟩ := hcall.opened
    obtain rfl := honce.unique _ _ _ hopened hmethod
    cases hregion with
    | parameters decl function hbinding =>
      have hisMethod := hbinding rfl
      rw [hisMethod] at hnone
      cases hnone

/-- Where the scopes follow the text, the parameters of the innermost method are reached by the
text, and no scope before them holds `this` or `super`. -/
theorem Follows.method (honce : OpensOnce Occurs) (h : Follows Occurs store scope context)
    (hsound : ∀ id : ScopeId, id.index < store.scopes.size → ReceiverSound Occurs store id)
    (hmethod : context.method? = some decl) :
    ∃ owner function binding, (store.chain scope)[context.methodDepth]? = some owner ∧
      owner.index < store.scopes.size ∧
      Opened Occurs owner (.parameters decl function binding) ∧
      ∀ id ∈ (store.chain scope).take context.methodDepth, ∀ name ∈ reservedNames,
        (store.bindings id).get? name = none := by
  -- Along the scopes and the regions at the same time, from the inside to the outside.
  induction h with
  | global => cases hmethod
  | @inner id parent frame outer opening hlt hchain hopened hregion hnames houter ih =>
    unfold Context.method? at hmethod
    rw [List.findSome?_cons] at hmethod
    cases hframe : frame.region.method? with
    -- The innermost region is that of the parameters.
    | some method =>
      have hdepth : Context.methodDepth (frame :: outer) = 0 := by
        unfold Context.methodDepth
        rw [List.findIdx_cons, hframe]
        rfl
      rw [hframe] at hmethod
      obtain rfl := Option.some.inj hmethod
      rw [hdepth, hchain]
      obtain ⟨region, names⟩ := frame
      cases hregion with
      | @parameters decl function binding isMethod hbinding =>
        cases isMethod with
        | true =>
          obtain rfl := Option.some.inj hframe
          exact ⟨id, function, binding, rfl, hlt, hopened, fun _ hmem => nomatch hmem⟩
        | false => cases hframe
      | _ => cases hframe
    -- One scope more is passed on the way.
    | none =>
      have hdepth : Context.methodDepth (frame :: outer) = Context.methodDepth outer + 1 := by
        unfold Context.methodDepth
        rw [List.findIdx_cons, hframe]
        rfl
      rw [hframe] at hmethod
      obtain ⟨owner, function, binding, hreached, howner, hparameters, hpassed⟩ := ih hmethod
      rw [hdepth, hchain]
      refine ⟨owner, function, binding, hreached, howner, hparameters, ?_⟩
      rw [List.take_succ_cons]
      intro other hother
      rcases List.mem_cons.mp hother with rfl | hother
      · exact unreserved_of_region honce (hsound other hlt) hopened hregion hframe
      · exact hpassed other hother

/-- A scope that is opened in a sound run for a call of a method holds its receiver at the end. -/
theorem methodCall_at_end {moments : List Moment} {s s' : State}
    (hends : (soundness U Occurs).Ends moments s s')
    (hopened : Opened (· ∈ moments) owner
      (.parameters decl function (some (receiver, declaringClass)))) :
    ∃ parent, MethodCall.Sound Occurs s'.store
      ⟨owner, function, receiver, declaringClass, parent⟩ := by
  obtain ⟨before, after, hmem, hsize⟩ := hopened
  -- The call is sound where its scope is opened, and from there on the store only grows.
  obtain ⟨-, hafter, -, hgrown, hreceiver⟩ := hends.covers.facts _ hmem
  obtain ⟨parent, hcall⟩ := hreceiver _ _ _ _ rfl
  have howner : (⟨before.store.scopes.size⟩ : ScopeId) = owner := congrArg ScopeId.mk hsize
  rw [howner] at hcall
  have hafter : SoundStore U Occurs after.store := hafter
  have hlt : owner.index < after.store.scopes.size := by omega
  exact ⟨parent, hcall.mono hafter.consistent (hends.covers.finish _ hmem) hlt⟩

/-- In a sound run the scope of the parameters of a method keeps the receiver that it was opened
for. -/
theorem methodCall_of_opened {moments : List Moment} {s s' : State}
    (hends : (soundness U (· ∈ moments)).Ends moments s s')
    (hsound : ReceiverSound (· ∈ moments) store owner) (hgrows : store.Grows s'.store)
    (howner : owner.index < store.scopes.size)
    (hopened : Opened (· ∈ moments) owner
      (.parameters decl function (some (receiver, declaringClass)))) :
    ∃ parent, MethodCall.Sound (· ∈ moments) store
      ⟨owner, function, receiver, declaringClass, parent⟩ := by
  have honce := opensOnce_of_sound hends
  obtain ⟨parent, hcall⟩ := methodCall_at_end hends hopened
  -- The receiver is there at the end of the run, and so it is there now.
  have hmember : thisName ∈ reservedNames := .head _
  have hthis : (store.bindings owner).get? thisName = some (.instanceRef receiver) := by
    rw [← hgrows.reserved howner hmember]
    exact hcall.this
  rcases hsound with hfree | ⟨call, rfl, hsound⟩
  · rw [hfree _ hmember] at hthis
    cases hthis
  · obtain ⟨decl', hother⟩ := hsound.opened
    have hsame := honce.unique _ _ _ hopened hother
    injection hsame with _ hmethod hbinding
    obtain ⟨hreceiver, hclass⟩ := Prod.mk.inj (Option.some.inj hbinding)
    obtain ⟨callScope, method, callReceiver, callClass, callParent⟩ := call
    dsimp only at hmethod hreceiver hclass
    subst hmethod hreceiver hclass
    exact ⟨callParent, hsound⟩

/-- Where a method runs bound to a receiver, `this` stands for the receiver and `super` for the
superclass of the class that declares the method. -/
theorem bound_of_place {moments : List Moment} {s s' : State}
    (hends : (soundness U (· ∈ moments)).Ends moments s s')
    (hstore : SoundStore U (· ∈ moments) store) (hnested : Nested U (· ∈ moments) store)
    (hgrows : store.Grows s'.store) (hfollows : Follows (· ∈ moments) store scope context)
    (hmethod : context.method? = some decl) :
    ∃ function binding, Running (· ∈ moments) store scope context decl function binding ∧
      ∀ receiver declaringClass, binding = some (receiver, declaringClass) →
        BoundTo store scope function receiver declaringClass ∧
          declaringClass.index < store.classes.size ∧
          ∃ parent, store.lookup scope superName = .ok (.classRef parent) ∧
            store.superclass? declaringClass = some parent := by
  have honce := opensOnce_of_sound hends
  obtain ⟨owner, function, binding, hreached, howner, hopened, hpassed⟩ :=
    hfollows.method honce hstore.receivers hmethod
  refine ⟨function, binding, ⟨owner, hreached, hopened⟩, ?_⟩
  rintro receiver declaringClass rfl
  obtain ⟨parent, hcall⟩ :=
    methodCall_of_opened hends (hstore.receivers owner howner) hgrows howner hopened
  have hclass := hcall.dispatches.declaringClass_lt hstore.consistent
  -- None of the scopes on the way hides the two names.
  have hthis : store.lookup scope thisName = .ok (.instanceRef receiver) :=
    Store.lookup_reached hreached (fun id hid => hpassed id hid _ (.head _)) hcall.this
  have hsuper : store.lookup scope superName = .ok (.classRef parent) :=
    Store.lookup_reached hreached (fun id hid => hpassed id hid _ (.tail _ (.head _))) hcall.super
  refine ⟨⟨hthis, decide_eq_true hcall.dispatches.inherits, hcall.dispatches.declares, ?_⟩, hclass,
    parent, hsuper, hcall.superclass⟩
  intro c hc hdeclares
  exact hnested.distinct c declaringClass function hc hclass hdeclares hcall.dispatches.declares

end

/-! ## The two forms of `super`

Both forms look up `this` and `super`. Where it is known what these stand for, the first form makes
a bound method, and the second one runs a constructor on the receiver. -/

section

variable {fuel : Nat} {scope : ScopeId} {keyword method : Token} {arguments : List Expr}
  {state after : State} {receiver : InstanceId} {parent : ClassId}

/-- The method is searched for from the superclass upward, and bound to the receiver. -/
theorem superGet_binds (hthis : state.store.lookup scope thisName = .ok (.instanceRef receiver))
    (hsuper : state.store.lookup scope superName = .ok (.classRef parent)) :
    Binds receiver state (state.store.method? parent method.lexeme)
      (Eval.evaluate (fuel + 1) scope (.superGet keyword method) state) := by
  rw [superGet_bound hthis hsuper]
  cases state.store.method? parent method.lexeme with
  | none => rfl
  | some resolution =>
    -- The bound method is the last one of the store.
    refine ⟨_, _, rfl, ?_⟩
    exact Arena.get_push_size ..

/-- The first constructor from a class upward is run on an instance that is there already. -/
theorem construct_eq (id : InstanceId) (start : ClassId) (values : List Value) (s : State) :
    Eval.construct (fuel + 1) id (some start) values s =
      match s.store.method? start constructorName with
      | none => Eval.checkArity 0 values.length s
      | some resolution =>
        (do
          Eval.checkArity (s.store.function resolution.method).decl.params.length values.length
          let _ ← Eval.invoke fuel resolution.method (some (id, resolution.declaringClass)) values
          pure () : Eval Unit) s := by
  rw [Eval.construct]
  show EStateM.bind _ _ s = _
  simp only [EStateM.bind, Eval.read, Option.bind_some]
  cases s.store.method? start constructorName <;> rfl

/-- The arguments are evaluated. The first constructor from the superclass upward is then run on the
receiver, and its result is dropped. The search is made in the store that the arguments leave
behind. -/
theorem superCall_runs {values : List Value}
    (hthis : state.store.lookup scope thisName = .ok (.instanceRef receiver))
    (hsuper : state.store.lookup scope superName = .ok (.classRef parent))
    (hvalues : Eval.evaluateAll (fuel + 1) scope arguments state = .ok values after) :
    Eval.evaluate (fuel + 2) scope (.superCall keyword arguments) state =
      match after.store.method? parent constructorName with
      | none => (do Eval.checkArity 0 values.length; pure .nil : Eval Value) after
      | some resolution =>
        (do
          Eval.checkArity (after.store.function resolution.method).decl.params.length values.length
          let _ ← Eval.invoke fuel resolution.method (some (receiver, resolution.declaringClass))
            values
          pure .nil : Eval Value) after := by
  rw [superCall_bound hthis hsuper]
  show EStateM.bind _ _ state = _
  simp only [EStateM.bind, hvalues]
  show EStateM.bind _ _ after = _
  simp only [EStateM.bind, construct_eq]
  cases after.store.method? parent constructorName with
  | none => rfl
  | some resolution =>
    -- The checks and the call are the same, and what the constructor returns is dropped.
    show EStateM.bind (EStateM.bind _ _) _ after = EStateM.bind _ _ after
    simp only [EStateM.bind]
    cases Eval.checkArity (after.store.function resolution.method).decl.params.length
      values.length after with
    | error interrupt s => rfl
    | ok _ s =>
      show EStateM.bind (EStateM.bind _ _) _ s = EStateM.bind _ _ s
      simp only [EStateM.bind]
      cases Eval.invoke fuel resolution.method (some (receiver, resolution.declaringClass))
        values s <;> rfl

end

/-! ## The runs of programs -/

/-- What holds of calls of overridden methods throughout the run of a program. -/
structure SuperDispatched (fuel : Nat) (program : List Stmt) (s : State) : Prop where
  /-- In a method that is bound to a receiver, `super.m` binds to the receiver the first `m` that is
  declared strictly above the class of the method. -/
  superGet : ∀ fuel' scope keyword method state,
    .visit (fuel' + 1) (.evaluate scope (.superGet keyword method)) state ∈
      programTrace fuel program s →
    ∃ context, StandsAt program .receiver keyword context ∧
      ∀ decl, context.method? = some decl → ∃ function binding,
        Running (· ∈ programTrace fuel program s) state.store scope context decl function binding ∧
        ∀ receiver declaringClass, binding = some (receiver, declaringClass) →
          BoundTo state.store scope function receiver declaringClass ∧
          Binds receiver state (state.store.methodAbove? declaringClass method.lexeme)
            (Eval.evaluate (fuel' + 1) scope (.superGet keyword method) state)
  /-- There `super(...)` runs on the receiver the first constructor that is declared strictly above
  the class of the method, if it takes so many arguments. -/
  superCall : ∀ fuel' scope keyword arguments state,
    .visit (fuel' + 2) (.evaluate scope (.superCall keyword arguments)) state ∈
      programTrace fuel program s →
    ∃ context, StandsAt program .receiver keyword context ∧
      ∀ decl, context.method? = some decl → ∃ function binding,
        Running (· ∈ programTrace fuel program s) state.store scope context decl function binding ∧
        ∀ receiver declaringClass, binding = some (receiver, declaringClass) →
          BoundTo state.store scope function receiver declaringClass ∧
          ∀ values after, Eval.evaluateAll (fuel' + 1) scope arguments state = .ok values after →
            Eval.evaluate (fuel' + 2) scope (.superCall keyword arguments) state =
              match state.store.methodAbove? declaringClass constructorName with
              | none => (do Eval.checkArity 0 values.length; pure .nil : Eval Value) after
              | some resolution =>
                (do
                  Eval.checkArity (after.store.function resolution.method).decl.params.length
                    values.length
                  let _ ← Eval.invoke fuel' resolution.method
                    (some (receiver, resolution.declaringClass)) values
                  pure .nil : Eval Value) after
  /-- What is found strictly above a class never changes, whatever is declared below the class and
  whatever fields are set. -/
  fixed : (programStates fuel program s).Pairwise fun a b =>
    ∀ id : ClassId, id.index < a.store.classes.size → ∀ name,
      b.store.methodAbove? id name = a.store.methodAbove? id name
  /-- What is found is run, if it is run on a receiver, as a method of the class that it was found
  in. So what it calls with `super` in turn is searched strictly above that class. -/
  further : ∀ state ∈ programStates fuel program s, ∀ (id : ClassId) name resolution,
    id.index < state.store.classes.size →
    state.store.methodAbove? id name = some resolution →
      resolution.declaringClass ∈ state.store.above id ∧
      resolution.declaringClass.index < id.index ∧
      ∀ owner decl receiver declaringClass,
        Opened (· ∈ programTrace fuel program s) owner
          (.parameters decl resolution.method (some (receiver, declaringClass))) →
        declaringClass = resolution.declaringClass

section

variable {source : String} {program : List Stmt}

/-- The arguments of `super(...)` are evaluated once the receiver has been found. -/
theorem visit_superArguments {fuel fuel' : Nat} {scope : ScopeId} {keyword : Token}
    {arguments : List Expr} {state s : State} {receiver : InstanceId} {parent : ClassId}
    (hthis : state.store.lookup scope thisName = .ok (.instanceRef receiver))
    (hsuper : state.store.lookup scope superName = .ok (.classRef parent))
    (h : .visit (fuel' + 1) (.evaluate scope (.superCall keyword arguments)) state ∈
      programTrace fuel program s) :
    .visit fuel' (.evaluateAll scope arguments) state ∈ programTrace fuel program s := by
  refine sessionTrace_subset h ?_
  rw [Task.trace]
  refine List.mem_cons_of_mem _ ?_
  show _ ∈ Plan.trace _ _ (.step .acts (Eval.receiver scope superName) _) state
  rw [Plan.trace, receiver_bound superName hthis]
  refine List.mem_cons_of_mem _ ?_
  show _ ∈ Plan.trace _ _ (.step .acts (Eval.superclass scope) _) state
  rw [Plan.trace, superclass_bound hsuper]
  refine List.mem_cons_of_mem _ ?_
  show _ ∈ Plan.trace _ _ (.sub (.evaluateAll scope arguments) _) state
  rw [Plan.trace]
  exact List.mem_append_left _ (Task.visit_mem_trace fuel' _ state)

/-- The keyword `super` stands at one place of the program. In a method it stands there for the
receiver and the superclass of a call of the method, if the method is bound to a receiver. -/
theorem bound_of_visit {fuel fuel' : Nat} {s s' s'' : State} {task : Task} {scope : ScopeId}
    {keyword : Token} {state : State} (h : readProgram source = .ok program)
    (hends : (soundness (programOccurrences program) (· ∈ programTrace fuel program s)).Ends
      (programTrace fuel program s) s s')
    (hends' : (nesting (programOccurrences program) (· ∈ programTrace fuel program s)).Ends
      (programTrace fuel program s) s s'')
    (hvisit : .visit fuel' task state ∈ programTrace fuel program s)
    (hscope : task.scope? = some scope)
    (hkeyword : ∀ context, ⟨.receiver, keyword, context⟩ ∈ task.occurrences context) :
    ∃ context, StandsAt program .receiver keyword context ∧
      ∀ decl, context.method? = some decl → ∃ function binding,
        Running (· ∈ programTrace fuel program s) state.store scope context decl function binding ∧
        ∀ receiver declaringClass, binding = some (receiver, declaringClass) →
          BoundTo state.store scope function receiver declaringClass ∧
            declaringClass.index < state.store.classes.size ∧
            ∃ parent, state.store.lookup scope superName = .ok (.classRef parent) ∧
              state.store.superclass? declaringClass = some parent := by
  obtain ⟨hinvariant, hbegins, -⟩ := hends'.covers.facts _ hvisit
  have hinvariant : SoundStore _ _ state.store := hinvariant
  have hlater : state.store.Grows s'.store := hends.covers.finish _ hvisit
  -- The task begins at a place of the text, and its keyword stands there.
  obtain ⟨context, hat, hwithin, -⟩ := hbegins.place scope hscope
  refine ⟨context, standsAt_of_read h (hwithin (hkeyword context)), fun decl hmethod => ?_⟩
  exact bound_of_place hends hinvariant hbegins.nested hlater hat.follows hmethod

/-- Where `super(...)` is evaluated in a method of this class, what runs is found strictly above the
class, as the classes stand once the arguments are evaluated. -/
theorem superCall_above {fuel fuel' : Nat} {s s' : State} {scope : ScopeId} {keyword : Token}
    {arguments : List Expr} {state after : State} {function : FunctionId} {receiver : InstanceId}
    {declaringClass parent : ClassId} {values : List Value}
    (hends : (soundness (programOccurrences program) (· ∈ programTrace fuel program s)).Ends
      (programTrace fuel program s) s s')
    (hvisit : .visit (fuel' + 2) (.evaluate scope (.superCall keyword arguments)) state ∈
      programTrace fuel program s)
    (hto : BoundTo state.store scope function receiver declaringClass)
    (hclass : declaringClass.index < state.store.classes.size)
    (hsuper : state.store.lookup scope superName = .ok (.classRef parent))
    (hparent : state.store.superclass? declaringClass = some parent)
    (hvalues : Eval.evaluateAll (fuel' + 1) scope arguments state = .ok values after) :
    Eval.evaluate (fuel' + 2) scope (.superCall keyword arguments) state =
      match state.store.methodAbove? declaringClass constructorName with
      | none => (do Eval.checkArity 0 values.length; pure .nil : Eval Value) after
      | some resolution =>
        (do
          Eval.checkArity (after.store.function resolution.method).decl.params.length values.length
          let _ ← Eval.invoke fuel' resolution.method (some (receiver, resolution.declaringClass))
            values
          pure .nil : Eval Value) after := by
  obtain ⟨hstore, -⟩ := hends.covers.facts _ hvisit
  have hstore : SoundStore _ _ state.store := hstore
  obtain ⟨-, -, hafter, hgrows, -⟩ :=
    hends.covers.facts _ (visit_superArguments hto.this hsuper hvisit)
  have hafter : SoundStore (programOccurrences program) _
      (finalState (Eval.evaluateAll (fuel' + 1) scope arguments state)).store := hafter
  have hgrows : state.store.Grows
      (finalState (Eval.evaluateAll (fuel' + 1) scope arguments state)).store := hgrows
  rw [hvalues, finalState_ok] at hafter hgrows
  -- The arguments may declare classes, but they change none that are there.
  have hparent' : after.store.superclass? declaringClass = some parent := by
    rw [hgrows.superclass? hclass]
    exact hparent
  have hclass' : declaringClass.index < after.store.classes.size :=
    Nat.lt_of_lt_of_le hclass hgrows.classes.size
  -- The call searches the later store from the superclass upward.
  rw [← hgrows.methodAbove? hstore.consistent hclass,
    Store.methodAbove?_eq hafter.consistent hclass' hparent']
  exact superCall_runs hto.this hsuper hvalues

/-- A method that is run on a receiver runs as a method of the one class that declares it. -/
theorem class_of_call {fuel : Nat} {s s' s'' state : State} {owner : ScopeId}
    {decl : FunctionDecl} {function : FunctionId} {receiver : InstanceId}
    {declaringClass id : ClassId}
    (hends : (soundness (programOccurrences program) (· ∈ programTrace fuel program s)).Ends
      (programTrace fuel program s) s s')
    (hends' : (nesting (programOccurrences program) (· ∈ programTrace fuel program s)).Ends
      (programTrace fuel program s) s s'')
    (hlast : Nested (programOccurrences program) (· ∈ programTrace fuel program s) s''.store)
    (hstate : state ∈ programStates fuel program s)
    (hid : id.index < state.store.classes.size) (hdeclares : state.store.Declares id function)
    (hopened : Opened (· ∈ programTrace fuel program s) owner
      (.parameters decl function (some (receiver, declaringClass)))) : declaringClass = id := by
  obtain ⟨before, after, hopens, -⟩ := hopened
  obtain ⟨-, hafter, -, -, hcall⟩ := hends.covers.facts _ hopens
  have hafter : SoundStore (programOccurrences program) _ after.store := hafter
  obtain ⟨parent, hcall⟩ := hcall _ _ _ _ rfl
  have hclass := hcall.dispatches.declaringClass_lt hafter.consistent
  -- The state and the call may stand in either order, but at the end of the run both classes are
  -- there and declare the method.
  have hgrows : state.store.Grows s''.store := hends'.later_of_state hstate
  have hgrows' : after.store.Grows s''.store := hends'.covers.finish _ hopens
  refine hlast.distinct _ _ function (Nat.lt_of_lt_of_le hclass hgrows'.classes.size)
    (Nat.lt_of_lt_of_le hid hgrows.classes.size) ?_ ?_
  · exact hcall.dispatches.declares.mono hgrows' hclass
  · exact hdeclares.mono hgrows hid

/-- In every run of a program that was read, `super` in a method that is bound to a receiver stands
for what is declared strictly above the class that declares the method. The class of the receiver
does not matter: two receivers that inherit the method come to the same function. -/
theorem superDispatched_of_read (h : readProgram source = .ok program) (fuel : Nat)
    (output : Sink) (clock : Clock) : SuperDispatched fuel program (.initial output clock) := by
  obtain ⟨s', hends⟩ := program_sound h fuel output clock
  obtain ⟨s'', hends', hlast⟩ := program_nested h fuel output clock
  refine ⟨?superGet, ?superCall, ?fixed, ?further⟩
  case superGet =>
    intro fuel' scope keyword method state hvisit
    obtain ⟨hstore, -⟩ := hends.covers.facts _ hvisit
    have hstore : SoundStore _ _ state.store := hstore
    obtain ⟨context, hstands, hmethod⟩ :=
      bound_of_visit h hends hends' hvisit rfl fun _ => .head _
    refine ⟨context, hstands, fun decl hdecl => ?_⟩
    obtain ⟨function, binding, hrunning, hbound⟩ := hmethod decl hdecl
    refine ⟨function, binding, hrunning, fun receiver declaringClass hbinding => ?_⟩
    obtain ⟨hto, hclass, parent, hsuper, hparent⟩ := hbound receiver declaringClass hbinding
    refine ⟨hto, ?_⟩
    -- The search from the superclass upward is the search above the declaring class.
    rw [Store.methodAbove?_eq hstore.consistent hclass hparent]
    exact superGet_binds hto.this hsuper
  case superCall =>
    intro fuel' scope keyword arguments state hvisit
    obtain ⟨context, hstands, hmethod⟩ :=
      bound_of_visit h hends hends' hvisit rfl fun _ => .head _
    refine ⟨context, hstands, fun decl hdecl => ?_⟩
    obtain ⟨function, binding, hrunning, hbound⟩ := hmethod decl hdecl
    refine ⟨function, binding, hrunning, fun receiver declaringClass hbinding => ?_⟩
    obtain ⟨hto, hclass, parent, hsuper, hparent⟩ := hbound receiver declaringClass hbinding
    exact ⟨hto, fun values after hvalues =>
      superCall_above hends hvisit hto hclass hsuper hparent hvalues⟩
  case fixed =>
    refine hends.covers.states.imp_of_mem fun {a b} ha _ hgrows => ?_
    have hgrows : a.store.Grows b.store := hgrows
    exact fun id hid name => hgrows.methodAbove? (soundStore_of_state hends ha).consistent hid
  case further =>
    intro state hstate id name resolution hid hfound
    obtain ⟨nearer, outer, habove, -, hmethod⟩ := Store.methodAbove?_eq_some hfound
    have hmem : resolution.declaringClass ∈ state.store.above id := by
      rw [habove]
      exact List.mem_append_right _ (.head _)
    have hlt : resolution.declaringClass.index < id.index :=
      (soundStore_of_state hends hstate).consistent.ancestor_lt hid hmem
    refine ⟨hmem, hlt, fun owner decl receiver declaringClass hopened => ?_⟩
    exact class_of_call hends hends' hlast hstate (Nat.lt_trans hlt hid) ⟨name, hmethod⟩ hopened

end

/-- A method that is overridden twice, and a constructor that calls the one above it. -/
def hierarchySource : String :=
  "class A \x7b fun constructor(x) \x7b this.x = x; \x7d fun m() \x7b return this.x; \x7d \x7d
   class B < A \x7b fun constructor() \x7b super(1); \x7d fun m() \x7b return super.m(); \x7d \x7d
   class C < B \x7b fun m() \x7b return super.m(); \x7d \x7d print C().m();"

/-- The statement is about something: this program calls a method and a constructor with `super`. -/
theorem superDispatched_hierarchy : ∃ program, readProgram hierarchySource = .ok program ∧
    SuperDispatched 60 program (.initial .unlimited ⟨fun _ => ⟨0⟩⟩) := by
  obtain ⟨program, hread, -⟩ := @exists_read hierarchySource (fun _ => True) _ (by decide +kernel)
  exact ⟨program, hread, superDispatched_of_read hread 60 _ _⟩

end Script
