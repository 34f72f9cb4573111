import Script.Proofs.Run.PropertyLog
import Script.Proofs.Run.Writes
import Script.Proofs.Scoping.Calls
import Script.Proofs.Scoping.Forest
import Script.Proofs.Scoping.SuperDispatch

/-!
# Construction

Calling a class makes an instance and runs the first constructor from the class upward, which often
is one that the class inherits. Constructors are functions like others: they return values, pass
their receiver on, make further instances, and call the constructor above with `super(...)`.
Whatever they do, the call yields the instance that was made (`constructed_of_call`).

Which constructors run is read off the trace. What a task does itself is a part of its trace
(`Task.own`); the constructor that a task runs is known by the scope that is opened for it
(`Task.Constructs`), and those above are called from places where `this` is the one of that scope
(`Task.RunsConstructor`). They all run on the new instance, by induction along this chain
(`receiver_of_run`): the scope of a constructor keeps its receiver, and `super(...)` passes on what
it finds there.
-/

namespace Script

open Contract

/-- The call of a class, which makes an instance and constructs it. -/
abbrev Task.new (ofClass : ClassId) (arguments : List Value) : Task :=
  .call (.classRef ofClass) arguments

/-- The state in which a class has made its instance. -/
abbrev State.created (s : State) (ofClass : ClassId) : State :=
  { s with store := (s.store.newInstance ofClass).2 }

/-! ## The way to a constructor

From the call of a class to the body of its constructor there are three tasks: the call makes the
instance and has it constructed, that task looks for a constructor and invokes it, and invoking
opens the scope of the parameters. Each lemma says of one of them what it visits itself, in the form
in which it is found in a trace. -/

section

variable {fuel fuel' : Nat} {scope : ScopeId} {keyword : Token} {exprs : List Expr} {task : Task}
  {ofClass : ClassId} {id receiver : InstanceId} {start : Option ClassId} {function : FunctionId}
  {binding : Option (InstanceId × ClassId)} {arguments values : List Value} {s s' : State}

/-- A class makes an instance, for which a constructor is looked for. -/
theorem visit_of_call :
    .visit fuel' task s' ∈ (Task.new ofClass arguments).own (fuel + 1) s ↔
      Moment.visit fuel' task s' =
        .visit fuel (.construct ⟨s.store.instances.size⟩ (some ofClass) arguments)
          (s.created ofClass) := by
  rw [Task.own]
  show Moment.visit fuel' task s' ∈ (Task.callBody arguments (.classRef ofClass)).trace _ _ s ↔ _
  unfold Task.callBody
  rw [visit_mem_act_bind]
  constructor
  · -- Making the instance visits nothing; after the construction only the value is made.
    rintro ⟨created, s₁, hnew, hmem⟩
    obtain ⟨rfl, rfl⟩ := EStateM.Result.ok.inj hnew
    rcases mem_trace_perform_bind.mp hmem with hmem | ⟨_, _, -, hmem⟩
    · exact List.mem_singleton.mp hmem
    · cases hmem
  · intro heq
    rw [heq]
    exact ⟨_, _, rfl, mem_trace_perform_bind.mpr (.inl (.head _))⟩

/-- The constructor that is found is run on the instance. -/
theorem visit_of_construct
    (h : .visit fuel' task s' ∈ (Task.construct id start arguments).own fuel s) :
    ∃ resolution, (start.bind fun start => s.store.method? start constructorName) =
        some resolution ∧
      task = .invoke resolution.method (some (id, resolution.declaringClass)) arguments := by
  cases fuel with
  | zero => cases h
  | succ fuel =>
    rw [Task.own] at h
    have h : Moment.visit fuel' task s' ∈ (Task.constructBody id start arguments).trace _ _ s := h
    unfold Task.constructBody at h
    rw [visit_mem_read_bind] at h
    cases hfound : start.bind fun start => s.store.method? start constructorName with
    | none =>
      rw [hfound] at h
      exact absurd h not_visit_act
    | some resolution =>
      rw [hfound] at h
      refine ⟨resolution, rfl, ?_⟩
      -- The number of parameters is read and compared, and then the constructor is called.
      obtain ⟨_, s₁, -, h⟩ := visit_mem_act_bind.mp (visit_mem_read_bind.mp h)
      rcases mem_trace_perform_bind.mp h with h | ⟨_, _, -, h⟩
      · exact (Moment.visit.inj (List.mem_singleton.mp h)).2.1
      · cases h

/-- Where a constructor is found and runs without an error, it is called. -/
theorem visit_of_constructed {resolution : MethodResolution}
    (hfound : (start.bind fun start => s.store.method? start constructorName) = some resolution)
    (hrun : Eval.construct (fuel + 1) id start arguments s = .ok () s') :
    .visit fuel (.invoke resolution.method (some (id, resolution.declaringClass)) arguments) s ∈
        (Task.construct id start arguments).own (fuel + 1) s ∧
      ∃ value s₁, Eval.invoke fuel resolution.method (some (id, resolution.declaringClass))
        arguments s = .ok value s₁ := by
  rw [Eval.construct, Eval.bind_read, hfound] at hrun
  dsimp only at hrun
  rw [Eval.bind_read] at hrun
  -- Otherwise the arguments would have been refused, and the run would not have ended well.
  have harity : s.store.arity (.user resolution.method) = arguments.length := by
    by_contra hne
    rw [Eval.bind_of_error (Eval.checkArity_of_ne hne)] at hrun
    cases hrun
  have hcheck : Eval.checkArity (s.store.arity (.user resolution.method)) arguments.length s =
      .ok () s := Eval.checkArity_of_eq harity
  constructor
  · rw [Task.own]
    show _ ∈ (Task.constructBody id start arguments).trace _ _ s
    unfold Task.constructBody
    rw [visit_mem_read_bind, hfound]
    refine visit_mem_read_bind.mpr (visit_mem_act_bind.mpr ⟨(), s, hcheck, ?_⟩)
    exact mem_trace_perform_bind.mpr (.inl (.head _))
  · rw [Eval.bind_of_ok hcheck] at hrun
    obtain ⟨value, s₁, hinvoke, -⟩ := Eval.bind_eq_ok.mp hrun
    exact ⟨value, s₁, hinvoke⟩

/-- Calling the constructor above initialises the receiver of the constructor that calls it. -/
theorem visit_of_superCall (hthis : s.store.lookup scope thisName = .ok (.instanceRef receiver))
    (h : .visit fuel' (.construct id start values) s' ∈
      (Task.evaluate scope (.superCall keyword exprs)).own fuel s) : id = receiver := by
  cases fuel with
  | zero => cases h
  | succ fuel =>
    rw [Task.own] at h
    have h : Moment.visit fuel' (.construct id start values) s' ∈
      (Task.evaluateBody scope (.superCall keyword exprs)).trace _ _ s := h
    unfold Task.evaluateBody at h
    obtain ⟨found, s₁, hfound, h⟩ := visit_mem_act_bind.mp h
    rw [receiver_bound superName hthis] at hfound
    obtain ⟨rfl, rfl⟩ := EStateM.Result.ok.inj hfound
    obtain ⟨parent, s₂, -, h⟩ := visit_mem_act_bind.mp h
    -- First the arguments are evaluated, which is not what is looked for.
    rcases mem_trace_perform_bind.mp h with h | ⟨others, s₃, -, h⟩
    · cases List.mem_singleton.mp h
    · rcases mem_trace_perform_bind.mp h with h | ⟨_, _, -, h⟩
      · injection List.mem_singleton.mp h with _ htask _
        injection htask
      · cases h

/-- A function that is entered has a scope for its parameters, and the trace of the invocation shows
where it was opened. It is the next scope, since nothing is opened before it. -/
theorem opened_of_enter {body : ScopeId} {s₁ : State}
    (henter : Eval.enter (s.store.function function) binding arguments s = .ok body s₁) :
    Opened (· ∈ (Task.invoke function binding arguments).own (fuel + 1) s)
      ⟨s.store.scopes.size⟩
      (.parameters (s.store.function function).decl function binding) := by
  unfold Eval.enter at henter
  rw [Eval.bind_read] at henter
  cases htable : Table.empty.addDistinct
      (Eval.callBindings s.store (s.store.function function) binding arguments) with
  | error name =>
    rw [htable] at henter
    cases henter
  | ok table =>
    refine ⟨s,
      { s with store := (s.store.newChild (s.store.function function).closure table).2 }, ?_, rfl⟩
    show _ ∈ (Task.invoke function binding arguments).own (fuel + 1) s
    rw [Task.own]
    show _ ∈ (Task.invokeBody function binding arguments).trace _ _ s
    unfold Task.invokeBody
    -- The function is read, then its bindings, and then the scope is opened: the moment sought is
    -- the first one after the two reads.
    refine mem_trace_read_bind.mpr (.inr ?_)
    refine trace_subset_bind _ _ s ?_
    unfold Plan.enter
    refine mem_trace_read_bind.mpr (.inr ?_)
    rw [htable]
    exact List.mem_cons_self ..

end

/-! ## The constructors that run

A call can run many constructors, on other instances as well: one that makes further instances, or
calls methods that do, runs theirs too. Only those count that run for this instance, and they are
told apart by the scope that `this` is found in: the first is run by the task, and each next one by
a `super(...)` that finds `this` in the scope of one before. -/

/-- The run of a constructor: the scope of its parameters, the instance that it is run on, and the
class that declares it. -/
structure ConstructorRun where
  scope : ScopeId
  receiver : InstanceId
  declaringClass : ClassId

/-- The binding of the method that is run. -/
abbrev ConstructorRun.binding (run : ConstructorRun) : Option (InstanceId × ClassId) :=
  some (run.receiver, run.declaringClass)

/-- The task itself, and not one that it calls, looks for a constructor and enters it. -/
def Task.Constructs (fuel : Nat) (task : Task) (s : State) (run : ConstructorRun) : Prop :=
  ∃ fuel₁ id start values s₁ fuel₂ method s₂ decl,
    .visit fuel₁ (.construct id start values) s₁ ∈ task.own fuel s ∧
    .visit fuel₂ (.invoke method run.binding values) s₂ ∈
      (Task.construct id start values).own fuel₁ s₁ ∧
    Opened (· ∈ (Task.invoke method run.binding values).own fuel₂ s₂) run.scope
      (.parameters decl method run.binding)

/-- The constructor that the task runs, and those above it that are reached from there: wherever
`this` is the one of a constructor that has been reached, `super(...)` reaches the next. -/
inductive Task.RunsConstructor (fuel : Nat) (task : Task) (s : State) : ConstructorRun → Prop
  | first {run : ConstructorRun} (h : task.Constructs fuel s run) : RunsConstructor fuel task s run
  | above {run next : ConstructorRun} {fuel' : Nat} {scope : ScopeId} {keyword : Token}
      {exprs : List Expr} {state : State} (hrun : RunsConstructor fuel task s run)
      (hvisit : .visit fuel' (.evaluate scope (.superCall keyword exprs)) state ∈
        task.trace fuel s)
      (howner : state.store.owner? scope thisName = some run.scope)
      (h : (Task.evaluate scope (.superCall keyword exprs)).Constructs fuel' state next) :
      RunsConstructor fuel task s next

section

variable {U : List Occurrence} {fuel : Nat} {task : Task} {scope owner : ScopeId}
  {ofClass : ClassId} {arguments : List Value} {run : ConstructorRun} {s s' state : State}

/-- The scope of a constructor that the task runs is opened in the trace of the task. -/
theorem Task.Constructs.opened (h : task.Constructs fuel s run) :
    ∃ decl method, Opened (· ∈ task.trace fuel s) run.scope
      (.parameters decl method run.binding) := by
  obtain ⟨fuel₁, id, start, values, s₁, fuel₂, method, s₂, decl, hconstruct, hinvoke, hopened⟩ := h
  -- Each task that is begun leaves its whole trace in that of the one that calls it.
  have hconstruct := Task.trace_subset (Task.own_subset _ _ _ hconstruct)
  have hinvoke := Task.trace_subset (Task.own_subset _ _ _ hinvoke)
  refine ⟨decl, method, hopened.mono fun moment hmem => ?_⟩
  exact hconstruct (hinvoke (Task.own_subset _ _ _ hmem))

/-- A constructor runs on the instance that it is looked for on behalf of. -/
theorem Task.Constructs.visit (h : task.Constructs fuel s run) :
    ∃ fuel' start values s', .visit fuel' (.construct run.receiver start values) s' ∈
      task.own fuel s := by
  obtain ⟨fuel₁, id, start, values, s₁, fuel₂, method, s₂, decl, hconstruct, hinvoke, -⟩ := h
  obtain ⟨resolution, -, htask⟩ := visit_of_construct hinvoke
  injection htask with _ hbinding _
  -- The binding that is invoked has the instance that was to be constructed.
  have hreceiver : run.receiver = id := congrArg Prod.fst (Option.some.inj hbinding)
  rw [hreceiver]
  exact ⟨fuel₁, start, values, s₁, hconstruct⟩

/-- The scope of each constructor is opened in the run of the task. -/
theorem Task.RunsConstructor.opened (h : task.RunsConstructor fuel s run) :
    ∃ decl method, Opened (· ∈ task.trace fuel s) run.scope
      (.parameters decl method run.binding) := by
  cases h with
  | first h => exact h.opened
  | above _ hvisit _ h =>
    obtain ⟨decl, method, hopened⟩ := h.opened
    exact ⟨decl, method, hopened.mono fun moment hmem => Task.trace_subset hvisit hmem⟩

/-! ## The receiver

The scope of a constructor has held its receiver since it was opened, and it never changes
(`reserved_of_owner`). So wherever `this` is found in that scope, at whatever time of the run, it
stands for the receiver; and since `super(...)` runs the next constructor on what `this` stands for,
all of them run on the same instance. -/

/-- The scope that holds `this` for a place is one that the store has. -/
theorem owner?_lt {store : Store} {name : String} (h : store.owner? scope name = some owner) :
    owner.index < store.scopes.size := by
  have hdeclares : store.declares owner name = true := by
    simpa using List.find?_some h
  -- Where there is no scope, no name is declared.
  by_contra hge
  have hdefault : store.scope owner = default := Arena.get_of_size_le _ (Nat.le_of_not_lt hge)
  unfold Store.declares Store.bindings at hdeclares
  rw [hdefault] at hdeclares
  cases hdeclares

/-- The first scope on the way that declares the name is the one that holds it. -/
theorem owner?_of_chain {store : Store} {name : String} {inner outer : List ScopeId}
    (hchain : store.chain scope = inner ++ owner :: outer)
    (hinner : ∀ id ∈ inner, store.declares id name = false)
    (howner : store.declares owner name = true) : store.owner? scope name = some owner := by
  have hpassed : inner.find? (fun id => store.declares id name) = none := by
    simpa using hinner
  unfold Store.owner?
  rw [hchain, List.find?_append, hpassed, Option.none_or, List.find?_cons, howner]

/-- Where `this` is found at some time of the run, what the two keywords stand for there is the same
at the end. -/
theorem reserved_of_owner {moments : List Moment}
    (hends : (soundness U fun _ => True).Ends moments s s')
    (hstate : state ∈ s :: statesOf moments)
    (howner : state.store.owner? scope thisName = some owner) {name : String}
    (hname : name ∈ reservedNames) :
    (s'.store.bindings owner).get? name = (state.store.bindings owner).get? name := by
  -- Stores only grow along a run, and growing keeps what the two keywords stand for.
  have hgrows : state.store.Grows s'.store := hends.later_of_state hstate
  exact hgrows.reserved (owner?_lt howner) hname

/-- At the end of the run the scopes of the constructors still hold their receivers. -/
theorem Task.RunsConstructor.sound (h : task.RunsConstructor fuel s run)
    (hends : (soundness U fun _ => True).Ends (task.trace fuel s) s s') :
    ∃ method parent, MethodCall.Sound (fun _ => True) s'.store
      ⟨run.scope, method, run.receiver, run.declaringClass, parent⟩ := by
  obtain ⟨decl, method, hopened⟩ := h.opened
  exact ⟨method, methodCall_at_end hends hopened⟩

/-- Wherever `this` is that of a constructor, it stands for the instance that the constructor runs
on. -/
theorem Task.RunsConstructor.this (h : task.RunsConstructor fuel s run)
    (hends : (soundness U fun _ => True).Ends (task.trace fuel s) s s')
    (hstate : state ∈ s :: statesOf (task.trace fuel s))
    (howner : state.store.owner? scope thisName = some run.scope) :
    state.store.lookup scope thisName = .ok (.instanceRef run.receiver) := by
  obtain ⟨method, parent, hcall⟩ := h.sound hends
  have hthis : (state.store.bindings run.scope).get? thisName = some (.instanceRef run.receiver) :=
    (reserved_of_owner hends hstate howner (.head _)).symm.trans hcall.this
  rw [Store.lookup_eq_owner, howner, Option.bind_some, hthis]

/-- The state in which a task is begun is one of the states of the run. -/
theorem mem_statesOf_visit {moments : List Moment} {fuel' : Nat} {other : Task}
    (h : .visit fuel' other state ∈ moments) : state ∈ s :: statesOf moments :=
  .tail _ (List.mem_flatMap.mpr ⟨_, h, .head _⟩)

/-- Each constructor runs on the new instance: the first one because it is looked for on its behalf,
and those above because they run on the receiver of the one that calls them. By induction along the
chain of constructors. -/
theorem receiver_of_run
    (hends : (soundness U fun _ => True).Ends
      ((Task.new ofClass arguments).trace fuel s) s s')
    (h : (Task.new ofClass arguments).RunsConstructor fuel s run) :
    run.receiver = ⟨s.store.instances.size⟩ := by
  induction h with
  | first h =>
    obtain ⟨fuel', start, values, s₁, hconstruct⟩ := h.visit
    cases fuel with
    | zero => cases hconstruct
    | succ fuel =>
      -- All that the call of a class begins is the search on behalf of its instance.
      injection visit_of_call.mp hconstruct with _ htask _
      injection htask
  | above hrun hvisit howner h ih =>
    obtain ⟨fuel', start, values, s₁, hconstruct⟩ := h.visit
    -- The receiver that `super(...)` finds is the one of the constructor before.
    rw [← ih]
    exact visit_of_superCall (hrun.this hends (mem_statesOf_visit hvisit) howner) hconstruct

/-- In a constructor `super(...)` looks for the next one from the superclass of the class that
declares it upward, and runs it on the same instance. -/
theorem Task.RunsConstructor.superCall (h : task.RunsConstructor fuel s run)
    (hends : (soundness U fun _ => True).Ends (task.trace fuel s) s s') {fuel' : Nat}
    {keyword : Token} {exprs : List Expr}
    (hvisit : .visit (fuel' + 1) (.evaluate scope (.superCall keyword exprs)) state ∈
      task.trace fuel s)
    (howner : state.store.owner? scope thisName = some run.scope) :
    ∃ parent, s'.store.superclass? run.declaringClass = some parent ∧
      Eval.evaluate (fuel' + 1) scope (.superCall keyword exprs) state =
        (do
          let values ← Eval.evaluateAll fuel' scope exprs
          Eval.construct fuel' run.receiver (some parent) values
          pure .nil : Eval Value) state := by
  have hstate : state ∈ s :: statesOf (task.trace fuel s) := mem_statesOf_visit hvisit
  have hthis := h.this hends hstate howner
  obtain ⟨hinvariant, ⟨hscope, -⟩, -⟩ := hends.covers.facts _ hvisit
  have hstore : SoundStore U (fun _ => True) state.store := hinvariant
  obtain ⟨method, parent, hcall⟩ := h.sound hends
  refine ⟨parent, hcall.superclass, ?_⟩
  -- Either no scope around holds `this`, or the nearest one that does belongs to a call.
  rcases hstore.resolve hscope with
    ⟨hnone, -⟩ | ⟨call, inner, outer, hchain, hinner, hfound, -, hsuper⟩
  · rw [hthis] at hnone
    cases hnone
  -- The scope that holds `this` is the one of the constructor, and `super` is in the same scope.
  · have hsame : call.scope = run.scope := by
      have hdeclares : state.store.declares call.scope thisName = true := by
        unfold Store.declares Table.contains
        rw [hfound.this]
        rfl
      have hfirst := owner?_of_chain hchain hinner hdeclares
      exact Option.some.inj (hfirst.symm.trans howner)
    have hparent := hfound.super
    rw [hsame, ← reserved_of_owner hends hstate howner (.tail _ (.head _)), hcall.super] at hparent
    obtain rfl : parent = call.parent := Value.classRef.inj (Option.some.inj hparent)
    exact superCall_bound hthis hsuper

end

/-! ## New instances

What is said of the instance is put together from three sources: its class does not change, because
an instance keeps its class in every run; its fields are the log of the writes in the call, because
it had none at first; and its constructors are those of the chain above. -/

/-- What the call of a class comes to that yields the instance `created`: the constructors, whatever
they do and return, have all run on this instance. -/
structure Constructed (fuel : Nat) (ofClass : ClassId) (arguments : List Value)
    (created : InstanceId) (s s' : State) : Prop where
  /-- It is an instance of the class itself, and it is new. -/
  class_eq : (s'.store.instanceOf created).ofClass = ofClass
  there : created.index < s'.store.instances.size
  fresh : ∀ id : InstanceId, id.index < s.store.instances.size → created ≠ id
  /-- If the class finds a constructor, then this has run, wherever it is declared. -/
  runs : ∀ resolution, s.store.method? ofClass constructorName = some resolution →
    ∃ run, (Task.new ofClass arguments).RunsConstructor fuel s run ∧
      run.declaringClass = resolution.declaringClass
  /-- Every constructor is one of the class or of a class above, and has run on the instance. -/
  receiver : ∀ run, (Task.new ofClass arguments).RunsConstructor fuel s run →
    run.receiver = created ∧ s'.store.isSubclass ofClass run.declaringClass = true
  /-- At no time of the call does `this` stand for anything else in it. -/
  this : ∀ run, (Task.new ofClass arguments).RunsConstructor fuel s run →
    ∀ state ∈ s :: statesOf ((Task.new ofClass arguments).trace fuel s), ∀ scope,
      state.store.owner? scope thisName = some run.scope →
      state.store.lookup scope thisName = .ok (.instanceRef created)
  /-- There `super(...)` passes the instance on to the next constructor above. -/
  super : ∀ run, (Task.new ofClass arguments).RunsConstructor fuel s run →
    ∀ fuel' scope keyword exprs state,
      .visit (fuel' + 1) (.evaluate scope (.superCall keyword exprs)) state ∈
        (Task.new ofClass arguments).trace fuel s →
      state.store.owner? scope thisName = some run.scope →
      ∃ parent, s'.store.superclass? run.declaringClass = some parent ∧
        Eval.evaluate (fuel' + 1) scope (.superCall keyword exprs) state =
          (do
            let values ← Eval.evaluateAll fuel' scope exprs
            Eval.construct fuel' created (some parent) values
            pure .nil : Eval Value) state
  /-- A property that was set in the call has the value that it was set to last. -/
  written : ∀ name value,
    lastWrite? ((Task.new ofClass arguments).writes fuel s) (.instanceRef created)
      name = some value →
    Eval.property (.instanceRef created) name s' = .ok value s'
  /-- Any other stands for the first method from the class upward, bound to the instance. -/
  unwritten : ∀ name,
    lastWrite? ((Task.new ofClass arguments).writes fuel s) (.instanceRef created)
      name = none →
    Binds created s' (s.store.method? ofClass name) (Eval.property (.instanceRef created) name s')

section

variable {U : List Occurrence} {fuel : Nat} {ofClass : ClassId} {arguments : List Value}
  {created : InstanceId} {name : String} {value : Value} {s s' : State}

/-- A class that is called yields the instance that it has made before it looks for a
constructor. -/
theorem call_eq_ok (h : Eval.call fuel (.classRef ofClass) arguments s = .ok value s') :
    value = .instanceRef ⟨s.store.instances.size⟩ ∧ ∃ fuel', fuel = fuel' + 1 ∧
      Eval.construct fuel' ⟨s.store.instances.size⟩ (some ofClass) arguments (s.created ofClass) =
        .ok () s' := by
  cases fuel with
  | zero => cases h
  | succ fuel =>
    rw [Eval.call, Eval.bind_allocate] at h
    obtain ⟨⟨⟩, s₁, hconstruct, hvalue⟩ := Eval.bind_eq_ok.mp h
    obtain ⟨rfl, rfl⟩ := EStateM.Result.ok.inj hvalue
    exact ⟨rfl, fuel, rfl, hconstruct⟩

/-- The new instance is one of the store. -/
theorem created_lt (s : State) (ofClass : ClassId) :
    s.store.instances.size < (s.created ofClass).store.instances.size := by
  show _ < (s.store.instances.push _).size
  simp

/-- It is of the class that was called, and has no field. -/
theorem created_instance (s : State) (ofClass : ClassId) :
    (s.created ofClass).store.instanceOf ⟨s.store.instances.size⟩ = ⟨ofClass, .empty⟩ :=
  Arena.get_push_size _ _

/-- The new instance keeps its class, since no run changes the class of an instance. -/
theorem class_of_new (h : Eval.call fuel (.classRef ofClass) arguments s = .ok value s') :
    (s'.store.instanceOf ⟨s.store.instances.size⟩).ofClass = ofClass := by
  obtain ⟨-, fuel', rfl, hconstruct⟩ := call_eq_ok h
  let construct : Task := .construct ⟨s.store.instances.size⟩ (some ofClass) arguments
  have hrun : construct.run fuel' (s.created ofClass) = .ok () s' := hconstruct
  -- Runs keep instances of older stores, and the class of an instance with them.
  have hpersists := run_persists fuel' construct (s.created ofClass)
  rw [hrun] at hpersists
  have hkept := (hpersists.instances.related _ (created_lt s ofClass)).ofClass
  exact hkept.trans (congrArg Instance.ofClass (created_instance s ofClass))

/-- The fields of the new instance are what was set in the call. -/
theorem fields_of_new (h : Eval.call fuel (.classRef ofClass) arguments s = .ok value s')
    (name : String) :
    (s'.store.instanceOf ⟨s.store.instances.size⟩).fields.get? name =
      lastWrite? ((Task.new ofClass arguments).writes fuel s)
        (.instanceRef ⟨s.store.instances.size⟩) name := by
  obtain ⟨-, fuel', rfl, hconstruct⟩ := call_eq_ok h
  let construct : Task := .construct ⟨s.store.instances.size⟩ (some ofClass) arguments
  have hrun : construct.run fuel' (s.created ofClass) = .ok () s' := hconstruct
  -- Only the constructors set anything.
  have hwrites : (Task.new ofClass arguments).writes (fuel' + 1) s =
      construct.writes fuel' (s.created ofClass) := by
    rw [Task.writes]
    show Plan.writes _ _ (.sub construct fun _ => .done (Value.instanceRef _))
      (s.created ofClass) ++ [] = _
    rw [Plan.writes_ok hrun, List.append_nil]
    exact List.append_nil _
  have hreflects : Reflects (construct.writes fuel' (s.created ofClass))
      ⟨s.store.instances.size⟩ (s.created ofClass).store
      (finalState (construct.run fuel' (s.created ofClass))).store :=
    construct.reflects fuel' (s.created ofClass) (created_lt s ofClass)
  rw [hwrites]
  -- The log decides, and before the call the instance had no field.
  have hfield := hreflects name
  rw [hrun, created_instance, Table.get?_empty, Option.or_none] at hfield
  exact hfield

/-- The first constructor that the class finds is run. -/
theorem runs_of_new (h : Eval.call fuel (.classRef ofClass) arguments s = .ok value s')
    {resolution : MethodResolution}
    (hfound : s.store.method? ofClass constructorName = some resolution) :
    ∃ run, (Task.new ofClass arguments).RunsConstructor fuel s run ∧
      run.declaringClass = resolution.declaringClass := by
  obtain ⟨-, fuel', rfl, hconstruct⟩ := call_eq_ok h
  have hvisit := visit_of_call.mpr (Eq.refl (Moment.visit fuel'
    (.construct ⟨s.store.instances.size⟩ (some ofClass) arguments) (s.created ofClass)))
  cases fuel' with
  | zero => cases hconstruct
  | succ fuel =>
    have hfound' : ((some ofClass).bind fun start =>
        (s.created ofClass).store.method? start constructorName) = some resolution := hfound
    -- The call of the constructor is in the trace, and its invocation has ended well.
    obtain ⟨hinvoke, result, s₁, hrun⟩ := visit_of_constructed hfound' hconstruct
    cases fuel with
    | zero => cases hrun
    | succ fuel =>
      rw [Eval.invoke, Eval.bind_read] at hrun
      obtain ⟨body, s₂, henter, -⟩ := Eval.bind_eq_ok.mp hrun
      have hopened := @opened_of_enter fuel _ _ _ _ _ _ henter
      exact ⟨⟨_, _, _⟩, .first ⟨_, _, _, _, _, _, _, _, _, hvisit, hinvoke, hopened⟩, rfl⟩

/-- Whatever the constructors of a class do, calling the class yields a new instance of this class,
on which all of them have run. They may store the instance elsewhere, set its properties or read
them: its fields are what the log of the run tells. -/
theorem constructed_of_call {session : List Stmt} (h : ∀ stmt ∈ session, Accepted stmt)
    {fuel fuel' : Nat} {output : Sink} {clock : Clock} {ofClass : ClassId} {arguments : List Value}
    {value : Value} {s s' : State}
    (hstate : s ∈ programStates fuel session (.initial output clock))
    (hclass : ofClass.index < s.store.classes.size)
    (harguments : ∀ argument ∈ arguments, s.store.Valid argument)
    (hcall : Eval.call fuel' (.classRef ofClass) arguments s = .ok value s') :
    ∃ created, value = .instanceRef created ∧
      Constructed fuel' ofClass arguments created s s' := by
  obtain ⟨last, hsession⟩ := session_sound h fuel output clock
  have hkept := keepsReserved_of_accepted h
  -- The session has led to a sound state, and the call keeps it sound.
  generalize session.flatMap (Stmt.occurrences []) = U at hsession hkept
  have hsound : SoundStore U (fun _ => True) s.store := soundStore_of_state hsession hstate
  have hpre : (soundness U fun _ => True).pre (Task.new ofClass arguments) s :=
    ⟨⟨hclass, harguments⟩, [], List.nil_subset U⟩
  have hrun : (Task.new ofClass arguments).run fuel' s = .ok value s' := hcall
  -- The call is covered by the soundness of tasks, which says of the whole run what holds in it.
  obtain ⟨hvalid, hends⟩ := task_covers (soundness_kept hkept) hsound hpre
    fun moment (_ : moment ∈ (Task.new ofClass arguments).trace fuel' s) => trivial
  rw [hrun] at hvalid hends
  obtain ⟨rfl, fuel₁, rfl, hconstruct⟩ := call_eq_ok hcall
  have hgrows : s.store.Grows s'.store := hends.later
  have hfields := fields_of_new hcall
  have hclassEq := class_of_new hcall
  refine ⟨_, rfl, ?_⟩
  constructor
  case class_eq => exact hclassEq
  case there => exact hvalid
  case fresh =>
    rintro id hid rfl
    exact Nat.lt_irrefl _ hid
  case runs => exact fun resolution hfound => runs_of_new hcall hfound
  case receiver =>
    intro run hrun
    have hreceiver := receiver_of_run hends hrun
    obtain ⟨method, parent, hsound⟩ := hrun.sound hends
    have hinherits : run.declaringClass ∈
        s'.store.lineage (s'.store.instanceOf run.receiver).ofClass := hsound.dispatches.inherits
    -- A constructor is declared by the class of its receiver or above, and the receiver is new.
    rw [hreceiver, hclassEq] at hinherits
    exact ⟨hreceiver, decide_eq_true hinherits⟩
  case this =>
    intro run hrun state hstate scope howner
    rw [← receiver_of_run hends hrun]
    exact hrun.this hends hstate howner
  case super =>
    intro run hrun fuel' scope keyword exprs state hvisit howner
    rw [← receiver_of_run hends hrun]
    exact hrun.superCall hends hvisit howner
  case written =>
    intro name value hwrite
    have hfield : (s'.store.fieldsOf (.instanceRef ⟨s.store.instances.size⟩)).get? name =
        some value := (hfields name).trans hwrite
    rw [Eval.property_run, Store.property_of_field hfield]
  case unwritten =>
    intro name hnone
    have hfield : (s'.store.fieldsOf (.instanceRef ⟨s.store.instances.size⟩)).get? name = none :=
      (hfields name).trans hnone
    -- Without a field the methods of the class count, and these are what they were before the call.
    rw [Eval.property_run, Store.property_of_no_field hfield, Store.inherited, hclassEq,
      hgrows.method? hsound.consistent hclass]
    cases s.store.method? ofClass name with
    | none => rfl
    | some resolution => exact ⟨_, _, rfl, Arena.get_push_size _ _⟩

end

/-- A constructor that passes its instance on, sets properties of it and returns something else, and
that a class below inherits from a class that calls it. -/
def leakingSource : String :=
  "var leaked = nil;
   class A { fun constructor(x) { this.x = x; leaked = this; return A; } fun m() {} }
   class B < A { fun constructor(x) { super(x); leaked.x = this.m; leaked.y = B; } }
   class C < B {}"

/-- The state after a program that is run on its own, with a clock that stands still. -/
def stateAfter (program : List Stmt) : State :=
  finalState
    (Eval.runEach 60 Store.globalScope program (.initial .unlimited ⟨fun _ => ⟨0⟩⟩))

/-- After the program its third class is there and takes one argument. -/
def callsThird (program : List Stmt) : Bool :=
  decide (3 < (stateAfter program).store.classes.size) &&
    match Eval.call 60 (.classRef ⟨3⟩) [.string "a"] (stateAfter program) with
    | .ok _ _ => true
    | .error _ _ => false

theorem constructed_leaking : ∃ program value s' created,
    readProgram leakingSource = .ok program ∧
      stateAfter program ∈ programStates 60 program (.initial .unlimited ⟨fun _ => ⟨0⟩⟩) ∧
      Eval.call 60 (.classRef ⟨3⟩) [.string "a"] (stateAfter program) = .ok value s' ∧
      value = .instanceRef created ∧
      Constructed 60 ⟨3⟩ [.string "a"] created (stateAfter program) s' := by
  obtain ⟨program, hread, hcalls⟩ :=
    @exists_read leakingSource (fun program => callsThird program = true) _ (by decide +kernel)
  have haccepted : ∀ stmt ∈ program, Accepted stmt := fun stmt hstmt =>
    ⟨leakingSource, program, hread, hstmt⟩
  have hstate : stateAfter program ∈
      programStates 60 program (.initial .unlimited ⟨fun _ => ⟨0⟩⟩) :=
    final_mem_programStates 60 program _
  have hargument : ∀ argument ∈ [Value.string "a"],
      (stateAfter program).store.Valid argument := by
    intro argument hargument
    rw [List.mem_singleton.mp hargument]
    trivial
  obtain ⟨hclass, hcall⟩ := Bool.and_eq_true_iff.mp hcalls
  cases hrun : Eval.call 60 (.classRef ⟨3⟩) [.string "a"] (stateAfter program) with
  | error interrupt s' =>
    rw [hrun] at hcall
    cases hcall
  | ok value s' =>
    obtain ⟨created, hvalue, hconstructed⟩ :=
      constructed_of_call haccepted hstate (of_decide_eq_true hclass) hargument hrun
    exact ⟨program, value, s', created, hread, hstate, hrun, hvalue, hconstructed⟩

end Script
