import Script.Proofs.Run.Hierarchies
import Script.Proofs.Store.Writes

/-!
# The properties that a run sets

Properties are set by expressions that say so, and by nothing else. What a run sets, in the order of
time, is its log (`Task.writes`), which holds what the tasks that begin in the run set themselves
(`Task.mem_writes_iff`). Whatever else happens in the run, an instance has under each name what was
set there last, and what it had before where nothing was (`Task.reflects`).

A part of a run that sets nothing leaves the fields of the instances as they are, and logs are put
together like runs. So the log of a plan follows the plan, and only the task that sets a property
adds something of its own.
-/

namespace Script

/-! ## Logs -/

/-- A property that has been set of a value. -/
structure PropertyWrite where
  object : Value
  name : String
  value : Value
deriving DecidableEq, Repr

/-- The value that was set last under this name of the object. -/
def lastWrite? (writes : List PropertyWrite) (object : Value) (name : String) : Option Value :=
  writes.reverse.findSome? fun write =>
    if write.object = object ∧ write.name = name then some write.value else none

/-- What is set later counts first: the second log is asked, and the first one only if it has no
answer. -/
theorem lastWrite?_append (first second : List PropertyWrite) (object : Value) (name : String) :
    lastWrite? (first ++ second) object name =
      (lastWrite? second object name).or (lastWrite? first object name) := by
  unfold lastWrite?
  rw [List.reverse_append, List.findSome?_append]

/-- What is set while a plan is carried out; `sub` tells it of the tasks that are called. -/
def Plan.writes {α : Type} (run : (task : Task) → Eval task.Result)
    (sub : Task → State → List PropertyWrite) : Plan α → State → List PropertyWrite
  | .done _, _ => []
  | .step _ action next, s =>
    match action s with
    | .ok b s' => (next b).writes run sub s'
    | .error _ _ => []
  | .sub task next, s =>
    sub task s ++
      match run task s with
      | .ok b s' => (next b).writes run sub s'
      | .error _ _ => []

section

variable {α : Type} {run : (task : Task) → Eval task.Result}
  {sub : Task → State → List PropertyWrite} {task : Task} {next : task.Result → Plan α}
  {s s' : State}

/-- A task that succeeds is followed by the rest of the plan. -/
theorem Plan.writes_ok {b : task.Result} (h : run task s = .ok b s') :
    (Plan.sub task next).writes run sub s = sub task s ++ (next b).writes run sub s' := by
  rw [Plan.writes, h]

/-- A task that fails is the last one to set anything. -/
theorem Plan.writes_error {interrupt : Interrupt} (h : run task s = .error interrupt s') :
    (Plan.sub task next).writes run sub s = sub task s := by
  rw [Plan.writes, h, List.append_nil]

end

namespace Task

/-- What the task sets itself: once the object and the value are there, the property is set, if the
object is one that takes properties. -/
def ownWrites (fuel : Nat) : Task → State → List PropertyWrite
  | .evaluate scope (.set object name value), s =>
    match Eval.evaluate fuel scope object s with
    | .ok target s₁ =>
      match Eval.evaluate fuel scope value s₁ with
      | .ok result _ => if target.takesFields then [⟨target, name.lexeme, result⟩] else []
      | .error _ _ => []
    | .error _ _ => []
  | _, _ => []

/-- The properties that are set in the run of a task, in the order of time. -/
def writes : Nat → Task → State → List PropertyWrite
  | 0, _, _ => []
  | fuel + 1, task, s =>
    task.body.writes (fun task => task.run fuel) (fun task => task.writes fuel) s ++
      task.ownWrites fuel s

end Task

/-- What a task that begins at this moment sets itself. -/
def Moment.writes : Moment → List PropertyWrite
  | .visit (fuel + 1) task s => task.ownWrites fuel s
  | .visit 0 _ _ | .step _ _ _ => []

section

variable {α : Type} {run : (task : Task) → Eval task.Result}
  {sub : Task → State → List PropertyWrite} {moments : Task → State → List Moment}
  {write : PropertyWrite}

/-- A plan sets what the tasks set that it calls. -/
theorem Plan.mem_writes_iff
    (hsub : ∀ task s, write ∈ sub task s ↔ ∃ moment ∈ moments task s, write ∈ moment.writes)
    (plan : Plan α) (s : State) :
    write ∈ plan.writes run sub s ↔
      ∃ moment ∈ plan.trace run moments s, write ∈ moment.writes := by
  induction plan generalizing s with
  | done a => simp [writes, trace]
  | step event action next ih =>
    rw [writes, trace]
    cases action s <;> simp [ih, Moment.writes]
  | sub task next ih =>
    rw [writes, trace]
    cases run task s <;> simp [ih, hsub, or_and_right, exists_or]

/-- What is set in the run is what the tasks that begin in it set themselves. -/
theorem Task.mem_writes_iff (fuel : Nat) (task : Task) (s : State) :
    write ∈ task.writes fuel s ↔ ∃ moment ∈ task.trace fuel s, write ∈ moment.writes := by
  induction fuel generalizing task s with
  | zero => simp [writes, trace, Moment.writes]
  | succ fuel ih =>
    rw [writes, trace, List.mem_append, Plan.mem_writes_iff ih, List.exists_mem_cons_iff,
      Moment.writes, or_comm]

end

/-! ## Fields

A log reflects the change from one store to another when it tells the fields of the instance in the
second store from those in the first. -/

/-- The instance has in the second store what was set last, and what it has in the first store where
nothing was set. -/
def Reflects (writes : List PropertyWrite) (id : InstanceId) (a b : Store) : Prop :=
  ∀ name, (b.instanceOf id).fields.get? name =
    (lastWrite? writes (.instanceRef id) name).or ((a.instanceOf id).fields.get? name)

section

variable {first second : List PropertyWrite} {id : InstanceId} {a b c : Store}

/-- An empty log reflects a change that leaves the fields of the instance as they were. -/
theorem reflects_of_same (h : (b.instanceOf id).fields = (a.instanceOf id).fields) :
    Reflects [] id a b := fun name => by
  rw [h]
  rfl

/-- Two changes in a row have the two logs in a row. -/
theorem Reflects.trans (hab : Reflects first id a b) (hbc : Reflects second id b c) :
    Reflects (first ++ second) id a c := fun name => by
  rw [hbc, hab, lastWrite?_append, Option.or_assoc]

/-- An instance reflects each write to a property. -/
theorem reflects_write {object value : Value} {name : String} (hid : id.index < a.instances.size)
    (h : a.setProperty object name value = .ok b) : Reflects [⟨object, name, value⟩] id a b := by
  intro other
  by_cases hobject : object = .instanceRef id
  · subst hobject
    have hwrite : a.Write (.instanceRef id) name value b := ⟨hid, h⟩
    have hfields : (b.instanceOf id).fields = (a.instanceOf id).fields.set name value := by
      have hfields := hwrite.fieldsOf (.instanceRef id)
      rwa [if_pos rfl] at hfields
    rw [hfields]
    by_cases hname : name = other
    · subst hname
      simp [lastWrite?]
    · simp [lastWrite?, hname, Table.get?_set_of_ne _ _ (Ne.symm hname)]
  -- Whatever else is written to, the instance keeps its fields.
  · have hsame : (b.instanceOf id).fields = (a.instanceOf id).fields := by
      cases object with
      | instanceRef target =>
        obtain rfl := Except.ok.inj h
        have hne : target.index ≠ id.index := by
          intro hindex
          apply hobject
          cases target
          cases id
          exact congrArg (Value.instanceRef ⟨·⟩) hindex
        exact congrArg Instance.fields (Arena.get_modify_of_ne _ _ hne)
      | classRef =>
        obtain rfl := Except.ok.inj h
        rfl
      | function ref =>
        obtain rfl := Except.ok.inj h
        cases ref <;> rfl
      | _ => cases h
    rw [hsame]
    simp [lastWrite?, hobject]

end

/-- Creating functions leaves the instances alone. -/
theorem Store.newFunctions_instances (closure : ScopeId) (decls : List FunctionDecl)
    (store : Store) : (store.newFunctions closure decls).2.instances = store.instances := by
  induction decls generalizing store with
  | nil => rfl
  | cons decl rest ih => exact ih (store.newFunction decl closure).2

/-! ## Runs

For one kind of task only, the expressions that set a property, does the task itself make an entry.
All other entries are made by the tasks that it calls. -/

section

variable {α : Type} {task : Task} {fuel : Nat} {id : InstanceId} {s s' : State}

/-- Only expressions that set a property change the fields of instances. -/
theorem Task.Changes.reflects (h : task.Changes s s') (hset : ¬ task.SetsProperty)
    (hid : id.index < s.store.instances.size) : Reflects [] id s.store s'.store := by
  apply reflects_of_same
  cases h with
  | setProperty htask => exact absurd htask hset
  | newFunctions closure =>
    unfold Store.instanceOf
    rw [Store.newFunctions_instances]
  | newInstance ofClass => exact congrArg Instance.fields (Arena.get_push_of_lt _ _ hid)
  | write text => rw [Contract.write_store]
  | _ => rfl

/-- Instances stay: no run has fewer of them at its end than at its start. -/
theorem size_le_run (fuel : Nat) (task : Task) (s : State) :
    s.store.instances.size ≤ (finalState (task.run fuel s)).store.instances.size :=
  (run_persists fuel task s).instances.size

/-- The run of each task with this fuel has in its log what it sets of the instance. -/
def LogsRuns (fuel : Nat) (id : InstanceId) : Prop :=
  ∀ (task : Task) (s : State), id.index < s.store.instances.size →
    Reflects (task.writes fuel s) id s.store (finalState (task.run fuel s)).store

/-- A plan that sets nothing itself sets what the tasks set that it calls. -/
theorem Plan.reflects {T : Task → Prop} {plan : Plan α}
    (hplan : plan.MadeOf (fun _ => True) task.Acts T) (hset : ¬ task.SetsProperty)
    (hruns : LogsRuns fuel id) (hid : id.index < s.store.instances.size) :
    Reflects (plan.writes (fun task => task.run fuel) (fun task => task.writes fuel) s) id s.store
      (finalState (plan.eval (fun task => task.run fuel) s)).store := by
  induction plan generalizing s with
  | done a => exact reflects_of_same rfl
  | step event action next ih =>
    obtain ⟨hacts, hnext⟩ := hplan
    have hchanges := hacts.changes s
    have haction := hchanges.reflects hset hid
    have hsize : s.store.instances.size ≤ (finalState (action s)).store.instances.size :=
      (stable_persists.changes hchanges).instances.size
    -- The action has nothing in the log, so the log of the plan is that of what comes after it.
    show Reflects _ id s.store (finalState (EStateM.bind action _ s)).store
    unfold EStateM.bind Plan.writes
    cases hrun : action s with
    | error interrupt s' =>
      rw [hrun] at haction
      exact haction
    | ok b s' =>
      rw [hrun] at haction hsize
      exact haction.trans (ih b (hnext s b s' trivial hrun) (Nat.lt_of_lt_of_le hid hsize))
  | sub other next ih =>
    have hother := hruns other s hid
    have hsize := size_le_run fuel other s
    show Reflects _ id s.store (finalState (EStateM.bind (other.run fuel) _ s)).store
    unfold EStateM.bind Plan.writes
    cases hrun : other.run fuel s with
    | error interrupt s' =>
      rw [hrun] at hother
      rw [List.append_nil]
      exact hother
    | ok b s' =>
      rw [hrun] at hother hsize
      exact hother.trans (ih b (hplan.2 b) (Nat.lt_of_lt_of_le hid hsize))

/-- Setting a property of a value that takes none changes nothing. -/
theorem setting_reflects (target result : Value) (name : String)
    (hid : id.index < s.store.instances.size) :
    Reflects (if target.takesFields then [⟨target, name, result⟩] else []) id s.store
      (finalState ((do
        Eval.setProperty target name result
        pure result : Eval Value) s)).store := by
  rcases s.store.setProperty_cases target name result with ⟨htakes, store, hset⟩ | ⟨hnot, hset⟩
  · have hupdate : Eval.setProperty target name result s = .ok () { s with store := store } :=
      Eval.update_of_ok hset
    rw [Eval.bind_of_ok hupdate, if_pos htakes]
    exact reflects_write hid hset
  · have hupdate : Eval.setProperty target name result s =
        .error (.error (.immutableTarget target.type)) s := Eval.update_of_error hset
    rw [Eval.bind_of_error hupdate, hnot]
    exact reflects_of_same rfl

/-- Where the object has been evaluated, what the value sets comes before the property. -/
theorem value_reflects {scope : ScopeId} (value : Expr) (target : Value) (name : String)
    (hruns : LogsRuns fuel id) (hid : id.index < s.store.instances.size) :
    Reflects
      (Plan.writes (fun task => task.run fuel) (fun task => task.writes fuel)
          (.sub (.evaluate scope value) fun result =>
            .step .acts (Eval.setProperty target name result) fun _ => .done result) s ++
        match Eval.evaluate fuel scope value s with
        | .ok result _ => if target.takesFields then [⟨target, name, result⟩] else []
        | .error _ _ => []) id s.store
      (finalState ((do
        let result ← Eval.evaluate fuel scope value
        Eval.setProperty target name result
        pure result : Eval Value) s)).store := by
  have hvalue := hruns (.evaluate scope value) s hid
  have hsize := size_le_run fuel (.evaluate scope value) s
  cases hrun : (Task.evaluate scope value).run fuel s with
  | error interrupt s₁ =>
    have hevaluate : Eval.evaluate fuel scope value s = .error interrupt s₁ := hrun
    rw [hrun] at hvalue
    rw [Plan.writes_error hrun, hevaluate, Eval.bind_of_error hevaluate, List.append_nil]
    exact hvalue
  | ok result s₁ =>
    have hevaluate : Eval.evaluate fuel scope value s = .ok result s₁ := hrun
    rw [hrun] at hvalue hsize
    have hlast : (Plan.step .acts (Eval.setProperty target name result) fun _ =>
        Plan.done result).writes (fun task => task.run fuel) (fun task => task.writes fuel) s₁ =
          [] := by
      unfold Plan.writes
      split <;> rfl
    rw [Plan.writes_ok hrun, hevaluate, Eval.bind_of_ok hevaluate, hlast, List.append_nil]
    exact hvalue.trans (setting_reflects target result name (Nat.lt_of_lt_of_le hid hsize))

/-- An expression that sets a property sets what its parts set, and then the property. -/
theorem set_reflects {scope : ScopeId} {object value : Expr} {name : Token}
    (hruns : LogsRuns fuel id) (hid : id.index < s.store.instances.size) :
    Reflects ((Task.evaluate scope (.set object name value)).writes (fuel + 1) s) id s.store
      (finalState ((Task.evaluate scope (.set object name value)).run (fuel + 1) s)).store := by
  rw [Task.writes, Task.ownWrites]
  show Reflects (Plan.writes _ _ (.sub (.evaluate scope object) fun target =>
    .sub (.evaluate scope value) fun result =>
      .step .acts (Eval.setProperty target name.lexeme result) fun _ => .done result) s ++ _) id
    s.store (finalState (Eval.evaluate (fuel + 1) scope _ s)).store
  have hobject := hruns (.evaluate scope object) s hid
  have hsize := size_le_run fuel (.evaluate scope object) s
  rw [Eval.evaluate]
  cases hrun : (Task.evaluate scope object).run fuel s with
  | error interrupt s₁ =>
    have hevaluate : Eval.evaluate fuel scope object s = .error interrupt s₁ := hrun
    rw [hrun] at hobject
    rw [Plan.writes_error hrun, hevaluate, Eval.bind_of_error hevaluate, List.append_nil]
    exact hobject
  | ok target s₁ =>
    have hevaluate : Eval.evaluate fuel scope object s = .ok target s₁ := hrun
    rw [hrun] at hobject hsize
    rw [Plan.writes_ok hrun, hevaluate, Eval.bind_of_ok hevaluate, List.append_assoc]
    exact hobject.trans
      (value_reflects value target name.lexeme hruns (Nat.lt_of_lt_of_le hid hsize))

/-- After every run, however it ends, an instance that was there when it began has under each name
what was set there last, and what it had before where nothing was set. -/
theorem Task.reflects (fuel : Nat) (task : Task) (s : State)
    (hid : id.index < s.store.instances.size) :
    Reflects (task.writes fuel s) id s.store (finalState (task.run fuel s)).store := by
  induction fuel generalizing task s with
  | zero =>
    rw [Task.run_zero]
    exact reflects_of_same rfl
  | succ fuel ih =>
    by_cases hset : task.SetsProperty
    -- Only here does the task itself add to the log.
    · obtain ⟨scope, object, name, value, rfl⟩ : ∃ scope object name value,
          task = .evaluate scope (.set object name value) := by
        unfold Task.SetsProperty at hset
        split at hset
        · exact ⟨_, _, _, _, rfl⟩
        · cases hset
      exact set_reflects ih hid
    · have hown : task.ownWrites fuel s = [] := by
        unfold Task.ownWrites
        split
        · exact absurd trivial hset
        · rfl
      rw [Task.writes, hown, List.append_nil, Task.run_succ]
      exact Plan.reflects (Task.madeOf _ task) hset ih hid

end

end Script
