import Script.Proofs.Run.Actions
import Script.Proofs.Scoping.Occurrences
import Script.Proofs.Store.Changes

/-!
# Sound tasks and stores

What the runs of a program keep true (`SoundStore`): the store is consistent, and the variables
`this` and `super` are in each scope what a call of a method has made them, or not there at all.
For that no program may declare or assign a variable under one of the two names. The names of a
task are therefore traced back to the occurrences `U` of the program: a task is *within* `U` when
all its names are among them.
-/

namespace Script

/-! ## The names of a task

A task is run in a scope; for its names it does not matter in which one. A call has no names of its
own: those of the body belong to the function, which is known to the store. -/

/-- The occurrences of names in what the task runs. -/
def Task.occurrences (context : Context) : Task → List Occurrence
  | .evaluate _ expr => context.place expr.uses
  | .evaluateAll _ exprs => context.place (Expr.usesOfAll exprs)
  | .evaluateOption _ expr => context.place (clauseUses expr)
  | .execute _ stmt => stmt.occurrences context
  | .executeAll _ statements => Stmt.occurrencesOfAll context statements
  | .whileLoop _ condition body =>
    context.place condition.uses ++ body.occurrences (context.enter (.branch body))
  | .forLoop _ condition post body =>
    context.place (clauseUses condition) ++ context.place (clauseUses post) ++
      body.occurrences (context.enter (.branch body))
  | .call _ _ => []
  | .construct _ _ _ => []
  | .invoke _ _ _ => []

/-- All the names of the task are among these. -/
def Task.Within (U : List Occurrence) (task : Task) : Prop :=
  ∃ context, task.occurrences context ⊆ U

/-- All the names of the function are among these. -/
def KnownIn (U : List Occurrence) (decl : FunctionDecl) : Prop :=
  ∃ context isMethod, decl.occurrences context isMethod ⊆ U

/-- Only the keywords themselves are spelled like them. -/
def KeepsReserved (U : List Occurrence) : Prop :=
  ∀ o ∈ U, o.role ≠ .receiver → o.token.lexeme ∉ reservedNames

section

variable {U : List Occurrence} {context : Context} {uses uses' : List (Role × Token)}

/-- The names of the first part are among those of both. -/
theorem place_append_left (h : context.place (uses ++ uses') ⊆ U) : context.place uses ⊆ U := by
  unfold Context.place at h
  rw [List.map_append] at h
  exact (List.append_subset.mp h).1

/-- The names of the second part are among those of both. -/
theorem place_append_right (h : context.place (uses ++ uses') ⊆ U) : context.place uses' ⊆ U := by
  unfold Context.place at h
  rw [List.map_append] at h
  exact (List.append_subset.mp h).2

/-- The names behind the first one are among those that are allowed, if all are. -/
theorem place_cons_right {use : Role × Token} (h : context.place (use :: uses) ⊆ U) :
    context.place uses ⊆ U :=
  (List.cons_subset.mp h).2

end

/-- A name that is used occurs at the place. -/
theorem Context.mem_place {context : Context} {uses : List (Role × Token)} {role : Role}
    {token : Token} (h : (role, token) ∈ uses) : ⟨role, token, context⟩ ∈ context.place uses :=
  List.mem_map.mpr ⟨_, h, rfl⟩

/-! ## Valid tasks and results

Tasks carry references: the scope that they run in, the function that is called, its receiver and
its arguments. All of them lead somewhere, and so does what comes out. -/

/-- The task refers to things that the store holds. -/
def Task.Valid (store : Store) : Task → Prop
  | .evaluate scope _ => scope.index < store.scopes.size
  | .evaluateAll scope _ => scope.index < store.scopes.size
  | .evaluateOption scope _ => scope.index < store.scopes.size
  | .call callee arguments => store.Valid callee ∧ ∀ value ∈ arguments, store.Valid value
  | .construct id start arguments =>
    id.index < store.instances.size ∧
      (∃ first, start = some first ∧ first ∈ store.lineage (store.instanceOf id).ofClass) ∧
      ∀ value ∈ arguments, store.Valid value
  | .invoke id binding arguments =>
    id.index < store.functions.size ∧ (∀ b ∈ binding, store.Dispatches id b.1 b.2) ∧
      ∀ value ∈ arguments, store.Valid value
  | .execute scope _ => scope.index < store.scopes.size
  | .executeAll scope _ => scope.index < store.scopes.size
  | .whileLoop scope _ _ => scope.index < store.scopes.size
  | .forLoop scope _ _ _ => scope.index < store.scopes.size

/-- The value that a statement has come to, whether it goes on or returns. -/
def Completion.value : Completion → Value
  | .normal value => value
  | .returned value => value

/-- What the task yields refers to things that the store holds. -/
def Task.ValidResult (store : Store) : (task : Task) → task.Result → Prop
  | .evaluate _ _, value => store.Valid value
  | .evaluateAll _ _, values => ∀ value ∈ values, store.Valid value
  | .evaluateOption _ _, value => store.Valid value
  | .call _ _, value => store.Valid value
  | .construct _ _ _, _ => True
  | .invoke _ _ _, value => store.Valid value
  | .execute _ _, completion => store.Valid completion.value
  | .executeAll _ _, completion => store.Valid completion.value
  | .whileLoop _ _ _, completion => store.Valid completion.value
  | .forLoop _ _ _ _, completion => store.Valid completion.value

/-! ## Receivers

The variables `this` and `super` are bound in one place only, where a method is called on an
instance. So a scope that holds them can be traced back to the call that it was opened for. -/

/-- In the run the scope was opened for this. -/
def Opened (Occurs : Moment → Prop) (scope : ScopeId) (opening : Opening) : Prop :=
  ∃ before after, Occurs (.step (.opens opening) before after) ∧
    before.store.scopes.size = scope.index

/-- In a longer run it was opened for the same. -/
theorem Opened.mono {Occurs Occurs' : Moment → Prop} {scope : ScopeId} {opening : Opening}
    (hsub : ∀ moment, Occurs moment → Occurs' moment) (h : Opened Occurs scope opening) :
    Opened Occurs' scope opening := by
  obtain ⟨before, after, hmem, hsize⟩ := h
  exact ⟨before, after, hsub _ hmem, hsize⟩

/-- A call of a method on a receiver: the scope of its parameters, the class that declares the
method, and the superclass of that class. -/
structure MethodCall where
  scope : ScopeId
  method : FunctionId
  receiver : InstanceId
  declaringClass : ClassId
  parent : ClassId

/-- The call was made in the run, of a method of the class of the receiver or of an ancestor of
that class, and its scope holds the receiver and the superclass. -/
structure MethodCall.Sound (Occurs : Moment → Prop) (store : Store) (call : MethodCall) : Prop where
  opened : ∃ decl, Opened Occurs call.scope
    (.parameters decl call.method (some (call.receiver, call.declaringClass)))
  dispatches : store.Dispatches call.method call.receiver call.declaringClass
  superclass : store.superclass? call.declaringClass = some call.parent
  this : (store.bindings call.scope).get? thisName = some (.instanceRef call.receiver)
  super : (store.bindings call.scope).get? superName = some (.classRef call.parent)

/-- The scope holds neither `this` nor `super`, or it is the scope of a call of a method. -/
def ReceiverSound (Occurs : Moment → Prop) (store : Store) (id : ScopeId) : Prop :=
  (∀ name ∈ reservedNames, (store.bindings id).get? name = none) ∨
    ∃ call : MethodCall, call.scope = id ∧ call.Sound Occurs store

/-- The store is consistent, and the receivers in all scopes are sound. -/
structure SoundStore (U : List Occurrence) (Occurs : Moment → Prop) (store : Store) : Prop where
  consistent : store.Consistent (KnownIn U)
  receivers : ∀ id : ScopeId, id.index < store.scopes.size → ReceiverSound Occurs store id

section

variable {U : List Occurrence} {Occurs : Moment → Prop} {a b store : Store}

/-- The scope of a call keeps the receiver and the superclass while the store grows. -/
theorem MethodCall.Sound.mono (ha : a.Consistent (KnownIn U)) (hgrows : a.Grows b)
    {call : MethodCall} (hscope : call.scope.index < a.scopes.size) (h : call.Sound Occurs a) :
    call.Sound Occurs b where
  opened := h.opened
  dispatches := h.dispatches.mono ha hgrows
  superclass := by rw [hgrows.superclass? (h.dispatches.declaringClass_lt ha), h.superclass]
  this := (hgrows.reserved hscope (.head _)).trans h.this
  super := (hgrows.reserved hscope (.tail _ (.head _))).trans h.super

/-- A sound scope stays sound while the store grows. -/
theorem ReceiverSound.mono (ha : a.Consistent (KnownIn U)) (hgrows : a.Grows b) {id : ScopeId}
    (hid : id.index < a.scopes.size) (h : ReceiverSound Occurs a id) :
    ReceiverSound Occurs b id := by
  rcases h with h | ⟨call, rfl, h⟩
  · exact .inl fun name hname => (hgrows.reserved hid hname).trans (h name hname)
  · exact .inr ⟨call, rfl, h.mono ha hgrows hid⟩

/-- A change that opens no scope has only to keep the store consistent. -/
theorem SoundStore.change (h : SoundStore U Occurs a) (hgrows : a.Grows b)
    (hconsistent : b.Consistent (KnownIn U)) (hsize : b.scopes.size = a.scopes.size) :
    SoundStore U Occurs b where
  consistent := hconsistent
  receivers := fun id hid => by
    rw [hsize] at hid
    exact (h.receivers id hid).mono h.consistent hgrows hid

/-- A new scope needs a sound receiver of its own. -/
theorem SoundStore.newChild (h : SoundStore U Occurs store) {parent : ScopeId}
    {bindings : Table Value} (hparent : parent.index < store.scopes.size)
    (hvalues : bindings.Holds store.Valid)
    (hreceiver : ReceiverSound Occurs (store.newChild parent bindings).2 ⟨store.scopes.size⟩) :
    SoundStore U Occurs (store.newChild parent bindings).2 where
  consistent := h.consistent.newChild hparent hvalues
  receivers := fun id hid => by
    rw [show (store.newChild parent bindings).2.scopes.size = _ from Arena.size_push ..] at hid
    -- The scope was there, or it is the new one.
    by_cases hlt : id.index < store.scopes.size
    · exact (h.receivers id hlt).mono h.consistent (Store.grows_newScope ..) hlt
    · obtain ⟨i⟩ := id
      obtain rfl : i = store.scopes.size := by
        have : ¬ i < store.scopes.size := hlt
        have : i < store.scopes.size + 1 := hid
        omega
      exact hreceiver

/-- The table of a new scope is the one that it was opened with. -/
theorem bindings_newChild (store : Store) (parent : ScopeId) (bindings : Table Value) :
    (store.newChild parent bindings).2.bindings ⟨store.scopes.size⟩ = bindings := by
  show (Arena.get (Arena.push store.scopes _) store.scopes.size).bindings = bindings
  rw [Arena.get_push_size]

/-- A scope without variables holds none of the two. -/
theorem SoundStore.newChild_empty (h : SoundStore U Occurs store) {parent : ScopeId}
    (hparent : parent.index < store.scopes.size) :
    SoundStore U Occurs (store.newChild parent .empty).2 := by
  refine h.newChild hparent (Table.holds_empty _) (.inl fun name _ => ?_)
  rw [bindings_newChild]
  rfl

/-- Along a row of scopes, neither `this` nor `super` is found, or the call of a method is found
that both belong to. -/
theorem find_receiver (ids : List ScopeId) (h : ∀ id ∈ ids, ReceiverSound Occurs store id) :
    (ids.findSome? (fun id => (store.bindings id).get? thisName) = none ∧
      ids.findSome? (fun id => (store.bindings id).get? superName) = none) ∨
    ∃ (call : MethodCall) (inner outer : List ScopeId), ids = inner ++ call.scope :: outer ∧
      (∀ id ∈ inner, store.declares id thisName = false) ∧ call.Sound Occurs store ∧
      ids.findSome? (fun id => (store.bindings id).get? thisName) =
        some (.instanceRef call.receiver) ∧
      ids.findSome? (fun id => (store.bindings id).get? superName) =
        some (.classRef call.parent) := by
  induction ids with
  | nil => exact .inl ⟨rfl, rfl⟩
  | cons id rest ih =>
    -- The first scope holds both or none of the two. If it holds none, the search goes on in the
    -- others.
    rcases h id (.head _) with hnone | ⟨call, rfl, hcall⟩
    · have hthis : (store.bindings id).get? thisName = none := hnone _ (.head _)
      have hsuper : (store.bindings id).get? superName = none := hnone _ (.tail _ (.head _))
      rw [List.findSome?_cons, List.findSome?_cons, hthis, hsuper]
      have hrest := fun id hid => h id (.tail _ hid)
      rcases ih hrest with hnone | ⟨call, inner, outer, hids, hinner, hcall⟩
      · exact .inl hnone
      · refine .inr ⟨call, id :: inner, outer, by rw [hids]; rfl, ?_, hcall⟩
        intro other hother
        rcases List.mem_cons.mp hother with rfl | hother
        · unfold Store.declares
          rw [Table.contains_eq_false]
          exact hthis
        · exact hinner other hother
    · refine .inr ⟨call, [], rest, rfl, (fun _ hmem => nomatch hmem), hcall, ?_, ?_⟩
      · rw [List.findSome?_cons, hcall.this]
      · rw [List.findSome?_cons, hcall.super]

/-- In a scope either neither `this` nor `super` stands for anything, or they stand for the
receiver of a call of a method and the superclass of the class that declares the method. -/
theorem SoundStore.resolve (h : SoundStore U Occurs store) {scope : ScopeId}
    (hscope : scope.index < store.scopes.size) :
    (store.lookup scope thisName = .error (.undefinedVariable thisName) ∧
      store.lookup scope superName = .error (.undefinedVariable superName)) ∨
    ∃ (call : MethodCall) (inner outer : List ScopeId),
      store.chain scope = inner ++ call.scope :: outer ∧
      (∀ id ∈ inner, store.declares id thisName = false) ∧ call.Sound Occurs store ∧
      store.lookup scope thisName = .ok (.instanceRef call.receiver) ∧
      store.lookup scope superName = .ok (.classRef call.parent) := by
  -- Every scope of the chain is one of the store, so the invariant speaks of it.
  have hreceivers : ∀ id ∈ store.chain scope, ReceiverSound Occurs store id := fun id hid =>
    h.receivers id (Nat.lt_of_le_of_lt (h.consistent.chain_lt hscope hid) hscope)
  unfold Store.lookup
  rcases find_receiver _ hreceivers with ⟨hthis, hsuper⟩ | ⟨call, inner, outer, hchain, hinner,
    hcall, hthis, hsuper⟩
  · left
    rw [hthis, hsuper]
    exact ⟨rfl, rfl⟩
  · right
    rw [hthis, hsuper]
    exact ⟨call, inner, outer, hchain, hinner, hcall, rfl, rfl⟩

/-- The superclass of a class that a call of a method goes through is one that its receiver
inherits from. -/
theorem MethodCall.Sound.parent_inherited {call : MethodCall} (h : call.Sound Occurs store)
    (hconsistent : store.Consistent (KnownIn U)) :
    call.parent ∈ store.lineage (store.instanceOf call.receiver).ofClass := by
  have hclass := h.dispatches.declaringClass_lt hconsistent
  obtain ⟨-, hlineage⟩ := hconsistent.superclass_lineage hclass h.superclass
  refine hconsistent.lineage_trans (hconsistent.receiver_class h.dispatches.exists_receiver)
    h.dispatches.inherits ?_
  rw [hlineage]
  exact .tail _ (.head _)

end

end Script
