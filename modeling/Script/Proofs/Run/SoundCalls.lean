import Script.Proofs.Run.Soundness

/-!
# Sound calls

A call opens a scope for the parameters that holds the receiver and the superclass if a method is
called on an instance. No other scope is ever given one of the two: no program can declare them.
-/

namespace Script

open Contract Plan

variable {U : List Occurrence} {Occurs : Moment → Prop} {store : Store} {fuel : Nat} {s : State}
  {context : Context}

/-! ## Calls

What is called is valid, so there is a function, a bound method with its receiver, or a class. From
there the call goes on with things of the store. -/

/-- A native function leaves the store alone, and comes to a text or a number. -/
theorem native_sound {function : Native} {arguments : List Value}
    (h : SoundStore U Occurs s.store) :
    (soundness U Occurs).Meets Occurs fuel (act (Eval.native function arguments)) s
      ValidValue := by
  have hstore := native_store function arguments s
  refine meets_act ?_ ?_ trivial ?_
  · show SoundStore U Occurs _
    rwa [hstore]
  · show Store.Grows _ _
    rw [hstore]
    exact Store.Grows.refl _
  · unfold Eval.native
    split <;> trivial

/-- A call of any value. What is not callable fails at once. -/
theorem call_sound {callee : Value} {arguments : List Value} (h : SoundStore U Occurs s.store)
    (hcallee : s.store.Valid callee) (harguments : ∀ value ∈ arguments, s.store.Valid value) :
    (soundness U Occurs).Meets Occurs fuel (Task.callBody arguments callee) s
      ValidValue := by
  have hnothing : [] ⊆ U := List.nil_subset U
  cases callee with
  | function ref =>
    refine meets_bind (meets_read h trivial ?_)
    refine meets_bind (meets_checkArity h trivial (fun _ => ?_) trivial)
    cases ref with
    | native function => exact native_sound h
    | user id =>
      have hbinding : ∀ b ∈ (none : Option (InstanceId × ClassId)),
          s.store.Dispatches id b.1 b.2 := fun _ hb => nomatch hb
      exact meets_perform ⟨⟨hcallee, hbinding, harguments⟩, [], hnothing⟩ fun _ _ hvalue => hvalue
    | bound id =>
      -- A bound method remembers a receiver that it may be called on.
      have hdispatches := (h.consistent.boundMethods id.index hcallee).dispatches
      have hmethod := h.consistent.method_lt (hdispatches.declaringClass_lt h.consistent)
        hdispatches.declares
      refine meets_bind (meets_read h trivial ?_)
      refine meets_perform ⟨⟨hmethod, ?_, harguments⟩, [], hnothing⟩ fun _ _ hvalue => hvalue
      intro b hb
      obtain rfl := Option.some.inj hb
      exact hdispatches
  | classRef id =>
    have hgrows := Store.grows_newInstance s.store id
    have hsize := Arena.size_push s.store.instances ⟨id, .empty⟩
    have hnew : (s.store.newInstance id).2.instanceOf ⟨s.store.instances.size⟩ = ⟨id, .empty⟩ :=
      Arena.get_push_size ..
    refine meets_bind (meets_allocate (h.change hgrows (h.consistent.newInstance hcallee) rfl)
      hgrows trivial ?_)
    have hcreated : s.store.instances.size < (s.store.newInstance id).2.instances.size :=
      Nat.lt_of_lt_of_eq (Nat.lt_succ_self _) hsize.symm
    -- The search for a constructor begins in the class of the new instance.
    have hstart : id ∈ (s.store.newInstance id).2.lineage
        ((s.store.newInstance id).2.instanceOf ⟨s.store.instances.size⟩).ofClass := by
      rw [hnew]
      exact .head _
    have hvalues := fun value hvalue => Store.Valid.mono hgrows (harguments value hvalue)
    refine meets_perform_bind ⟨⟨hcreated, ⟨id, rfl, hstart⟩, hvalues⟩, [], hnothing⟩
      (fun _ _ _ _ _ _ => trivial) ?_
    intro _ s₁ _ _ hgrows₁ _
    exact Nat.lt_of_lt_of_le hcreated hgrows₁.instances.size
  | _ => exact meets_fail h trivial trivial

/-- The first constructor from a class upward is called on the new instance, if there is one. -/
theorem construct_sound {id : InstanceId} {start : Option ClassId} {arguments : List Value}
    (h : SoundStore U Occurs s.store) (hid : id.index < s.store.instances.size)
    (hstart : ∃ first, start = some first ∧
      first ∈ s.store.lineage (s.store.instanceOf id).ofClass)
    (harguments : ∀ value ∈ arguments, s.store.Valid value) :
    (soundness U Occurs).Meets Occurs fuel (Task.constructBody id start arguments) s
      (Yields fun _ _ => True) := by
  refine meets_bind (meets_read h trivial ?_)
  dsimp only [andThen]
  split
  · exact meets_checkArity h trivial (fun _ => trivial) trivial
  · next resolution hfound =>
    obtain ⟨first, rfl, hfirst⟩ := hstart
    -- The search has started in an ancestor of the class of the instance, so what it finds is a
    -- method that the instance may receive.
    have hdispatches := h.consistent.dispatches_of_method? hid hfirst hfound
    have hlt := h.consistent.method_lt (hdispatches.declaringClass_lt h.consistent)
      hdispatches.declares
    refine meets_bind (meets_read h trivial ?_)
    refine meets_bind (meets_checkArity h trivial (fun _ => ?_) trivial)
    refine meets_perform_bind ⟨⟨hlt, ?_, harguments⟩, [], List.nil_subset U⟩
      (fun _ _ _ _ _ _ => trivial) (fun _ _ _ _ _ _ => trivial)
    intro b hb
    obtain rfl := Option.some.inj hb
    exact hdispatches

/-! ## Entering a function

Two scopes are opened. The outer one gets the parameters, with the receiver and the superclass
before them if there are any; the inner one is for the body. -/

/-- No parameter of a function of the program is spelled like one of the keywords. -/
theorem KnownIn.parameters {decl : FunctionDecl} (h : KnownIn U decl) (hU : KeepsReserved U)
    {name : String} (hname : name ∈ reservedNames) : name ∉ decl.params.map Token.lexeme := by
  obtain ⟨context, isMethod, hsubset⟩ := h
  intro hmem
  obtain ⟨param, hparam, rfl⟩ := List.mem_map.mp hmem
  obtain ⟨_, params, _⟩ := decl
  rw [FunctionDecl.occurrences] at hsubset
  have hoccurrence : ⟨.declared, param, context⟩ ∈ context.placeDeclared params :=
    Context.mem_place (List.mem_map_of_mem hparam)
  exact hU _ (hsubset (List.mem_append_left _ hoccurrence)) (by intro h; cases h) hname

/-- The names of the body are names of the program. -/
theorem KnownIn.body {decl : FunctionDecl} (h : KnownIn U decl) :
    ∃ context, Stmt.occurrencesOfAll context decl.body ⊆ U := by
  obtain ⟨context, isMethod, hsubset⟩ := h
  obtain ⟨name, params, body⟩ := decl
  rw [FunctionDecl.occurrences] at hsubset
  exact ⟨_, (List.append_subset.mp hsubset).2⟩

/-- For a method that is called on a receiver, `this` and `super` come first. -/
theorem callBindings_method {function : UserFunction} {receiver : InstanceId}
    {declaringClass parent : ClassId} {arguments : List Value}
    (h : store.superclass? declaringClass = some parent) :
    Eval.callBindings store function (some (receiver, declaringClass)) arguments =
      (thisName, .instanceRef receiver) :: (superName, .classRef parent) ::
        (function.decl.params.map Token.lexeme).zip arguments := by
  unfold Eval.callBindings
  dsimp only
  rw [h]
  rfl

/-- All that is bound for a call is valid. -/
theorem callBindings_valid {function : UserFunction} {binding : Option (InstanceId × ClassId)}
    {arguments : List Value} {method : FunctionId} (h : store.Consistent (KnownIn U))
    (hbinding : ∀ b ∈ binding, store.Dispatches method b.1 b.2)
    (harguments : ∀ value ∈ arguments, store.Valid value) :
    ∀ entry ∈ Eval.callBindings store function binding arguments, store.Valid entry.2 := by
  intro entry hentry
  rcases List.mem_append.mp hentry with hreceiver | hargument
  · cases binding with
    | none => cases hreceiver
    | some b =>
      have hdispatches := hbinding b rfl
      have hclass := hdispatches.declaringClass_lt h
      rcases List.mem_cons.mp hreceiver with rfl | hreceiver
      · exact hdispatches.exists_receiver
      · -- The class declares the method, so it is not the root class and has a superclass.
        obtain rfl := List.mem_singleton.mp hreceiver
        obtain ⟨parent, hparent⟩ := h.superclass_of_declares hclass hdispatches.declares
        dsimp only
        rw [hparent]
        exact Nat.lt_trans (h.superclass_lineage hclass hparent).1 hclass
  · exact harguments _ (List.of_mem_zip hargument).2

/-- The scope of the parameters is sound: it holds the receiver if a method is called on one, and
else neither `this` nor `super`. -/
theorem parameters_sound {id : FunctionId} {function : UserFunction}
    {binding : Option (InstanceId × ClassId)} {arguments : List Value} {table : Table Value}
    (h : SoundStore U Occurs s.store)
    (hreserved : ∀ name ∈ reservedNames, name ∉ function.decl.params.map Token.lexeme)
    (hbinding : ∀ b ∈ binding, s.store.Dispatches id b.1 b.2)
    (htable : Table.empty.addDistinct (Eval.callBindings s.store function binding arguments) =
      .ok table)
    (hoccurs : Occurs (.step (.opens (.parameters function.decl id binding)) s
      { s with store := (s.store.newChild function.closure table).2 })) :
    ReceiverSound Occurs (s.store.newChild function.closure table).2 ⟨s.store.scopes.size⟩ ∧
      ∀ receiver declaringClass, binding = some (receiver, declaringClass) →
        ∃ parent, MethodCall.Sound Occurs (s.store.newChild function.closure table).2
          ⟨⟨s.store.scopes.size⟩, id, receiver, declaringClass, parent⟩ := by
  have hbindings := bindings_newChild s.store function.closure table
  cases binding with
  | none =>
    refine ⟨.inl fun name hname => ?_, fun _ _ h => nomatch h⟩
    rw [hbindings, ← Table.contains_eq_false, Bool.eq_false_iff]
    -- What is in the table is the name of a parameter.
    intro hcontains
    rw [Table.contains_of_addDistinct htable] at hcontains
    obtain ⟨entry, hentry, rfl⟩ := List.mem_map.mp hcontains
    exact hreserved _ hname (List.of_mem_zip hentry).1
  | some b =>
    obtain ⟨receiver, declaringClass⟩ := b
    have hdispatches := hbinding _ rfl
    have hclass := hdispatches.declaringClass_lt h.consistent
    have hgrows : s.store.Grows (s.store.newChild function.closure table).2 :=
      Store.grows_newScope ..
    obtain ⟨parent, hparent⟩ :=
      h.consistent.superclass_of_declares hclass hdispatches.declares
    have hsound : MethodCall.Sound Occurs (s.store.newChild function.closure table).2
        ⟨⟨s.store.scopes.size⟩, id, receiver, declaringClass, parent⟩ := by
      -- The receiver and the superclass were added first, and the names in the table are distinct.
      refine ⟨⟨_, _, _, hoccurs, rfl⟩, hdispatches.mono h.consistent hgrows, ?_, ?_, ?_⟩
      · rw [hgrows.superclass? hclass, hparent]
      · rw [hbindings, Table.get?_addDistinct htable]
        rfl
      · rw [hbindings, Table.get?_addDistinct htable, callBindings_method hparent]
        rfl
    refine ⟨.inr ⟨_, rfl, hsound⟩, fun receiver' declaringClass' h => ?_⟩
    obtain ⟨rfl, rfl⟩ := Prod.mk.inj (Option.some.inj h)
    exact ⟨parent, hsound⟩

/-- A scope that is opened for anything but parameters is empty, and so sound. -/
theorem child_sound {opening : Opening} {parent : ScopeId} {Q : Outcome ScopeId → Prop}
    (h : SoundStore U Occurs s.store) (hparent : parent.index < s.store.scopes.size)
    (hopening : ∀ decl id binding, opening ≠ .parameters decl id binding)
    (hok : ∀ inner s₁, s₁ = { s with store := (s.store.newChild parent .empty).2 } →
      inner = ⟨s.store.scopes.size⟩ → SoundStore U Occurs s₁.store → s.store.Grows s₁.store →
      inner.index < s₁.store.scopes.size → Q (.ok inner s₁)) :
    (soundness U Occurs).Meets Occurs fuel (child opening parent) s Q := by
  have hgrows : s.store.Grows (s.store.newChild parent .empty).2 := Store.grows_newScope ..
  have hsize : (s.store.newChild parent .empty).2.scopes.size = s.store.scopes.size + 1 :=
    Arena.size_push ..
  have hnew := h.newChild_empty hparent
  refine meets_openScope fun _ => ⟨hnew, hgrows, ⟨hsize, ?_⟩, ?_⟩
  · intro decl method receiver declaringClass heq
    exact absurd heq (hopening decl method _)
  · refine hok _ _ rfl rfl hnew hgrows ?_
    rw [hsize]
    exact Nat.lt_succ_self _

/-- Entering a function, which fails if two parameters have one name. -/
theorem enter_sound (hU : KeepsReserved U) {id : FunctionId}
    {binding : Option (InstanceId × ClassId)} {arguments : List Value} {Q : Outcome ScopeId → Prop}
    (h : SoundStore U Occurs s.store) (hid : id.index < s.store.functions.size)
    (hbinding : ∀ b ∈ binding, s.store.Dispatches id b.1 b.2)
    (harguments : ∀ value ∈ arguments, s.store.Valid value)
    (herror : ∀ interrupt s₁, Q (.error interrupt s₁))
    (hok : ∀ body s₁, SoundStore U Occurs s₁.store → s.store.Grows s₁.store →
      body.index < s₁.store.scopes.size → Q (.ok body s₁)) :
    (soundness U Occurs).Meets Occurs fuel (enter id (s.store.function id) binding arguments) s
      Q := by
  have hfunction := h.consistent.functions id.index hid
  have hclosure : (s.store.function id).closure.index < s.store.scopes.size := hfunction.closure
  have hvalues : ∀ entry ∈ Eval.callBindings s.store (s.store.function id) binding arguments,
      s.store.Valid entry.2 := callBindings_valid h.consistent hbinding harguments
  refine meets_bind (meets_read h trivial ?_)
  dsimp only [andThen]
  split
  · exact meets_fail h trivial (herror _ _)
  · next table htable =>
    have hgrows : s.store.Grows (s.store.newChild (s.store.function id).closure table).2 :=
      Store.grows_newScope ..
    have hsize : (s.store.newChild (s.store.function id).closure table).2.scopes.size =
        s.store.scopes.size + 1 := Arena.size_push ..
    refine meets_bind (meets_openScope fun hoccurs => ?_)
    -- The scope of the parameters comes first, and the one of the body is opened inside it.
    obtain ⟨hreceiver, hcall⟩ := parameters_sound h
      (fun _ hname => hfunction.known.parameters hU hname) hbinding htable hoccurs
    have hnew := h.newChild hclosure
      ((Table.holds_empty _).addDistinct hvalues htable) hreceiver
    refine ⟨hnew, hgrows, ⟨hsize, ?_⟩, ?_⟩
    · intro decl method receiver declaringClass heq
      injection heq with _ hmethod heq
      subst hmethod
      exact hcall receiver declaringClass heq
    · have hlt : (⟨s.store.scopes.size⟩ : ScopeId).index <
          (s.store.newChild (s.store.function id).closure table).2.scopes.size := by
        rw [hsize]
        exact Nat.lt_succ_self _
      refine child_sound hnew hlt (by intro _ _ _ h; cases h) ?_
      intro body s₁ _ _ h₁ hgrows₁ hbody
      exact hok body s₁ h₁ (hgrows.trans hgrows₁) hbody

/-- The body is run in the inner scope, and what it returns is the result. -/
theorem invoke_sound (hU : KeepsReserved U) {id : FunctionId}
    {binding : Option (InstanceId × ClassId)} {arguments : List Value}
    (h : SoundStore U Occurs s.store) (hid : id.index < s.store.functions.size)
    (hbinding : ∀ b ∈ binding, s.store.Dispatches id b.1 b.2)
    (harguments : ∀ value ∈ arguments, s.store.Valid value) :
    (soundness U Occurs).Meets Occurs fuel (Task.invokeBody id binding arguments) s
      ValidValue := by
  refine meets_bind (meets_read h trivial ?_)
  refine meets_bind (enter_sound hU h hid hbinding harguments (fun _ _ => trivial) ?_)
  intro body s₁ _ _ hbody
  have hwithin := (h.consistent.functions id.index hid).known.body
  refine meets_perform_bind ⟨hbody, hwithin⟩ (fun _ _ _ _ _ _ => trivial) ?_
  intro completion s₂ _ _ _ hcompletion
  cases completion with
  | normal value => trivial
  | returned value => exact hcompletion

end Script
