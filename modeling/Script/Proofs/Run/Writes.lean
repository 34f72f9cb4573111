import Script.Proofs.Run.Hierarchies
import Script.Proofs.Store.Writes

/-!
# Properties in a session

What a program reads after it has set a property of a value: under the same name of the same value
what it has set, and otherwise what it would have read before (`IsolatesWrites`). This takes only
that the value is in the store, which holds of all values that a session comes to, and holds
therefore of all properties that a session sets (`writesKept_of_accepted`).
-/

namespace Script

open Contract

/-! ## Writes and readings of the evaluator

What `Proofs/Store/Writes` says of stores, said of the actions by which a program writes and
reads. -/

section

variable {object value : Value} {name : String} {s s' : State}

/-- Setting a property of a value in the store is a write to the store. -/
theorem Eval.setProperty_ok (hvalid : s.store.Valid object)
    (h : Eval.setProperty object name value s = .ok () s') :
    ∃ store', s.store.Write object name value store' ∧ s' = { s with store := store' } := by
  obtain ⟨store', hset, rfl⟩ := Eval.update_ok h
  exact ⟨store', ⟨hvalid, hset⟩, rfl⟩

/-- Reading a property always succeeds, but may create a bound method. -/
theorem Eval.property_run (object : Value) (name : String) (s : State) :
    Eval.property object name s =
      .ok (s.store.property object name).1 { s with store := (s.store.property object name).2 } :=
  rfl

/-- In both states reading the property yields the same. A method that is bound by the reading is
a new one each time, and then the same one is bound, from the same class and to the same
receiver. -/
def ReadsSame (s s' : State) (object : Value) (name : String) : Prop :=
  ∃ value t t', Eval.property object name s = .ok value t ∧
    Eval.property object name s' = .ok value t' ∧
    ∀ id, value = .function (.bound id) → (t.store.boundMethod id).Kept (t'.store.boundMethod id)

/-- After a write all is read as before, but for what has been written. -/
theorem readsSame_of_write {store' : Store} (h : s.store.Write object name value store')
    {other : Value} {name' : String} (hother : ¬ (object = other ∧ name = name')) :
    ReadsSame s { s with store := store' } other name' := by
  obtain ⟨hvalue, hbound⟩ := h.sameReading hother
  have hafter := Eval.property_run other name' { s with store := store' }
  rw [hvalue] at hafter
  exact ⟨_, _, _, Eval.property_run other name' s, hafter, hbound⟩

/-- After a write to another value all properties of the value are read as before. -/
theorem readsSame_of_ne (hvalid : s.store.Valid object)
    (h : Eval.setProperty object name value s = .ok () s') {other : Value} (hne : object ≠ other)
    (name' : String) : ReadsSame s s' other name' := by
  obtain ⟨store', hwrite, rfl⟩ := Eval.setProperty_ok hvalid h
  exact readsSame_of_write hwrite fun hsame => hne hsame.1

end

/-! ## States

In a consistent store these hold for all values, whether or not a program holds them. -/

/-- What holds of setting properties in a state. -/
structure IsolatesWrites (s : State) : Prop where
  /-- Functions, classes and instances take properties, and nothing but fields changes. -/
  succeeds : ∀ {object name value}, object.takesFields = true →
    ∃ store', Eval.setProperty object name value s = .ok () { s with store := store' } ∧
      s.store.SameButFields store'
  /-- Other values do not, and nothing changes. -/
  immutable : ∀ {object name value}, object.takesFields = false →
    Eval.setProperty object name value s = .error (.error (.immutableTarget object.type)) s
  /-- What has been set is read under the same name of an equal value. -/
  here : ∀ {a p v s'}, s.store.Valid a → Eval.setProperty a p v s = .ok () s' →
    ∀ {b}, a.equal b = true → Eval.property b p s' = .ok v s'
  /-- All else is read as before. -/
  elsewhere : ∀ {a p v s'}, s.store.Valid a → Eval.setProperty a p v s = .ok () s' →
    ∀ {b q}, ¬ (a.equal b = true ∧ p = q) → ReadsSame s s' b q
  /-- A field of a class is not seen on instances, nor on classes above or below. -/
  classField : ∀ {id : ClassId} {p v s'}, id.index < s.store.classes.size →
    Eval.setProperty (.classRef id) p v s = .ok () s' →
      (∀ object q, ReadsSame s s' (.instanceRef object) q) ∧
      ∀ other q, other.index < s.store.classes.size →
        other ∈ (s.store.classOf id).ancestors ∨ id ∈ (s.store.classOf other).ancestors →
          ReadsSame s s' (.classRef other) q
  /-- A property of a method that was read off an instance is not seen on one that is read off
  later, nor the other way round. -/
  extractions : ∀ {first second name name' resolution resolution' a s₁ s₂ b s₃},
    s.store.Extracts first name resolution →
    Eval.property (.instanceRef first) name s = .ok a s₁ → s₁.store.Grows s₂.store →
    s₂.store.Extracts second name' resolution' →
    Eval.property (.instanceRef second) name' s₂ = .ok b s₃ →
      ∀ p v s', (Eval.setProperty a p v s₃ = .ok () s' → ∀ q, ReadsSame s₃ s' b q) ∧
        (Eval.setProperty b p v s₃ = .ok () s' → ∀ q, ReadsSame s₃ s' a q)
  /-- A method that a class inherits from one of its ancestors, or through it, is the same function
  on both. -/
  inherited : ∀ {id ancestor : ClassId} {name resolution}, id.index < s.store.classes.size →
    ancestor ∈ s.store.lineage id → s.store.method? id name = some resolution →
    resolution.declaringClass ∈ s.store.lineage ancestor →
    (s.store.classOf id).fields.get? name = none →
    (s.store.classOf ancestor).fields.get? name = none →
      Eval.property (.classRef id) name s = .ok (.function (.user resolution.method)) s ∧
      Eval.property (.classRef ancestor) name s = .ok (.function (.user resolution.method)) s

section

variable {Known : FunctionDecl → Prop} {s : State}

/-- A method is read off a class where no field hides it. -/
theorem property_of_inherited {id : ClassId} {name : String} {resolution : MethodResolution}
    (hfield : (s.store.classOf id).fields.get? name = none)
    (hfound : s.store.method? id name = some resolution) :
    Eval.property (.classRef id) name s = .ok (.function (.user resolution.method)) s := by
  have hproperty : s.store.property (.classRef id) name =
      (.function (.user resolution.method), s.store) := by
    rw [@Store.property_of_no_field s.store (.classRef id) name hfield, Store.inherited, hfound]
  rw [Eval.property_run, hproperty]

/-- In a consistent store classes come after those above them. -/
theorem ne_of_above (h : s.store.Consistent Known) {id other : ClassId}
    (hid : id.index < s.store.classes.size) (hother : other.index < s.store.classes.size)
    (habove : other ∈ (s.store.classOf id).ancestors ∨ id ∈ (s.store.classOf other).ancestors) :
    id ≠ other := by
  rintro rfl
  rcases habove with hmem | hmem
  all_goals exact Nat.lt_irrefl _ (h.ancestor_lt hid hmem)

/-- Two methods that are read off instances are two values. -/
theorem extractions_apart {first second : InstanceId} {name name' : String}
    {resolution resolution' : MethodResolution} {a b : Value} {s₁ s₂ s₃ : State}
    (hfirst : s.store.Extracts first name resolution)
    (ha : Eval.property (.instanceRef first) name s = .ok a s₁)
    (hgrows : s₁.store.Grows s₂.store) (hsecond : s₂.store.Extracts second name' resolution')
    (hb : Eval.property (.instanceRef second) name' s₂ = .ok b s₃) :
    s₃.store.Valid a ∧ s₃.store.Valid b ∧ a ≠ b := by
  rw [Eval.property_run] at ha hb
  obtain ⟨rfl, rfl⟩ := EStateM.Result.ok.inj ha
  obtain ⟨rfl, rfl⟩ := EStateM.Result.ok.inj hb
  have hgrows' := Store.grows_property s₂.store (.instanceRef second) name'
  refine ⟨?_, ?_, Store.extractions_ne hfirst hgrows hsecond⟩
  · refine Store.Valid.mono (hgrows.trans hgrows') ?_
    rw [hfirst.property]
    exact Store.valid_bindMethod resolution first
  · rw [hsecond.property]
    exact Store.valid_bindMethod resolution' second

/-- All this holds in every consistent store. Each part comes from what a write does to the fields
of one object (`fieldsOf`), and from consistency, by which references into the store are apart. -/
theorem isolatesWrites (h : s.store.Consistent Known) : IsolatesWrites s where
  succeeds := by
    intro object name value htakes
    rcases s.store.setProperty_cases object name value with ⟨-, store', hset⟩ | ⟨hnot, -⟩
    · exact ⟨store', Eval.update_of_ok hset, Store.sameButFields_setProperty hset⟩
    · rw [htakes] at hnot
      cases hnot
  immutable := by
    intro object name value hnot
    rcases s.store.setProperty_cases object name value with ⟨htakes, -⟩ | ⟨-, hset⟩
    · rw [hnot] at htakes
      cases htakes
    · exact Eval.update_of_error hset
  here := by
    intro a p v s' hvalid hset b heq
    obtain ⟨store', hwrite, rfl⟩ := Eval.setProperty_ok hvalid hset
    -- Values with fields are equal only if they are the same.
    obtain rfl := (Value.equal_iff hwrite.takesFields).mp heq
    rw [Eval.property_run]
    dsimp only
    rw [hwrite.property_self]
  elsewhere := by
    intro a p v s' hvalid hset b q hother
    obtain ⟨store', hwrite, rfl⟩ := Eval.setProperty_ok hvalid hset
    rw [Value.equal_iff hwrite.takesFields] at hother
    exact readsSame_of_write hwrite hother
  classField := by
    intro id p v s' hid hset
    have hvalid : s.store.Valid (.classRef id) := hid
    refine ⟨fun object q => readsSame_of_ne hvalid hset Value.noConfusion q, ?_⟩
    intro other q hother habove
    have hne := ne_of_above h hid hother habove
    exact readsSame_of_ne hvalid hset (fun heq => hne (Value.classRef.inj heq)) q
  extractions := by
    intro first second name name' resolution resolution' a s₁ s₂ b s₃ hfirst ha hgrows hsecond hb
    obtain ⟨hvalid, hvalid', hne⟩ := extractions_apart hfirst ha hgrows hsecond hb
    exact fun p v s' => ⟨fun hset => readsSame_of_ne hvalid hset hne,
      fun hset => readsSame_of_ne hvalid' hset hne.symm⟩
  inherited := by
    intro id ancestor name resolution hid hancestor hfound hdeclared hfield hfield'
    have hfound' := h.method?_ancestor hid hancestor hfound hdeclared
    exact ⟨property_of_inherited hfield hfound, property_of_inherited hfield' hfound'⟩

end

/-! ## Sessions

A session passes through sound stores only, and these are consistent. -/

/-- What holds of properties throughout a session. -/
structure WritesKept (fuel : Nat) (session : List Stmt) (s : State) : Prop where
  /-- In each state a write is seen where it should be, and nowhere else. -/
  isolated : ∀ state ∈ programStates fuel session s, IsolatesWrites state
  /-- What a program sets a property of is a value of the state in which it does so. -/
  sets : ∀ {fuel' scope object name value state a s₁ v s₂},
    .visit (fuel' + 1) (.evaluate scope (.set object name value)) state ∈
      programTrace fuel session s →
    Eval.evaluate fuel' scope object state = .ok a s₁ →
    Eval.evaluate fuel' scope value s₁ = .ok v s₂ →
      s₂.store.Valid a ∧ IsolatesWrites s₂ ∧
        Eval.evaluate (fuel' + 1) scope (.set object name value) state =
          (do
            Eval.setProperty a name.lexeme v
            pure v : Eval Value) s₂

section

variable {U : List Occurrence} {Occurs : Moment → Prop} {fuel : Nat} {scope : ScopeId}

/-- Evaluating an expression of a program leaves a sound store, and yields a value in it. -/
theorem evaluated_sound (hU : KeepsReserved U) {context : Context} {expr : Expr} {s s' : State}
    {value : Value} (hsound : SoundStore U (fun _ => True) s.store)
    (hscope : scope.index < s.store.scopes.size) (hwithin : context.place expr.uses ⊆ U)
    (hrun : Eval.evaluate fuel scope expr s = .ok value s') :
    SoundStore U (fun _ => True) s'.store ∧ s.store.Grows s'.store ∧ s'.store.Valid value := by
  have hpre : (soundness U fun _ => True).pre (.evaluate scope expr) s := ⟨hscope, context, hwithin⟩
  have hrun : (Task.evaluate scope expr).run fuel s = .ok value s' := hrun
  have hcovers := task_covers (soundness_kept hU) hsound hpre
    fun moment (_ : moment ∈ (Task.evaluate scope expr).trace fuel s) => trivial
  rw [hrun] at hcovers
  obtain ⟨hpost, hends⟩ := hcovers
  exact ⟨hends.invariant, hends.later, hpost⟩

/-- Whatever a session does, a property that it sets is seen on the same value under the same name
only. What a write does is shown of every consistent store (`isolatesWrites`), and a session comes
to no other. -/
theorem writesKept_of_accepted {session : List Stmt} (h : ∀ stmt ∈ session, Accepted stmt)
    (fuel : Nat) (output : Sink) (clock : Clock) :
    WritesKept fuel session (.initial output clock) := by
  obtain ⟨s', hends⟩ := session_sound h fuel output clock
  have hU := keepsReserved_of_accepted h
  refine ⟨?isolated, ?sets⟩
  case isolated =>
    intro state hstate
    have hsound : SoundStore _ _ state.store := soundStore_of_state hends hstate
    exact isolatesWrites hsound.consistent
  case sets =>
    intro fuel' scope object name value state a s₁ v s₂ hvisit hobject hvalue
    -- The write is one that the session comes to: the state of the visit is sound, and so are the
    -- ones after the object and after the value.
    obtain ⟨hsound, ⟨hscope, context, hwithin⟩, -⟩ := hends.covers.facts _ hvisit
    have hsound : SoundStore _ _ state.store := hsound
    have hscope : scope.index < state.store.scopes.size := hscope
    have hwithin : context.place (object.uses ++ value.uses) ⊆ _ := hwithin
    obtain ⟨hsound₁, hgrows₁, hvalid₁⟩ :=
      evaluated_sound hU hsound hscope (place_append_left hwithin) hobject
    obtain ⟨hsound₂, hgrows₂, -⟩ := evaluated_sound hU hsound₁
      (Nat.lt_of_lt_of_le hscope hgrows₁.scopes.size) (place_append_right hwithin) hvalue
    refine ⟨hvalid₁.mono hgrows₂, isolatesWrites hsound₂.consistent, ?_⟩
    rw [Eval.evaluate, Eval.bind_of_ok hobject, Eval.bind_of_ok hvalue]

end

/-- Fields that hide methods, on a class, on an instance and on methods that are read off, and
writes to what has no fields. -/
def sharedMethodSource : String :=
  "class A { fun m() {} } class B < A {} var b = B(); A.p = B.p = 1; print b.p; var f = b.m;
   f.q = A.m.q = 2; print b.m.q == B.m.q; b.m = B.m = f; nil.p = clock.p = 3;"

theorem writesKept_sharedMethod : ∃ program, readProgram sharedMethodSource = .ok program ∧
    WritesKept 60 program (.initial .unlimited ⟨fun _ => ⟨0⟩⟩) := by
  obtain ⟨program, hread, -⟩ :=
    @exists_read sharedMethodSource (fun _ => True) _ (by decide +kernel)
  have haccepted : ∀ stmt ∈ program, Accepted stmt := fun stmt hstmt =>
    ⟨sharedMethodSource, program, hread, hstmt⟩
  exact ⟨program, hread, writesKept_of_accepted haccepted 60 _ _⟩

end Script
