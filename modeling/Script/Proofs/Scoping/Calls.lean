import Script.Proofs.Run.SoundCalls
import Script.Proofs.Run.Uniform
import Script.Proofs.Scoping.Definitions
import Script.Proofs.Scoping.Names
import Script.Proofs.Scoping.NestedExpressions
import Script.Proofs.Store.Writes

/-!
# Calls

Whether a value can be called, and with how many arguments, is settled before anything runs: a call
that is refused has changed nothing (`Untouched`). Otherwise the body is entered (`Entered`): in a
fresh scope, inside a fresh scope of the parameters with the arguments at their places, inside the
scope that the function was declared in.

So it is for functions, for methods, for classes, whose constructors are called, and for
`super(...)` (`callsSettled_of_read`).
-/

namespace Script

/-! ## The number of arguments

What a value takes is a fact about the store: the parameters of the function that would run, which
for a class is the first constructor from the class upward. The evaluator compares this number with
that of the arguments before it does anything else; calling a class is the exception, since the
instance is made first. Hence `Untouched` allows for a new instance that nothing refers to. -/

/-- The number of arguments for a new instance: that of the first constructor from the class
upward, and none where there is no constructor. -/
def Store.constructorArity (store : Store) (start : Option ClassId) : Nat :=
  match start.bind fun start => store.method? start constructorName with
  | some resolution => (store.function resolution.method).decl.params.length
  | none => 0

/-- The number of arguments that a value takes, if it can be called. -/
def Store.arity? (store : Store) : Value → Option Nat
  | .function (.native native) => some native.arity
  | .function (.user id) => some (store.function id).decl.params.length
  | .function (.bound id) => some (store.function (store.boundMethod id).method).decl.params.length
  | .classRef id => some (store.constructorArity (some id))
  | .nil | .boolean _ | .number _ | .string _ | .instanceRef _ => none

/-- No variable, no field and no output has changed, nor anything else but that there may be an
instance more, without fields. Nothing in the program refers to that instance, so it cannot be
seen. -/
structure Untouched (s s' : State) : Prop where
  scopes : s'.store.scopes = s.store.scopes
  functions : s'.store.functions = s.store.functions
  boundMethods : s'.store.boundMethods = s.store.boundMethods
  classes : s'.store.classes = s.store.classes
  nativeFields : s'.store.nativeFields = s.store.nativeFields
  fields : ∀ value, s'.store.fieldsOf value = s.store.fieldsOf value
  output : s'.output = s.output
  clock : s'.clock = s.clock

/-- A state is untouched where nothing has happened. -/
theorem Untouched.refl (s : State) : Untouched s s :=
  ⟨rfl, rfl, rfl, rfl, rfl, fun _ => rfl, rfl, rfl⟩

/-- An instance that has just been made has no field, and reading the fields of a value that is no
instance does not depend on the instances. -/
theorem untouched_newInstance (s : State) (ofClass : ClassId) :
    Untouched s { s with store := (s.store.newInstance ofClass).2 } := by
  refine ⟨rfl, rfl, rfl, rfl, rfl, fun value => ?_, rfl, rfl⟩
  cases value with
  | instanceRef id =>
    show ((s.store.instances.push ⟨ofClass, .empty⟩).get id.index).fields =
      (s.store.instances.get id.index).fields
    by_cases hnew : id.index = s.store.instances.size
    · -- Beyond the last instance there was the default one, without fields as well.
      have hdefault : s.store.instances.get s.store.instances.size = default := by
        simp [Arena.get, Arena.size]
      rw [hnew, Arena.get_push_size, hdefault]
      rfl
    · rw [Arena.get_push_of_ne _ _ hnew]
  | _ => rfl

namespace Eval

variable {α β : Type} {s : State} {expected actual : Nat}

/-- A step that reads the store goes on in the same state. -/
theorem bind_read (f : Store → α) (k : α → Eval β) : (read f >>= k) s = k (f s.store) s := rfl

/-- A step that puts something into the store goes on in the state with the new store. -/
theorem bind_allocate (f : Store → α × Store) (k : α → Eval β) :
    (allocate f >>= k) s = k (f s.store).1 { s with store := (f s.store).2 } := rfl

/-- The comparison of the two numbers, when they agree and when they do not. It changes nothing in
either case. -/
theorem checkArity_of_eq (h : expected = actual) : checkArity expected actual s = .ok () s := by
  unfold checkArity
  rw [if_pos h]
  rfl

theorem checkArity_of_ne (h : expected ≠ actual) :
    checkArity expected actual s = .error (.error (.arityMismatch expected actual)) s := by
  unfold checkArity
  rw [if_neg h]
  rfl

end Eval

section

variable {fuel : Nat} {callee : Value} {arguments : List Value} {s : State}

/-- A constructor that takes another number of arguments is not entered. Where there is no
constructor, there have to be no arguments. -/
theorem construct_mismatch {id : InstanceId} {start : Option ClassId}
    (h : s.store.constructorArity start ≠ arguments.length) :
    Eval.construct (fuel + 1) id start arguments s =
      .error (.error (.arityMismatch (s.store.constructorArity start) arguments.length)) s := by
  unfold Store.constructorArity at h ⊢
  rw [Eval.construct, Eval.bind_read]
  -- The two branches compare with the parameters of the constructor, and with zero.
  cases hfound : start.bind fun start => s.store.method? start constructorName with
  | none =>
    rw [hfound] at h
    exact Eval.checkArity_of_ne h
  | some resolution =>
    rw [hfound] at h
    dsimp only
    rw [Eval.bind_read]
    exact Eval.bind_of_error (Eval.checkArity_of_ne h)

/-- The wrong number of arguments is reported before anything runs: for functions in the very state
of the call, and for classes in the one with the new instance. -/
theorem call_mismatch {arity : Nat} (harity : s.store.arity? callee = some arity)
    (hne : arity ≠ arguments.length) :
    ∃ s', Eval.call (fuel + 2) callee arguments s =
      .error (.error (.arityMismatch arity arguments.length)) s' ∧ Untouched s s' := by
  cases callee with
  | function ref =>
    obtain rfl : s.store.arity ref = arity := by
      cases ref <;> exact Option.some.inj harity
    refine ⟨s, ?_, .refl s⟩
    unfold Eval.call
    rw [Eval.bind_read]
    exact Eval.bind_of_error (Eval.checkArity_of_ne hne)
  | classRef id =>
    obtain rfl := Option.some.inj harity
    refine ⟨_, ?_, untouched_newInstance s id⟩
    rw [Eval.call, Eval.bind_allocate]
    exact Eval.bind_of_error (construct_mismatch hne)
  | _ => cases harity

/-! ## What can be called

That a value which is no function and no class is refused is read off the evaluator. The other
direction is about whole runs: the body of a function may call anything, but the refusal of a callee
names its type, and none names the type of functions or of classes. -/

/-- No task refuses to call a function or a class: a single step fails with this error for other
types only, so no run does. -/
theorem uniform_callable : Uniform (fun _ => True) (fun _ _ => True)
    (fun interrupt => interrupt ≠ .error (.notCallable .function) ∧
      interrupt ≠ .error (.notCallable .classType)) fun _ => True where
  exhausted := ⟨nofun, nofun⟩
  keeps := fun _ _ _ => ⟨trivial, trivial⟩
  fails := fun _ hfails => by
    cases hfails with
    | error herror =>
      constructor <;>
      · intro hcallable
        rw [Interrupt.error.inj hcallable] at herror
        exact herror
    | malformed => exact ⟨nofun, nofun⟩
  calls := fun _ _ => trivial

/-- A call is refused for the kind of its callee just if that can not be called at all. -/
theorem call_notCallable_iff {s' : State} :
    Eval.call (fuel + 1) callee arguments s = .error (.error (.notCallable callee.type)) s' ↔
      s.store.arity? callee = none ∧ s' = s := by
  -- If the callee is a function or a class, the error would come from the run of a body.
  have hfails : FailsFor _ (Eval.call (fuel + 1) callee arguments s) :=
    (@Uniform.safe _ _ _ _ uniform_callable (fuel + 1) (.call callee arguments) trivial s trivial).1
  constructor
  · intro hrun
    obtain ⟨hfunction, hclass⟩ := hfails _ _ hrun
    cases callee with
    | function ref => exact absurd rfl hfunction
    | classRef id => exact absurd rfl hclass
    | _ =>
      unfold Eval.call at hrun
      exact ⟨rfl, (EStateM.Result.error.inj hrun).2.symm⟩
  · rintro ⟨harity, rfl⟩
    cases callee with
    | function ref => cases ref <;> cases harity
    | classRef id => cases harity
    | _ =>
      unfold Eval.call
      rfl

end

/-! ## Entering a body

A body runs two scopes inside the scope of its declaration, wherever it is called from: one for the
parameters, with `this` and `super` beside them if the function is bound, and one for its own
variables. Each call opens both anew. -/

/-- In the second state the body of the function is about to run, in a new scope inside a new scope
of its parameters. Everything that can be seen of the new scopes is said, and that nothing else has
changed. -/
structure Entered (function : UserFunction) (binding : Option (InstanceId × ClassId))
    (arguments : List Value) (parameters body : ScopeId) (s s' : State) : Prop where
  fresh : parameters = ⟨s.store.scopes.size⟩ ∧ body = ⟨s.store.scopes.size + 1⟩
  count : s'.store.scopes.size = s.store.scopes.size + 2
  /-- Around the body are the parameters, and around them the scope of the declaration. -/
  bodyChain : s'.store.chain body = body :: s'.store.chain parameters
  parametersChain : s'.store.chain parameters = parameters :: s.store.chain function.closure
  /-- The body has no variables yet, and each parameter has the argument at its place. -/
  empty : s'.store.bindings body = .empty
  argument : ∀ (i : Nat) (param : Token) (value : Value), function.decl.params[i]? = some param →
    arguments[i]? = some value →
    (s'.store.bindings parameters).get? param.lexeme = some value
  /-- Beside them are the receiver and the superclass, if there is a receiver. -/
  receiver : ∀ id declaringClass, binding = some (id, declaringClass) →
    (s'.store.bindings parameters).get? thisName = some (.instanceRef id) ∧
    (s'.store.bindings parameters).get? superName =
      some (((s.store.superclass? declaringClass).map Value.classRef).getD .nil)
  only : ∀ name, (s'.store.bindings parameters).contains name = true →
    name ∈ function.decl.params.map Token.lexeme ∨ binding.isSome ∧ name ∈ reservedNames
  /-- Nothing else has changed. -/
  others : ∀ scope : ScopeId, scope.index < s.store.scopes.size →
    s'.store.scope scope = s.store.scope scope
  rest : s' = { s with store := { s.store with scopes := s'.store.scopes } }

section

variable {function : UserFunction} {binding : Option (InstanceId × ClassId)}
  {arguments : List Value} {s : State}

/-- The scope that was opened last is the one that was asked for. -/
theorem scope_newScope (store : Store) (enclosing : List ScopeId) (bindings : Table Value) :
    (store.newScope enclosing bindings).2.scope ⟨store.scopes.size⟩ = ⟨enclosing, bindings⟩ :=
  Arena.get_push_size _ _

/-- Opening a scope leaves the older ones as they are. -/
theorem scope_newScope_of_lt (store : Store) (enclosing : List ScopeId) (bindings : Table Value)
    {id : ScopeId} (hid : id.index < store.scopes.size) :
    (store.newScope enclosing bindings).2.scope id = store.scope id :=
  Arena.get_push_of_lt _ _ hid

/-- An argument is found under the name of the parameter at its place. -/
theorem findIn_argument {store : Store} (hnodup : (function.decl.params.map Token.lexeme).Nodup)
    (hreserved : ∀ name ∈ reservedNames, name ∉ function.decl.params.map Token.lexeme) {i : Nat}
    {param : Token} {value : Value} (hparam : function.decl.params[i]? = some param)
    (hvalue : arguments[i]? = some value) :
    Table.findIn param.lexeme (Eval.callBindings store function binding arguments) =
      some value := by
  have hname : (function.decl.params.map Token.lexeme)[i]? = some param.lexeme := by
    rw [List.getElem?_map, hparam]
    rfl
  have hzip := Table.findIn_zip hnodup hname hvalue
  cases binding with
  | none => exact hzip
  | some b =>
    -- The receiver is bound under names that no parameter has.
    have hne : ∀ name ∈ reservedNames, name ≠ param.lexeme := fun name hname' heq =>
      hreserved name hname' (heq ▸ List.mem_of_getElem? hname)
    show (if thisName = param.lexeme then _ else if superName = param.lexeme then _ else _) = _
    rw [if_neg (hne thisName (.head _)), if_neg (hne superName (.tail _ (.head _)))]
    exact hzip

/-- The receiver is bound first, so it is found before any parameter is looked at. A class without a
superclass binds `super` to `nil`. -/
theorem findIn_receiver {store : Store} (id : InstanceId) (declaringClass : ClassId) :
    Table.findIn thisName (Eval.callBindings store function (some (id, declaringClass)) arguments) =
        some (.instanceRef id) ∧
      Table.findIn superName
          (Eval.callBindings store function (some (id, declaringClass)) arguments) =
        some (((store.superclass? declaringClass).map Value.classRef).getD .nil) := by
  refine ⟨rfl, ?_⟩
  dsimp only [Eval.callBindings]
  cases store.superclass? declaringClass <;> rfl

/-- The receiver, the superclass and the arguments of a call make one table, since no name is bound
twice: parameters are distinct, and none of them is spelled `this` or `super`. -/
theorem exists_callTable (store : Store) (binding : Option (InstanceId × ClassId))
    (hnodup : (function.decl.params.map Token.lexeme).Nodup)
    (hreserved : ∀ name ∈ reservedNames, name ∉ function.decl.params.map Token.lexeme)
    (hlength : function.decl.params.length = arguments.length) :
    ∃ table, Table.empty.addDistinct (Eval.callBindings store function binding arguments) =
      .ok table := by
  apply Table.exists_addDistinct
  · rw [@callBindings_names store function binding arguments hlength]
    refine List.Nodup.append ?_ hnodup fun name hname hparam => ?_
    · -- The two reserved names are different ones; without a receiver there are none.
      split
      · decide
      · exact .nil
    · split at hname
      · exact hreserved name hname hparam
      · cases hname
  · exact fun _ _ => rfl

/-- A body is entered without an error if the parameters have distinct names, none of which is
spelled like a keyword, and there are as many arguments. -/
theorem enter_distinct (binding : Option (InstanceId × ClassId))
    (hnodup : (function.decl.params.map Token.lexeme).Nodup)
    (hreserved : ∀ name ∈ reservedNames, name ∉ function.decl.params.map Token.lexeme)
    (hlength : function.decl.params.length = arguments.length) :
    ∃ parameters body s', Eval.enter function binding arguments s = .ok body s' ∧
      Entered function binding arguments parameters body s s' := by
  have hnames := @callBindings_names s.store function binding arguments hlength
  obtain ⟨table, htable⟩ := exists_callTable s.store binding hnodup hreserved hlength
  -- A look-up in the table is one in the row that it was made from.
  have hget : ∀ name, table.get? name =
      Table.findIn name (Eval.callBindings s.store function binding arguments) := fun name => by
    rw [Table.get?_addDistinct htable, Table.get?_empty, Option.none_or]
  -- First the scope of the parameters is opened, then that of the body inside it.
  obtain ⟨first, hfirst⟩ : ∃ store, store = (s.store.newChild function.closure table).2 := ⟨_, rfl⟩
  have hsize : first.scopes.size = s.store.scopes.size + 1 := hfirst ▸ Arena.size_push _ _
  have hparameters : first.scope ⟨s.store.scopes.size⟩ =
      ⟨s.store.chain function.closure, table⟩ := hfirst ▸ scope_newScope _ _ _
  have hold : ∀ id : ScopeId, id.index < first.scopes.size →
      (first.newChild ⟨s.store.scopes.size⟩ .empty).2.scope id = first.scope id :=
    fun id hid => scope_newScope_of_lt _ _ _ hid
  have hlt : s.store.scopes.size < first.scopes.size := by omega
  refine ⟨⟨s.store.scopes.size⟩, ⟨first.scopes.size⟩,
    { s with store := (first.newChild ⟨s.store.scopes.size⟩ .empty).2 }, ?_, ?_⟩
  · unfold Eval.enter
    rw [Eval.bind_read, htable, hfirst]
    rfl
  · have hbody : (first.newChild ⟨s.store.scopes.size⟩ .empty).2.scope ⟨first.scopes.size⟩ =
        ⟨first.chain ⟨s.store.scopes.size⟩, .empty⟩ := scope_newScope _ _ _
    have hsame : (first.newChild ⟨s.store.scopes.size⟩ .empty).2.scope ⟨s.store.scopes.size⟩ =
        ⟨s.store.chain function.closure, table⟩ := (hold _ hlt).trans hparameters
    have hbindings : (first.newChild ⟨s.store.scopes.size⟩ .empty).2.bindings
        ⟨s.store.scopes.size⟩ = table := congrArg Scope.bindings hsame
    constructor
    case fresh => exact ⟨rfl, by rw [hsize]⟩
    case count => exact (Arena.size_push _ _).trans (by rw [hsize])
    case bodyChain =>
      show _ :: Scope.enclosing _ = _ :: _ :: Scope.enclosing _
      rw [hbody, hsame]
      show _ :: _ :: Scope.enclosing _ = _
      rw [hparameters]
    case parametersChain =>
      show _ :: Scope.enclosing _ = _
      rw [hsame]
    case empty => exact congrArg Scope.bindings hbody
    case argument =>
      intro i param value hparam hvalue
      rw [hbindings, hget]
      exact findIn_argument hnodup hreserved hparam hvalue
    case receiver =>
      rintro id declaringClass rfl
      rw [hbindings, hget, hget]
      exact findIn_receiver id declaringClass
    case only =>
      intro name hname
      rw [hbindings, Table.contains_of_addDistinct htable, hnames] at hname
      rcases List.mem_append.mp hname with hreceiver | hparam
      · split at hreceiver
        case isTrue hsome => exact .inr ⟨hsome, hreceiver⟩
        case isFalse => cases hreceiver
      · exact .inl hparam
    -- Older scopes were there before both new ones.
    case others =>
      intro scope hscope
      refine (hold scope (by omega)).trans ?_
      rw [hfirst]
      exact scope_newScope_of_lt _ _ _ hscope
    case rest =>
      rw [hfirst]
      rfl

end

/-! ## The names in definitions

All the names in a function that a program defines occur in the program, in the context in which the
function stands there. This is a walk down to the definition, by recursion on the statements; it
carries along that what has been walked past occurs in the program. It is needed because a parameter
is known to be no keyword only as an identifier of an accepted source. -/

section

variable {U : List Occurrence} {decl : FunctionDecl}

mutual

/-- The occurrences of a statement include those of what it defines, so a definition is known
wherever the statement is. -/
theorem Stmt.knownIn_of_defined : ∀ {stmt : Stmt} {context : Context},
    stmt.occurrences context ⊆ U → .function decl ∈ stmt.definitions → KnownIn U decl
  | .block body, _, hsubset, hmem => by
    rw [Stmt.occurrences] at hsubset
    rw [Stmt.definitions] at hmem
    exact Stmt.knownIn_of_definedByAll hsubset hmem
  | .ifElse condition thenBranch none, _, hsubset, hmem => by
    rw [Stmt.occurrences] at hsubset
    rw [Stmt.definitions] at hmem
    exact Stmt.knownIn_of_defined (List.append_subset.mp hsubset).2 hmem
  | .ifElse condition thenBranch (some elseBranch), _, hsubset, hmem => by
    rw [Stmt.occurrences] at hsubset
    rw [Stmt.definitions] at hmem
    obtain ⟨hleft, hright⟩ := List.append_subset.mp hsubset
    rcases List.mem_append.mp hmem with hmem | hmem
    · exact Stmt.knownIn_of_defined (List.append_subset.mp hleft).2 hmem
    · exact Stmt.knownIn_of_defined hright hmem
  | .whileLoop condition body, _, hsubset, hmem => by
    rw [Stmt.occurrences] at hsubset
    rw [Stmt.definitions] at hmem
    exact Stmt.knownIn_of_defined (List.append_subset.mp hsubset).2 hmem
  | .forLoop none condition post body, _, hsubset, hmem => by
    rw [Stmt.occurrences] at hsubset
    rw [Stmt.definitions] at hmem
    exact Stmt.knownIn_of_defined (List.append_subset.mp hsubset).2 hmem
  | .forLoop (some init) condition post body, _, hsubset, hmem => by
    rw [Stmt.occurrences] at hsubset
    rw [Stmt.definitions] at hmem
    obtain ⟨hclauses, hbody⟩ := List.append_subset.mp hsubset
    -- The clauses of the header come before the body, and the initial one before the others.
    have hinit := (List.append_subset.mp (List.append_subset.mp hclauses).1).1
    rcases List.mem_append.mp hmem with hmem | hmem
    · exact Stmt.knownIn_of_defined hinit hmem
    · exact Stmt.knownIn_of_defined hbody hmem
  | .function function, _, hsubset, hmem => by
    rw [Stmt.occurrences] at hsubset
    rw [Stmt.definitions] at hmem
    exact FunctionDecl.knownIn_of_defined (List.append_subset.mp hsubset).2 hmem
  | .classDecl name superclass methods, _, hsubset, hmem => by
    rw [Stmt.occurrences] at hsubset
    rw [Stmt.definitions] at hmem
    rcases List.mem_cons.mp hmem with heq | hmem
    · cases heq
    · exact FunctionDecl.knownIn_of_definedByAll (List.append_subset.mp hsubset).2 hmem
  | .expression _, _, _, hmem | .print _, _, _, hmem | .varDecl _ _, _, _, hmem
  | .returnValue _ _, _, _, hmem => by
    rw [Stmt.definitions] at hmem
    cases hmem

theorem Stmt.knownIn_of_definedByAll : ∀ {statements : List Stmt} {context : Context},
    Stmt.occurrencesOfAll context statements ⊆ U →
    .function decl ∈ Stmt.definitionsOfAll statements → KnownIn U decl
  | [], _, _, hmem => by cases hmem
  | stmt :: rest, _, hsubset, hmem => by
    rw [Stmt.occurrencesOfAll] at hsubset
    rw [Stmt.definitionsOfAll] at hmem
    obtain ⟨hfirst, hrest⟩ := List.append_subset.mp hsubset
    rcases List.mem_append.mp hmem with hmem | hmem
    · exact Stmt.knownIn_of_defined hfirst hmem
    · exact Stmt.knownIn_of_definedByAll hrest hmem

theorem FunctionDecl.knownIn_of_defined : ∀ {function : FunctionDecl} {context : Context}
    {isMethod : Bool}, function.occurrences context isMethod ⊆ U →
    .function decl ∈ function.definitions → KnownIn U decl
  | ⟨name, params, body⟩, context, isMethod, hsubset, hmem => by
    rw [FunctionDecl.definitions] at hmem
    -- A function defines itself and what its body defines.
    rcases List.mem_cons.mp hmem with heq | hmem
    · obtain rfl := Definition.function.inj heq
      exact ⟨context, isMethod, hsubset⟩
    · rw [FunctionDecl.occurrences] at hsubset
      exact Stmt.knownIn_of_definedByAll (List.append_subset.mp hsubset).2 hmem

theorem FunctionDecl.knownIn_of_definedByAll : ∀ {decls : List FunctionDecl} {context : Context},
    FunctionDecl.occurrencesOfAll context decls ⊆ U →
    .function decl ∈ FunctionDecl.definitionsOfAll decls → KnownIn U decl
  | [], _, _, hmem => by cases hmem
  | first :: rest, _, hsubset, hmem => by
    rw [FunctionDecl.occurrencesOfAll] at hsubset
    rw [FunctionDecl.definitionsOfAll] at hmem
    obtain ⟨hfirst, hrest⟩ := List.append_subset.mp hsubset
    rcases List.mem_append.mp hmem with hmem | hmem
    · exact FunctionDecl.knownIn_of_defined hfirst hmem
    · exact FunctionDecl.knownIn_of_definedByAll hrest hmem

end

end

/-! ## Running a body

What a call comes to is what its body comes to, with the value that the caller makes of it: a
function yields what was returned, a class its instance, and `super(...)` yields `nil`.
`Outcome.yielding` is this change of value, and an interrupt passes through it unchanged. -/

/-- The function whose body a call runs, and what it is bound to. The receiver of a constructor is
a new instance. -/
def Store.target? (store : Store) : Value → Option (FunctionId × Option (InstanceId × ClassId))
  | .function (.user id) => some (id, none)
  | .function (.bound id) =>
    let bound := store.boundMethod id
    some (bound.method, some (bound.receiver, bound.declaringClass))
  | .classRef id => (store.method? id constructorName).map fun resolution =>
    (resolution.method, some (⟨store.instances.size⟩, resolution.declaringClass))
  | _ => none

/-- The state in which a call of the value enters the body: a class has made its instance. -/
def State.prepared (s : State) : Value → State
  | .classRef id => { s with store := (s.store.newInstance id).2 }
  | _ => s

/-- What a body comes to for its caller, who makes something else of how it ends. Interrupts are
handed on. -/
def Outcome.yielding {α : Type} (f : Completion → α) : Outcome Completion → Outcome α
  | .ok completion s => .ok (f completion) s
  | .error interrupt s => .error interrupt s

/-- A step that only changes the value of an outcome may be taken into it. -/
theorem bind_yielding {α β : Type} {x : Eval α} {k : α → Eval β} {f : Completion → α}
    {g : Completion → β} {outcome : Outcome Completion} {s : State}
    (hx : x s = outcome.yielding f)
    (hk : ∀ completion s', k (f completion) s' = .ok (g completion) s') :
    (x >>= k) s = outcome.yielding g := by
  cases outcome with
  | ok completion s' => exact (Eval.bind_of_ok hx).trans (hk completion s')
  | error interrupt s' => exact Eval.bind_of_error hx

/-- The value that a function has returned. -/
def Completion.returnedValue : Completion → Value
  | .returned value => value
  | .normal _ => .nil

/-- The value of a call: the new instance for a class, and else what the body has returned. -/
def State.callValue (s : State) : Value → Completion → Value
  | .classRef _, _ => .instanceRef ⟨s.store.instances.size⟩
  | _, completion => completion.returnedValue

section

variable {program : List Stmt} {source : String} {s : State}

/-- The function accepts the arguments: it is one that the program defines, and it has distinct
parameters, as many as there are arguments. -/
structure Accepts (program : List Stmt) (decl : FunctionDecl) (arguments : List Value) :
    Prop where
  defined : .function decl ∈ Stmt.definitionsOfAll program
  distinct : (decl.params.map Token.lexeme).Nodup
  length : decl.params.length = arguments.length

variable (hread : readProgram source = .ok program) {id : FunctionId} {arguments : List Value}

include hread

/-- A function that accepts the arguments is entered, and then its body runs. The fuel is quantified
inside, since the scopes that are opened do not depend on it. -/
theorem invoke_runs (binding : Option (InstanceId × ClassId))
    (h : Accepts program (s.store.function id).decl arguments) :
    ∃ parameters body s', Entered (s.store.function id) binding arguments parameters body s s' ∧
      ∀ fuel, Eval.invoke (fuel + 1) id binding arguments s =
        Outcome.yielding Completion.returnedValue
          (Eval.executeAll fuel body (s.store.function id).decl.body s') := by
  have hknown : KnownIn (programOccurrences program) (s.store.function id).decl :=
    Stmt.knownIn_of_definedByAll (List.Subset.refl _) h.defined
  -- Parameters are identifiers, which keywords are not.
  have hreserved : ∀ name ∈ reservedNames,
      name ∉ (s.store.function id).decl.params.map Token.lexeme := fun name hname =>
    hknown.parameters (fun _ => not_reserved_of_read hread) hname
  obtain ⟨parameters, body, s', henter, hentered⟩ :=
    enter_distinct binding h.distinct hreserved h.length
  refine ⟨parameters, body, s', hentered, fun fuel => ?_⟩
  rw [Eval.invoke, Eval.bind_read, Eval.bind_of_ok henter]
  cases hbody : Eval.executeAll fuel body (s.store.function id).decl.body s' with
  | ok completion after =>
    rw [Eval.bind_of_ok hbody]
    cases completion <;> rfl
  | error interrupt after => exact Eval.bind_of_error hbody

/-- So it is for a constructor: it is entered with the instance as its receiver, and what it returns
is dropped. -/
theorem construct_runs {start : Option ClassId} (instanceId : InstanceId)
    {resolution : MethodResolution}
    (hfound : (start.bind fun start => s.store.method? start constructorName) = some resolution)
    (h : Accepts program (s.store.function resolution.method).decl arguments) :
    ∃ parameters body s', Entered (s.store.function resolution.method)
        (some (instanceId, resolution.declaringClass)) arguments parameters body s s' ∧
      ∀ fuel, Eval.construct (fuel + 2) instanceId start arguments s =
        Outcome.yielding (fun _ => ())
          (Eval.executeAll fuel body (s.store.function resolution.method).decl.body s') := by
  obtain ⟨parameters, body, s', hentered, hinvoke⟩ :=
    invoke_runs hread (some (instanceId, resolution.declaringClass)) h
  refine ⟨parameters, body, s', hentered, fun fuel => ?_⟩
  have harity : Eval.checkArity (s.store.arity (.user resolution.method)) arguments.length s =
      .ok () s := Eval.checkArity_of_eq h.length
  rw [Eval.construct, Eval.bind_read, hfound]
  dsimp only
  rw [Eval.bind_read, Eval.bind_of_ok harity]
  exact bind_yielding (hinvoke fuel) fun _ _ => rfl

/-- A call with the right number of arguments enters the body, and comes to what the body comes to.
By cases on the callee: a function and a bound method are invoked at once, a class goes through the
search for its constructor and so needs one more level. -/
theorem call_runs {callee : Value} {binding : Option (InstanceId × ClassId)}
    (htarget : s.store.target? callee = some (id, binding))
    (h : Accepts program (s.store.function id).decl arguments) :
    ∃ parameters body s', Entered (s.store.function id) binding arguments parameters body
        (s.prepared callee) s' ∧
      ∃ depth, ∀ fuel, Eval.call (fuel + depth) callee arguments s =
        Outcome.yielding (s.callValue callee)
          (Eval.executeAll fuel body (s.store.function id).decl.body s') := by
  cases callee with
  | function ref =>
    cases ref with
    | user id' =>
      obtain ⟨rfl, rfl⟩ := Prod.mk.inj (Option.some.inj htarget)
      obtain ⟨parameters, body, s', hentered, hinvoke⟩ := invoke_runs hread none h
      refine ⟨parameters, body, s', hentered, 2, fun fuel => ?_⟩
      have harity : Eval.checkArity (s.store.arity (.user id')) arguments.length s = .ok () s :=
        Eval.checkArity_of_eq h.length
      unfold Eval.call
      rw [Eval.bind_read, Eval.bind_of_ok harity]
      exact hinvoke fuel
    -- A bound method brings its receiver along, and is otherwise called like a function.
    | bound id' =>
      obtain ⟨rfl, rfl⟩ := Prod.mk.inj (Option.some.inj htarget)
      obtain ⟨parameters, body, s', hentered, hinvoke⟩ := invoke_runs hread _ h
      refine ⟨parameters, body, s', hentered, 2, fun fuel => ?_⟩
      have harity : Eval.checkArity (s.store.arity (.bound id')) arguments.length s = .ok () s :=
        Eval.checkArity_of_eq h.length
      unfold Eval.call
      rw [Eval.bind_read, Eval.bind_of_ok harity]
      exact hinvoke fuel
    | native => cases htarget
  -- The instance is made first. That is what `prepared` says of the state.
  | classRef ofClass =>
    obtain ⟨resolution, hfound, heq⟩ := Option.map_eq_some_iff.mp htarget
    obtain ⟨rfl, rfl⟩ := Prod.mk.inj heq
    obtain ⟨parameters, body, s', hentered, hconstruct⟩ :=
      @construct_runs program source (s.prepared (.classRef ofClass)) hread arguments
        (some ofClass) ⟨s.store.instances.size⟩ resolution hfound h
    refine ⟨parameters, body, s', hentered, 3, fun fuel => ?_⟩
    unfold Eval.call
    rw [Eval.bind_allocate]
    exact bind_yielding (hconstruct fuel) fun _ _ => rfl
  | _ => cases htarget

end

/-! ## Calls of the constructor above

`super(...)` finds its receiver and its superclass before it looks at the arguments, and it
evaluates these before it looks for a constructor. The lemmas below take both as found. -/

section

variable {fuel : Nat} {scope : ScopeId} {keyword : Token} {arguments : List Expr} {s s₁ : State}
  {id : InstanceId} {parent : Option ClassId}

/-- With the receiver and the superclass found, the arguments are evaluated and the constructor is
run. -/
theorem superCall_eq (hreceiver : Eval.receiver scope superName s = .ok id s)
    (hparent : Eval.superclass scope s = .ok parent s) :
    Eval.evaluate (fuel + 1) scope (.superCall keyword arguments) s =
      (do
        let values ← Eval.evaluateAll fuel scope arguments
        Eval.construct fuel id parent values
        pure .nil : Eval Value) s := by
  conv => lhs; unfold Eval.evaluate
  rw [Eval.bind_of_ok hreceiver, Eval.bind_of_ok hparent]

/-- With the arguments evaluated as well, all that is left is to run the constructor, in the state
that the arguments have led to. -/
theorem superCall_constructs {values : List Value}
    (hreceiver : Eval.receiver scope superName s = .ok id s)
    (hparent : Eval.superclass scope s = .ok parent s)
    (hvalues : Eval.evaluateAll fuel scope arguments s = .ok values s₁) :
    Eval.evaluate (fuel + 1) scope (.superCall keyword arguments) s =
      (do Eval.construct fuel id parent values; pure .nil : Eval Value) s₁ := by
  rw [superCall_eq hreceiver hparent, Eval.bind_of_ok hvalues]

end

/-! ## The law of calls -/

/-- What holds of all calls of values, and of all calls of the constructor above, with `super`. -/
structure CallsSettled (program : List Stmt) : Prop where
  /-- Functions and classes can be called, and nothing else can. -/
  callable : ∀ (store : Store) callee,
    store.arity? callee = none ↔ callee.type ≠ .function ∧ callee.type ≠ .classType
  not_callable : ∀ fuel callee arguments s s',
    Eval.call (fuel + 1) callee arguments s = .error (.error (.notCallable callee.type)) s' ↔
      s.store.arity? callee = none ∧ s' = s
  mismatch : ∀ fuel callee arguments s arity, s.store.arity? callee = some arity →
    arity ≠ arguments.length → ∃ s',
      Eval.call (fuel + 2) callee arguments s =
        .error (.error (.arityMismatch arity arguments.length)) s' ∧ Untouched s s'
  /-- With the right number of arguments the body is entered. -/
  body : ∀ callee arguments (s : State) id binding, s.store.target? callee = some (id, binding) →
    Accepts program (s.store.function id).decl arguments →
    s.store.arity? callee = some arguments.length ∧
    ∃ parameters body s', Entered (s.store.function id) binding arguments parameters body
        (s.prepared callee) s' ∧
      ∃ depth, ∀ fuel, Eval.call (fuel + depth) callee arguments s =
        Outcome.yielding (s.callValue callee)
          (Eval.executeAll fuel body (s.store.function id).decl.body s')
  /-- The arguments of `super(...)` are evaluated first, and may fail. -/
  super_arguments : ∀ fuel scope keyword arguments s id parent interrupt s₁,
    Eval.receiver scope superName s = .ok id s → Eval.superclass scope s = .ok parent s →
    Eval.evaluateAll fuel scope arguments s = .error interrupt s₁ →
    Eval.evaluate (fuel + 1) scope (.superCall keyword arguments) s = .error interrupt s₁
  /-- Then their number is compared, before anything else happens. -/
  super_mismatch : ∀ fuel scope keyword arguments s id parent values s₁,
    Eval.receiver scope superName s = .ok id s → Eval.superclass scope s = .ok parent s →
    Eval.evaluateAll (fuel + 1) scope arguments s = .ok values s₁ →
    s₁.store.constructorArity parent ≠ values.length →
    Eval.evaluate (fuel + 2) scope (.superCall keyword arguments) s =
      .error (.error (.arityMismatch (s₁.store.constructorArity parent) values.length)) s₁
  super_body : ∀ scope keyword arguments s id parent values s₁ resolution,
    Eval.receiver scope superName s = .ok id s → Eval.superclass scope s = .ok parent s →
    (parent.bind fun parent => s₁.store.method? parent constructorName) = some resolution →
    Accepts program (s₁.store.function resolution.method).decl values →
    s₁.store.constructorArity parent = values.length ∧
    ∃ parameters body s', Entered (s₁.store.function resolution.method)
        (some (id, resolution.declaringClass)) values parameters body s₁ s' ∧
      ∀ fuel, Eval.evaluateAll (fuel + 2) scope arguments s = .ok values s₁ →
        Eval.evaluate (fuel + 3) scope (.superCall keyword arguments) s =
          Outcome.yielding (fun _ => .nil)
            (Eval.executeAll fuel body (s₁.store.function resolution.method).decl.body s')

/-- Of the target of a call, the value takes as many arguments as the function has parameters. -/
theorem arity?_of_target {store : Store} {callee : Value} {id : FunctionId}
    {binding : Option (InstanceId × ClassId)} (h : store.target? callee = some (id, binding)) :
    store.arity? callee = some (store.function id).decl.params.length := by
  cases callee with
  | function ref =>
    cases ref with
    | native => cases h
    | _ =>
      obtain ⟨rfl, -⟩ := Prod.mk.inj (Option.some.inj h)
      rfl
  | classRef ofClass =>
    obtain ⟨resolution, hfound, heq⟩ := Option.map_eq_some_iff.mp h
    obtain ⟨rfl, -⟩ := Prod.mk.inj heq
    show some (store.constructorArity (some ofClass)) = _
    unfold Store.constructorArity
    rw [Option.bind_some, hfound]
  | _ => cases h

/-- Whether a value can be called, and with how many arguments, is settled before anything runs; and
the body of a function that an accepted source declares is entered without an error if its
parameters have different names. None of these is reserved, and the scopes for them are new. -/
theorem callsSettled_of_read {source : String} {program : List Stmt}
    (h : readProgram source = .ok program) : CallsSettled program where
  callable := fun store callee => by
    cases callee with
    | function ref => cases ref <;> simp [Store.arity?, Value.type]
    | _ => simp [Store.arity?, Value.type]
  not_callable := fun _ _ _ _ _ => call_notCallable_iff
  mismatch := fun _ _ _ _ _ harity hne => call_mismatch harity hne
  body := fun callee arguments s id binding htarget haccepts =>
    ⟨haccepts.length ▸ arity?_of_target htarget, call_runs h htarget haccepts⟩
  super_arguments := fun _ _ _ _ _ _ _ _ _ hreceiver hparent hvalues => by
    rw [superCall_eq hreceiver hparent]
    exact Eval.bind_of_error hvalues
  super_mismatch := fun _ _ _ _ _ _ _ _ _ hreceiver hparent hvalues hne => by
    rw [superCall_constructs hreceiver hparent hvalues]
    exact Eval.bind_of_error (construct_mismatch hne)
  super_body := fun scope keyword arguments s id parent values s₁ resolution hreceiver hparent
      hfound haccepts => by
    obtain ⟨parameters, body, s', hentered, hconstruct⟩ :=
      construct_runs h id hfound haccepts
    refine ⟨?_, parameters, body, s', hentered, fun fuel hvalues => ?_⟩
    · -- The constructor that was found is the one whose parameters are counted.
      unfold Store.constructorArity
      rw [hfound]
      exact haccepts.length
    · rw [superCall_constructs hreceiver hparent hvalues]
      exact bind_yielding (hconstruct fuel) fun _ _ => rfl

/-- A class whose constructor is inherited, and one whose constructor calls the one above. -/
def constructorsSource : String :=
  "class A \x7b fun constructor(x, y) \x7b this.x = x; this.y = y; \x7d \x7d
   class B < A \x7b\x7d
   class C < B \x7b
     fun constructor(x) \x7b super(x, x); \x7d
     fun m(f, a) \x7b return f(a); \x7d
   \x7d"

theorem callsSettled_constructors :
    ∃ program, readProgram constructorsSource = .ok program ∧ CallsSettled program := by
  obtain ⟨program, hread, -⟩ :=
    @exists_read constructorsSource (fun _ => True) _ (by decide +kernel)
  exact ⟨program, hread, callsSettled_of_read hread⟩

end Script
