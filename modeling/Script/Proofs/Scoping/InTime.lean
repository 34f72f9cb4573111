import Script.Proofs.Scoping.Occurrences

/-!
# Names that are declared in time

A region may declare a name late: after a statement that mentions the same name, which then means
something further out. In a program where no block and no function body does that
(`DeclaresInTime`), what a region around an occurrence declares at all it has declared before it
(`programOccurrences_settled`); only the innermost region may still be about to declare the name,
in the very statement that the occurrence is in.
-/

namespace Script

/-! ## What statements mention

A statement mentions the names that it reads, assigns to or names as a superclass, anywhere inside
and under whatever binders. The condition of this module compares names only, so the place of an
occurrence is forgotten; that it may be forgotten is `Stmt.map_use`. -/

/-- The name is meant to stand for something. -/
def Role.isUse : Role → Bool
  | .read => true
  | .assigned => true
  | .superclass => true
  | .declared => false
  | .receiver => false

/-- The names that stand for something in a statement. -/
def Stmt.mentioned (stmt : Stmt) : List String :=
  ((stmt.occurrences []).filter fun o => o.role.isUse).map fun o => o.token.lexeme

/-- An occurrence without its place: the role and the token. -/
def Occurrence.use (o : Occurrence) : Role × Token := (o.role, o.token)

/-- Placing names in a context and forgetting the place gives the names back. -/
theorem map_use_place (context : Context) (uses : List (Role × Token)) :
    (context.place uses).map Occurrence.use = uses := by
  unfold Context.place
  rw [List.map_map]
  exact List.map_id uses

/-- Names that are declared at one place are, without the place, uses that declare. -/
theorem map_use_placeDeclared (context : Context) (names : List Token) :
    (context.placeDeclared names).map Occurrence.use = names.map fun name => (.declared, name) :=
  map_use_place context _

mutual

/-- Which names occur does not depend on the place: the same statement has the same names in every
context. Each case of the recursion enters the same regions on both sides. -/
theorem Stmt.map_use (a b : Context) : ∀ stmt : Stmt,
    (stmt.occurrences a).map Occurrence.use = (stmt.occurrences b).map Occurrence.use
  | .expression expr => by rw [Stmt.occurrences, Stmt.occurrences, map_use_place, map_use_place]
  | .print expr => by rw [Stmt.occurrences, Stmt.occurrences, map_use_place, map_use_place]
  | .varDecl name init => by
    rw [Stmt.occurrences, Stmt.occurrences, List.map_append, List.map_append,
      map_use_placeDeclared, map_use_placeDeclared, map_use_place, map_use_place]
  | .block body => by
    rw [Stmt.occurrences, Stmt.occurrences]
    exact Stmt.map_use_ofAll _ _ body
  | .ifElse condition thenBranch none => by
    rw [Stmt.occurrences, Stmt.occurrences, List.map_append, List.map_append, map_use_place,
      map_use_place, Stmt.map_use _ (b.enter (.branch thenBranch)) thenBranch]
  | .ifElse condition thenBranch (some elseBranch) => by
    rw [Stmt.occurrences, Stmt.occurrences, List.map_append, List.map_append, List.map_append,
      List.map_append, map_use_place, map_use_place,
      Stmt.map_use _ (b.enter (.branch thenBranch)) thenBranch,
      Stmt.map_use _ (b.enter (.branch elseBranch)) elseBranch]
  | .whileLoop condition body => by
    rw [Stmt.occurrences, Stmt.occurrences, List.map_append, List.map_append, map_use_place,
      map_use_place, Stmt.map_use _ (b.enter (.branch body)) body]
  | .forLoop none condition post body => by
    rw [Stmt.occurrences, Stmt.occurrences, List.map_append, List.map_append, List.map_append,
      List.map_append, map_use_place, map_use_place, map_use_place, map_use_place,
      Stmt.map_use _ ((b.enter (.header none)).enter (.branch body)) body]
  -- The initialiser declares a name for what comes after it, on both sides the same one.
  | .forLoop (some init) condition post body => by
    rw [Stmt.occurrences, Stmt.occurrences, List.map_append, List.map_append, List.map_append,
      List.map_append, List.map_append, List.map_append, map_use_place, map_use_place,
      map_use_place, map_use_place, Stmt.map_use _ (b.enter (.header (some init))) init,
      Stmt.map_use _
        (((b.enter (.header (some init))).declare init.declared).enter (.branch body)) body]
  | .function decl => by
    rw [Stmt.occurrences, Stmt.occurrences, List.map_append, List.map_append,
      map_use_placeDeclared, map_use_placeDeclared,
      FunctionDecl.map_use _ (b.declare [decl.name.lexeme]) decl]
  | .returnValue keyword value => by
    rw [Stmt.occurrences, Stmt.occurrences, map_use_place, map_use_place]
  | .classDecl name superclass methods => by
    rw [Stmt.occurrences, Stmt.occurrences, List.map_append, List.map_append, List.map_append,
      List.map_append, map_use_placeDeclared, map_use_placeDeclared, map_use_place, map_use_place,
      FunctionDecl.map_use_ofAll _ (b.declare [name.lexeme]) methods]

/-- Each statement of a row is placed after the names that those before it declare. -/
theorem Stmt.map_use_ofAll (a b : Context) : ∀ statements : List Stmt,
    (Stmt.occurrencesOfAll a statements).map Occurrence.use =
      (Stmt.occurrencesOfAll b statements).map Occurrence.use
  | [] => rfl
  | stmt :: rest => by
    rw [Stmt.occurrencesOfAll, Stmt.occurrencesOfAll, List.map_append, List.map_append,
      Stmt.map_use a b stmt, Stmt.map_use_ofAll _ (b.declare stmt.declared) rest]

/-- A function enters two regions, one for its parameters and one for its body. -/
theorem FunctionDecl.map_use (a b : Context) : ∀ (decl : FunctionDecl) (isMethod : Bool),
    (decl.occurrences a isMethod).map Occurrence.use =
      (decl.occurrences b isMethod).map Occurrence.use
  | ⟨name, params, body⟩, isMethod => by
    rw [FunctionDecl.occurrences, FunctionDecl.occurrences, List.map_append, List.map_append,
      map_use_placeDeclared, map_use_placeDeclared,
      Stmt.map_use_ofAll _ (b.enterFunction ⟨name, params, body⟩ isMethod) body]

/-- The methods of a class all stand in the same context. -/
theorem FunctionDecl.map_use_ofAll (a b : Context) : ∀ decls : List FunctionDecl,
    (FunctionDecl.occurrencesOfAll a decls).map Occurrence.use =
      (FunctionDecl.occurrencesOfAll b decls).map Occurrence.use
  | [] => rfl
  | decl :: rest => by
    rw [FunctionDecl.occurrencesOfAll, FunctionDecl.occurrencesOfAll, List.map_append,
      List.map_append, FunctionDecl.map_use a b decl, FunctionDecl.map_use_ofAll a b rest]

end

/-- What occurs in a statement at some place is mentioned by the statement. -/
theorem Stmt.mem_mentioned {stmt : Stmt} {context : Context} {o : Occurrence}
    (h : o ∈ stmt.occurrences context) (huse : o.role.isUse = true) :
    o.token.lexeme ∈ stmt.mentioned := by
  -- The place is forgotten, and with it the difference to the statement on its own.
  have hmem : o.use ∈ (stmt.occurrences []).map Occurrence.use := by
    rw [Stmt.map_use [] context stmt]
    exact List.mem_map_of_mem h
  obtain ⟨other, hother, hsame⟩ := List.mem_map.mp hmem
  obtain ⟨hrole, htoken⟩ := Prod.mk.inj hsame
  unfold Stmt.mentioned
  rw [← htoken]
  refine List.mem_map.mpr ⟨other, List.mem_filter.mpr ⟨hother, ?_⟩, rfl⟩
  rw [hrole]
  exact huse

/-! ## Blocks and function bodies

The rows of statements on which the condition is put. The outermost row is not among them: what it
declares is global, and a global name may be declared after it is mentioned. -/

mutual

/-- The bodies of the blocks and functions in a statement. -/
def Stmt.bodies : Stmt → List (List Stmt)
  | .block body => body :: Stmt.bodiesOfAll body
  | .ifElse _ thenBranch none => thenBranch.bodies
  | .ifElse _ thenBranch (some elseBranch) => thenBranch.bodies ++ elseBranch.bodies
  | .whileLoop _ body => body.bodies
  | .forLoop none _ _ body => body.bodies
  | .forLoop (some init) _ _ body => init.bodies ++ body.bodies
  | .function decl => decl.bodies
  | .classDecl _ _ methods => FunctionDecl.bodiesOfAll methods
  | .expression _ => []
  | .print _ => []
  | .varDecl _ _ => []
  | .returnValue _ _ => []

/-- The bodies in a row of statements; the row itself is not one of them. -/
def Stmt.bodiesOfAll : List Stmt → List (List Stmt)
  | [] => []
  | stmt :: rest => stmt.bodies ++ Stmt.bodiesOfAll rest

/-- The body of a function, and those inside it. -/
def FunctionDecl.bodies : FunctionDecl → List (List Stmt)
  | ⟨_, _, body⟩ => body :: Stmt.bodiesOfAll body

/-- The bodies in the methods of a class. -/
def FunctionDecl.bodiesOfAll : List FunctionDecl → List (List Stmt)
  | [] => []
  | decl :: rest => decl.bodies ++ FunctionDecl.bodiesOfAll rest

end

/-- No statement declares a name that a statement before it mentions. In such a row a name means the
same before and after its declaration, since it is not used before. -/
def InTime (statements : List Stmt) : Prop :=
  statements.Pairwise fun earlier later => ∀ name ∈ later.declared, name ∉ earlier.mentioned

instance (statements : List Stmt) : Decidable (InTime statements) :=
  inferInstanceAs (Decidable (List.Pairwise _ statements))

/-- No block and no function body declares a name after it has been mentioned there. -/
def DeclaresInTime (program : List Stmt) : Prop := ∀ body ∈ Stmt.bodiesOfAll program, InTime body

instance (program : List Stmt) : Decidable (DeclaresInTime program) :=
  inferInstanceAs (Decidable (∀ body ∈ Stmt.bodiesOfAll program, InTime body))

/-! ## Regions around an occurrence

A context is walked along with the names declared so far. At each place, the regions further out
will declare nothing any more that the name could mean (`Context.Settles`), and the innermost region
may still have some names to come (`Context.Awaits`). The lemmas say how these two facts pass on
when a name is declared, when a region is entered, and when the first statement of a row is
entered. -/

/-- The region has declared the name already, or never does. -/
def Frame.Settles (frame : Frame) (name : String) : Prop :=
  name ∈ frame.region.declared → name ∈ frame.names

/-- All regions of the context have declared the name already, or never do. -/
def Context.Settles (context : Context) (name : String) : Prop :=
  ∀ frame ∈ context, frame.Settles name

/-- What a region around the occurrence declares under its name has been declared before it. The
innermost region alone may be about to declare the name: in the statement that the occurrence
itself stands in, as an initial value or a superclass does. -/
structure Occurrence.Settled (o : Occurrence) : Prop where
  outer : Context.Settles o.context.tail o.token.lexeme
  innermost : ∀ frame ∈ o.context.head?, o.token.lexeme ∈ frame.region.declared →
    o.token.lexeme ∈ frame.names ∨
      ∃ stmt : Stmt, o.token.lexeme ∈ stmt.declared ∧ o ∈ stmt.occurrences o.context

/-- The innermost region of the context may still declare the name, as one of `names`; the others
have declared it already, or never do. -/
structure Context.Awaits (context : Context) (names : List String) (name : String) : Prop where
  outer : Context.Settles context.tail name
  innermost : ∀ frame ∈ context.head?, name ∈ frame.region.declared →
    name ∈ frame.names ∨ name ∈ names

section

variable {context : Context} {names more : List String} {name : String} {region : Region}

/-- Outside all regions there is nothing to declare. -/
theorem Context.settles_nil (name : String) : Context.Settles [] name :=
  fun _ hmem => nomatch hmem

/-- One region more, which has declared the name or never does. -/
theorem Context.Settles.cons {frame : Frame} (hframe : frame.Settles name)
    (houter : context.Settles name) : Context.Settles (frame :: context) name :=
  List.forall_mem_cons.mpr ⟨hframe, houter⟩

/-- Where nothing more is to come, what is awaited has been declared. -/
theorem Context.Awaits.settles (h : context.Awaits [] name) : context.Settles name := by
  cases context with
  | nil => exact Context.settles_nil name
  | cons frame outer =>
    refine Context.Settles.cons ?_ h.outer
    intro hdeclared
    exact (h.innermost frame rfl hdeclared).resolve_right List.not_mem_nil

/-- Names that are declared now are no longer to come. -/
theorem Context.Awaits.declare (h : context.Awaits (names ++ more) name) :
    (context.declare names).Awaits more name := by
  cases context with
  | nil => exact ⟨Context.settles_nil name, fun _ hframe => nomatch hframe⟩
  | cons frame outer =>
    refine ⟨h.outer, ?_⟩
    intro declared hframe hregion
    obtain rfl := Option.some.inj hframe
    rcases h.innermost frame rfl hregion with hbefore | hnew
    · exact .inl (List.mem_append_left _ hbefore)
    · rcases List.mem_append.mp hnew with hnow | hlater
      · exact .inl (List.mem_append_right _ hnow)
      · exact .inr hlater

/-- Once the last names are declared, nothing more is to come. -/
theorem Context.Awaits.declare_settles (h : context.Awaits names name) :
    (context.declare names).Settles name := by
  have h : context.Awaits (names ++ []) name := by rwa [List.append_nil]
  exact h.declare.settles

/-- A region that is entered still has all its names to declare. -/
theorem Context.Settles.enter (h : context.Settles name) (hregion : region.declared = names) :
    (context.enter region).Awaits names name where
  outer := h
  innermost := by
    intro frame hframe hdeclared
    obtain rfl := Option.some.inj hframe
    exact .inr (hregion ▸ hdeclared)

/-- The parameters of a function are declared all at once, before its body, whose own names are to
come. -/
theorem Context.Settles.enterFunction (h : context.Settles name) (decl : FunctionDecl)
    (isMethod : Bool) :
    (context.enterFunction decl isMethod).Awaits (Stmt.declaredByAll decl.body) name := by
  have hparameters : Frame.Settles
      ⟨.parameters decl isMethod, decl.params.map Token.lexeme⟩ name := fun hdeclared => hdeclared
  exact (Context.Settles.cons hparameters h).enter rfl

/-- A row declares what its statements declare, and nothing else. -/
theorem mem_declaredByAll {statements : List Stmt} :
    name ∈ Stmt.declaredByAll statements ↔ ∃ stmt ∈ statements, name ∈ stmt.declared := by
  induction statements with
  | nil => exact iff_of_false List.not_mem_nil fun ⟨_, hmem, _⟩ => nomatch hmem
  | cons stmt rest ih =>
    rw [Stmt.declaredByAll, List.mem_append, ih]
    constructor
    · rintro (hname | ⟨other, hother, hname⟩)
      · exact ⟨stmt, .head _, hname⟩
      · exact ⟨other, .tail _ hother, hname⟩
    · rintro ⟨other, hother, hname⟩
      rcases List.mem_cons.mp hother with rfl | hother
      · exact .inl hname
      · exact .inr ⟨other, hother, hname⟩

/-- Statements that declare in time do not declare what the first of them mentions. -/
theorem Context.Awaits.head {stmt : Stmt} {rest : List Stmt}
    (h : context.Awaits (Stmt.declaredByAll (stmt :: rest)) name)
    (htime : context ≠ [] → InTime (stmt :: rest)) (hmentioned : name ∈ stmt.mentioned) :
    context.Awaits stmt.declared name where
  outer := h.outer
  innermost := by
    intro frame hframe hdeclared
    rcases h.innermost frame hframe hdeclared with hbefore | hnew
    · exact .inl hbefore
    -- The name is mentioned here, so no later statement of the row declares it.
    · refine .inr ((List.mem_append.mp hnew).resolve_right fun hlater => ?_)
      have hne : context ≠ [] := by
        rintro rfl
        cases hframe
      obtain ⟨other, hother, hname⟩ := mem_declaredByAll.mp hlater
      exact (List.pairwise_cons.mp (htime hne)).1 other hother name hname hmentioned

/-- Names that are placed in a context occur in that context. -/
theorem context_of_mem_place {uses : List (Role × Token)} {o : Occurrence}
    (h : o ∈ context.place uses) : o.context = context := by
  obtain ⟨use, -, rfl⟩ := List.mem_map.mp h
  rfl

/-- A declaration of a name is no use of it. -/
theorem not_use_of_mem_placeDeclared {declared : List Token} {o : Occurrence}
    (h : o ∈ context.placeDeclared declared) : o.role.isUse = false := by
  obtain ⟨use, huse, rfl⟩ := List.mem_map.mp h
  obtain ⟨token, -, rfl⟩ := List.mem_map.mp huse
  rfl

/-- A name at a place where nothing more is to be declared. -/
theorem Context.Settles.place {uses : List (Role × Token)} {o : Occurrence}
    (h : context.Settles o.token.lexeme) (hplace : o ∈ context.place uses) : o.Settled := by
  have hcontext := context_of_mem_place hplace
  constructor
  · intro frame hframe
    rw [hcontext] at hframe
    exact h frame (List.mem_of_mem_tail hframe)
  · intro frame hframe hdeclared
    rw [hcontext] at hframe
    exact .inl (h frame (List.mem_of_mem_head? hframe) hdeclared)

/-- A name in a statement that may be about to declare it. -/
theorem Context.Awaits.place {uses : List (Role × Token)} {stmt : Stmt} {o : Occurrence}
    (h : context.Awaits stmt.declared o.token.lexeme) (hplace : o ∈ context.place uses)
    (ho : o ∈ stmt.occurrences context) : o.Settled := by
  have hcontext := context_of_mem_place hplace
  rw [← hcontext] at h ho
  refine ⟨h.outer, ?_⟩
  intro frame hframe hdeclared
  rcases h.innermost frame hframe hdeclared with hbefore | hnow
  · exact .inl hbefore
  · exact .inr ⟨stmt, hnow, ho⟩

end

/-! ## Occurrences in time

The occurrence is looked for in the program, and the context that has been walked through is that of
the occurrence in the end. The walk carries `Context.Awaits` for the names of the statement it is
in. -/

mutual

/-- What a region around an occurrence declares at all it has declared before. Where a region is
entered, the one outside is settled: the statement that is entered declares nothing there, or has
done so. -/
theorem Stmt.settled {o : Occurrence} (huse : o.role.isUse = true) : ∀ (stmt : Stmt)
    (context : Context), o ∈ stmt.occurrences context → (∀ body ∈ stmt.bodies, InTime body) →
    context.Awaits stmt.declared o.token.lexeme → o.Settled
  | .expression expr, context, ho, _, hawaits => by
    rw [Stmt.occurrences] at ho
    exact hawaits.settles.place ho
  | .print expr, context, ho, _, hawaits => by
    rw [Stmt.occurrences] at ho
    exact hawaits.settles.place ho
  | .varDecl name init, context, ho, _, hawaits => by
    have hplace := ho
    rw [Stmt.occurrences] at hplace
    rcases List.mem_append.mp hplace with hdeclared | hplace
    · rw [not_use_of_mem_placeDeclared hdeclared] at huse
      cases huse
    · exact hawaits.place hplace ho
  | .block body, context, ho, htime, hawaits => by
    rw [Stmt.occurrences] at ho
    rw [Stmt.bodies] at htime
    obtain ⟨hbody, hinner⟩ := List.forall_mem_cons.mp htime
    exact Stmt.settled_ofAll huse body _ ho (fun _ => hbody) hinner (hawaits.settles.enter rfl)
  | .ifElse condition thenBranch none, context, ho, htime, hawaits => by
    rw [Stmt.occurrences] at ho
    rw [Stmt.bodies] at htime
    rcases List.mem_append.mp ho with ho | ho
    · exact hawaits.settles.place ho
    · exact Stmt.settled huse thenBranch _ ho htime (hawaits.settles.enter rfl)
  | .ifElse condition thenBranch (some elseBranch), context, ho, htime, hawaits => by
    rw [Stmt.occurrences] at ho
    rw [Stmt.bodies] at htime
    obtain ⟨hthen, helse⟩ := List.forall_mem_append.mp htime
    rcases List.mem_append.mp ho with ho | ho
    · rcases List.mem_append.mp ho with ho | ho
      · exact hawaits.settles.place ho
      · exact Stmt.settled huse thenBranch _ ho hthen (hawaits.settles.enter rfl)
    · exact Stmt.settled huse elseBranch _ ho helse (hawaits.settles.enter rfl)
  | .whileLoop condition body, context, ho, htime, hawaits => by
    rw [Stmt.occurrences] at ho
    rw [Stmt.bodies] at htime
    rcases List.mem_append.mp ho with ho | ho
    · exact hawaits.settles.place ho
    · exact Stmt.settled huse body _ ho htime (hawaits.settles.enter rfl)
  | .forLoop none condition post body, context, ho, htime, hawaits => by
    rw [Stmt.occurrences] at ho
    rw [Stmt.bodies] at htime
    have hclauses : (context.enter (.header none)).Awaits [] o.token.lexeme :=
      hawaits.settles.enter rfl
    rcases List.mem_append.mp ho with ho | ho
    · rcases List.mem_append.mp ho with ho | ho
      · exact hclauses.settles.place ho
      · exact hclauses.settles.place ho
    · exact Stmt.settled huse body _ ho htime (hclauses.settles.enter rfl)
  | .forLoop (some init) condition post body, context, ho, htime, hawaits => by
    rw [Stmt.occurrences] at ho
    rw [Stmt.bodies] at htime
    obtain ⟨hinit, hbody⟩ := List.forall_mem_append.mp htime
    -- The clause that declares comes first, and the others and the body see its name.
    have hheader : (context.enter (.header (some init))).Awaits init.declared o.token.lexeme :=
      hawaits.settles.enter rfl
    rcases List.mem_append.mp ho with ho | ho
    · rcases List.mem_append.mp ho with ho | ho
      · rcases List.mem_append.mp ho with ho | ho
        · exact Stmt.settled huse init _ ho hinit hheader
        · exact hheader.declare_settles.place ho
      · exact hheader.declare_settles.place ho
    · exact Stmt.settled huse body _ ho hbody (hheader.declare_settles.enter rfl)
  | .function decl, context, ho, htime, hawaits => by
    rw [Stmt.occurrences] at ho
    rw [Stmt.bodies] at htime
    rcases List.mem_append.mp ho with hdeclared | ho
    · rw [not_use_of_mem_placeDeclared hdeclared] at huse
      cases huse
    · have hname : (Stmt.function decl).declared = [decl.name.lexeme] := by
        cases decl
        rfl
      -- The body of a function sees the name of the function.
      rw [hname] at hawaits
      exact FunctionDecl.settled huse decl _ false ho htime hawaits.declare_settles
  | .returnValue keyword value, context, ho, _, hawaits => by
    rw [Stmt.occurrences] at ho
    exact hawaits.settles.place ho
  | .classDecl name superclass methods, context, ho, htime, hawaits => by
    have hplace := ho
    rw [Stmt.occurrences] at hplace
    rw [Stmt.bodies] at htime
    rcases List.mem_append.mp hplace with hplace | hmethods
    · rcases List.mem_append.mp hplace with hdeclared | hplace
      · rw [not_use_of_mem_placeDeclared hdeclared] at huse
        cases huse
      -- The superclass is looked up before the class has its name, which its methods see.
      · exact hawaits.place hplace ho
    · exact FunctionDecl.settled_ofAll huse methods _ hmethods htime hawaits.declare_settles

/-- The statements of the program itself need not declare in time: what they declare is global. -/
theorem Stmt.settled_ofAll {o : Occurrence} (huse : o.role.isUse = true) :
    ∀ (statements : List Stmt) (context : Context),
    o ∈ Stmt.occurrencesOfAll context statements → (context ≠ [] → InTime statements) →
    (∀ body ∈ Stmt.bodiesOfAll statements, InTime body) →
    context.Awaits (Stmt.declaredByAll statements) o.token.lexeme →
    o.Settled
  | [], _, ho, _, _, _ => nomatch ho
  | stmt :: rest, context, ho, htime, hinner, hawaits => by
    rw [Stmt.occurrencesOfAll] at ho
    rw [Stmt.bodiesOfAll] at hinner
    obtain ⟨hstmt, hrest⟩ := List.forall_mem_append.mp hinner
    rcases List.mem_append.mp ho with ho | ho
    · have hmentioned := Stmt.mem_mentioned ho huse
      exact Stmt.settled huse stmt context ho hstmt (hawaits.head htime hmentioned)
    · -- The rest of a row that declares in time does so, too.
      refine Stmt.settled_ofAll huse rest _ ho ?_ hrest hawaits.declare
      intro hne
      have hcontext : context ≠ [] := by
        rintro rfl
        exact hne rfl
      exact (List.pairwise_cons.mp (htime hcontext)).2

/-- In a function, what is around it must be settled; its own body declares in time. -/
theorem FunctionDecl.settled {o : Occurrence} (huse : o.role.isUse = true) :
    ∀ (decl : FunctionDecl) (context : Context) (isMethod : Bool),
    o ∈ decl.occurrences context isMethod → (∀ body ∈ decl.bodies, InTime body) →
    context.Settles o.token.lexeme → o.Settled
  | ⟨name, params, body⟩, context, isMethod, ho, htime, hsettles => by
    rw [FunctionDecl.occurrences] at ho
    rw [FunctionDecl.bodies] at htime
    obtain ⟨hbody, hinner⟩ := List.forall_mem_cons.mp htime
    rcases List.mem_append.mp ho with hdeclared | ho
    · rw [not_use_of_mem_placeDeclared hdeclared] at huse
      cases huse
    · exact Stmt.settled_ofAll huse body _ ho (fun _ => hbody) hinner
        (hsettles.enterFunction ⟨name, params, body⟩ isMethod)

/-- The methods of a class stand beside each other and declare nothing in the class. -/
theorem FunctionDecl.settled_ofAll {o : Occurrence} (huse : o.role.isUse = true) :
    ∀ (decls : List FunctionDecl) (context : Context),
    o ∈ FunctionDecl.occurrencesOfAll context decls →
    (∀ body ∈ FunctionDecl.bodiesOfAll decls, InTime body) →
    context.Settles o.token.lexeme → o.Settled
  | [], _, ho, _, _ => nomatch ho
  | decl :: rest, context, ho, htime, hsettles => by
    rw [FunctionDecl.occurrencesOfAll] at ho
    rw [FunctionDecl.bodiesOfAll] at htime
    obtain ⟨hdecl, hrest⟩ := List.forall_mem_append.mp htime
    rcases List.mem_append.mp ho with ho | ho
    · exact FunctionDecl.settled huse decl context true ho hdecl hsettles
    · exact FunctionDecl.settled_ofAll huse rest context ho hrest hsettles

end

/-- In a program that declares in time, the regions around an occurrence have declared the name
before it or never do; the innermost one alone may be about to. -/
theorem programOccurrences_settled {program : List Stmt} (h : DeclaresInTime program)
    {o : Occurrence} (ho : o ∈ programOccurrences program) (huse : o.role.isUse = true) :
    o.Settled := by
  refine Stmt.settled_ofAll huse program [] ho (fun hne => absurd rfl hne) h ?_
  exact ⟨Context.settles_nil _, fun _ hframe => nomatch hframe⟩

end Script
