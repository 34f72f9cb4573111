import Script.Syntax.Tree

/-!
# The nodes of a program

Expressions, statements and functions are the *nodes* of a program. `Node.children` lists the nodes
that a node consists of, in the order of the text, whatever they are to it: operands, callees,
arguments, clauses, branches, bodies or methods. All nodes of a program are found by going from
each statement to its children again and again (`nodesOf`), each of them once.
-/

namespace Script

/-- A part of a program that has parts itself. -/
inductive Node where
  | expr (e : Expr)
  | stmt (s : Stmt)
  | function (decl : FunctionDecl)

/-- The expressions that an expression consists of. -/
def Expr.operands : Expr → List Expr
  | .literal _ | .variable _ | .this _ | .superGet _ _ => []
  | .grouping inner => [inner]
  | .unary _ operand => [operand]
  | .binary left _ right => [left, right]
  | .call callee _ arguments => callee :: arguments
  | .get object _ => [object]
  | .set object _ value => [object, value]
  | .superCall _ arguments => arguments

/-- What a statement consists of: expressions, statements and functions, in the order of the
text. -/
def Stmt.parts : Stmt → List Node
  | .expression expr | .print expr => [.expr expr]
  | .varDecl _ init => init.toList.map .expr
  | .block body => body.map .stmt
  | .ifElse condition thenBranch elseBranch =>
    .expr condition :: .stmt thenBranch :: elseBranch.toList.map .stmt
  | .whileLoop condition body => [.expr condition, .stmt body]
  | .forLoop init condition post body =>
    init.toList.map .stmt ++ condition.toList.map .expr ++ post.toList.map .expr ++ [.stmt body]
  | .function decl => [.function decl]
  | .returnValue _ value => value.toList.map .expr
  | .classDecl _ _ methods => methods.map .function

/-- The nodes that a node consists of. -/
def Node.children : Node → List Node
  | .expr e => e.operands.map .expr
  | .stmt s => s.parts
  | .function decl => decl.body.map .stmt

/-! ## Children are smaller

This is what the recursion over all nodes rests on. -/

/-- An operand is smaller than the expression, also where it comes in a list of arguments. -/
theorem Expr.sizeOf_operand {expr operand : Expr} (h : operand ∈ expr.operands) :
    sizeOf operand < sizeOf expr := by
  have harguments : ∀ {arguments : List Expr}, operand ∈ arguments →
      sizeOf operand < sizeOf arguments := List.sizeOf_lt_of_mem
  cases expr <;> simp [Expr.operands] at h ⊢ <;> grind

/-- A part of a statement is no larger than the statement. As a node it is counted with one more. -/
theorem Stmt.sizeOf_part {stmt : Stmt} {part : Node} (h : part ∈ stmt.parts) :
    sizeOf part < 1 + sizeOf stmt := by
  have hbody : ∀ {s : Stmt} {body : List Stmt}, s ∈ body → sizeOf s < sizeOf body :=
    List.sizeOf_lt_of_mem
  have hmethods : ∀ {decl : FunctionDecl} {methods : List FunctionDecl}, decl ∈ methods →
      sizeOf decl < sizeOf methods := List.sizeOf_lt_of_mem
  cases stmt <;> simp [Stmt.parts] at h ⊢ <;> grind

/-- So a child is smaller than its node. -/
theorem Node.sizeOf_child {node child : Node} (h : child ∈ node.children) :
    sizeOf child < sizeOf node := by
  cases node with
  | expr e =>
    obtain ⟨operand, hmem, rfl⟩ := List.mem_map.mp h
    have hlt := Expr.sizeOf_operand hmem
    simpa using hlt
  | stmt s =>
    have hlt := Stmt.sizeOf_part h
    simpa using hlt
  | function decl =>
    obtain ⟨name, params, body⟩ := decl
    obtain ⟨s, hmem, rfl⟩ := List.mem_map.mp h
    have hlt := List.sizeOf_lt_of_mem hmem
    rw [Node.stmt.sizeOf_spec, Node.function.sizeOf_spec, FunctionDecl.mk.sizeOf_spec]
    dsimp only at hlt
    omega

/-! ## All nodes

A node comes before those below it, and these come child by child. -/

/-- A node and everything below it: the node first, and then its children from left to right. The
recursion is on the size of the node, since children come in lists. -/
def Node.subtree (node : Node) : List Node :=
  node :: node.children.attach.flatMap fun child => child.1.subtree
termination_by node
decreasing_by exact Node.sizeOf_child child.2

/-- The recursion without the proofs that it carries along. -/
theorem Node.subtree_eq (node : Node) :
    node.subtree = node :: node.children.flatMap Node.subtree := by
  rw [Node.subtree, List.flatMap_subtype (fun _ _ => rfl), List.unattach_attach]

/-- The nodes of a program, each statement with all that is below it. -/
def nodesOf (program : List Stmt) : List Node := (program.map Node.stmt).flatMap Node.subtree

end Script
