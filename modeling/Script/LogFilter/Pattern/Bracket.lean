import Script.LogFilter.Pattern.Escape

/-!
# Sets in brackets

A set lists characters, ranges and named classes, and may hold other sets. Operators between its
parts intersect them or take their difference, from left to right.
-/

namespace Script

namespace LogFilter

namespace Reader

/-- The names of the classes that are written between colons. -/
def classNames : List String :=
  ["alnum", "alpha", "ascii", "blank", "cntrl", "digit", "graph", "lower", "print", "punct",
   "space", "upper", "word", "xdigit"]

/-- Reads a class between colons after an opening bracket, and the closing one; nothing is read if
what follows is no such class. A complement does not stay within ASCII. -/
def namedClass? : Reader (Option CharSet) := fun s =>
  let noClass := some (none, s)
  match s.rest with
  | ':' :: rest =>
    let (negated, rest) := match rest with
      | '^' :: rest => (true, rest)
      | _ => (false, rest)
    let name := String.ofList (rest.takeWhile (· ≠ ':'))
    match rest.dropWhile (· ≠ ':') with
    | ':' :: ']' :: rest =>
      if classNames.contains name then some (some (.atom !negated), { s with rest := rest })
      else noClass
    | _ => noClass
  | _ => noClass

/-- Reads a single thing that starts with this character. -/
def single (c : Char) : Reader Single := if c = '\\' then escape else pure (.character c false)

/-- The set of a single thing. Named classes of characters are not known, only those of bytes. -/
def singleSet : Single → Reader CharSet
  | .character c _ => pure (.atom (decide (c.toNat < 128)))
  | .named negated => do
    require !(← get).flags.unicode
    pure (.atom !negated)
  | .position _ => failure

/-- Reads a character, a range or a named class that starts with this character. A hyphen makes a
range unless a bracket or another hyphen follows. -/
def part (c : Char) : Reader CharSet := do
  let first ← single c
  skipTrivia
  let s ← get
  match s.rest with
  | '-' :: rest =>
    let after := afterHyphen s.flags.verbose rest
    if after = some ']' ∨ after = some '-' then singleSet first
    else do
      let _ ← next
      skipTrivia
      match first, ← single (← next) with
      | .character low _, .character high _ =>
        require (decide (low ≤ high))
        pure (.atom (decide (high.toNat < 128)))
      | _, _ => failure
  | _ => singleSet first

/-- Reads the hyphens at the beginning of a set, which stand for themselves. -/
def hyphens : Nat → Reader (List CharSet)
  | 0 => failure
  | fuel + 1 => do
    if ← accept '-' then
      skipTrivia
      let others ← hyphens fuel
      pure (.atom true :: others)
    else pure []

/-- Reads the beginning of a set after its bracket: whether it is a complement, and characters that
mean something else further on. A closing bracket stands for itself if nothing is before it. -/
def setStart (fuel : Nat) : Reader (Bool × List CharSet) := do
  skipTrivia
  let negated ← accept '^'
  skipTrivia
  match ← hyphens fuel with
  | [] =>
    let bracket ← accept ']'
    pure (negated, if bracket then [.atom true] else [])
  | parts => pure (negated, parts)

/-- The operand that some parts are, after those to the left of it. -/
def operand (left : Option CharSet) (parts : List CharSet) : CharSet :=
  match left with
  | none => .ofParts parts
  | some left => .operation left (.ofParts parts)

mutual

/-- Reads a set after its opening bracket. -/
def bracketed : Nat → Reader CharSet
  | 0 => failure
  | fuel + 1 => do
    let (negated, parts) ← setStart fuel
    let inner ← setRest fuel none parts
    pure (.bracketed negated inner)

/-- Reads a set to its closing bracket; `left` is what the last operator applies to, and `parts`
are the parts since. -/
def setRest : Nat → Option CharSet → List CharSet → Reader CharSet
  | 0, _, _ => failure
  | fuel + 1, left, parts => do
    skipTrivia
    let c ← next
    if c = ']' then pure (operand left parts)
    else if c = '[' then
      match ← namedClass? with
      | some set => setRest fuel left (parts ++ [set])
      | none =>
        let set ← bracketed fuel
        setRest fuel left (parts ++ [set])
    else if ← pure (['&', '-', '~'].contains c) <&&> accept c then
      setRest fuel (some (operand left parts)) []
    else
      let set ← part c
      setRest fuel left (parts ++ [set])

end

end Reader

end LogFilter

end Script
