import Script.LogFilter.Pattern.Bracket
import Script.Text.Letter

/-!
# Parsing patterns

A pattern is a choice of branches, a branch a sequence of parts, and a part a single thing, a set, a
group or the repetition of a part. Flags hold from where they are set to the end of the group.
-/

namespace Script

namespace LogFilter

/-- Why a text cannot be used as a pattern. -/
inductive PatternError where
  /-- The text is no pattern. -/
  | invalid
  /-- The pattern asks for positions between words of any script. -/
  | wordBoundary
deriving DecidableEq, Repr

namespace PatternError

/-- The wording of the error, as it stands in the report on the directive. -/
def message : PatternError → String
  | invalid => "error building NFA"
  | wordBoundary =>
    "unsupported regex feature for DFAs: cannot build DFAs for regexes with Unicode word " ++
      "boundaries; switch to ASCII word boundaries, or heuristically enable Unicode word " ++
      "boundaries or use a different regex engine"

end PatternError

namespace Reader

/-- Whether a character may stand in the name of a group. -/
def isNameCharacter (c : Char) : Bool :=
  c = '_' || c = '.' || c = '[' || c = ']' || Text.isAlphanumeric c

/-- Whether a text is the name of a group. -/
def isGroupName : List Char → Bool
  | [] => false
  | c :: rest => (c = '_' || Text.isLetter c) && rest.all isNameCharacter

/-- Reads the name of a group and the angle bracket after it. No other group has this name. -/
def groupName : Reader Unit := fun s =>
  let name := s.rest.takeWhile (· ≠ '>')
  match s.rest.dropWhile (· ≠ '>') with
  | [] => none
  | _ :: rest =>
    if isGroupName name && !s.names.contains name then
      some ((), { s with rest := rest, names := name :: s.names })
    else none

/-- The flags that letters set, up to a colon or a closing parenthesis, with that character and
what follows it. Letters after a hyphen unset flags. No letter occurs twice, and a hyphen is not the
last character; `seen` are the characters before. -/
def flagsFrom (flags : Flags) (value : Bool) (seen : List Char) :
    List Char → Option (Flags × Char × List Char × List Char)
  | [] => none
  | c :: rest =>
    if c = ':' ∨ c = ')' then
      if seen.head? = some '-' then none else some (flags, c, seen, rest)
    else if seen.contains c then none
    else if c = '-' then flagsFrom flags false (c :: seen) rest
    else if Flags.letters.contains c then flagsFrom (flags.set c value) value (c :: seen) rest
    else none

/-- What an opening parenthesis begins, which is known only after the characters behind it. -/
inductive Opening where
  /-- A group, in which these flags hold. -/
  | group (flags : Flags)
  /-- No group, but flags for what follows. -/
  | flags (flags : Flags)
deriving DecidableEq, Repr

/-- Reads what follows an opening parenthesis up to where the group itself begins. -/
def opening : Reader Opening := do
  skipTrivia
  let flags := (← get).flags
  if ← acceptAll ['?', 'P', '<'] <||> acceptAll ['?', '<'] then
    groupName
    pure (.group flags)
  else if !(← accept '?') then pure (.group flags)
  else
    match flagsFrom flags true [] (← get).rest with
    | none => failure
    | some (flags, stop, seen, rest) =>
      modify fun s => { s with rest := rest }
      if stop = ':' then pure (.group flags)
      else if seen = [] then failure
      else pure (.flags flags)

/-- The pattern of a single thing, if the flags that hold at this place admit it. -/
def singlePattern (flags : Flags) : Single → Reader Pattern
  | .character c byHexPair => do
    require (flags.admits c byHexPair)
    pure .atom
  | .named negated => do
    require (!flags.unicode && !negated)
    pure .atom
  | .position betweenWords =>
    pure (if betweenWords && flags.unicode then .wordBoundary else .atom)

/-- Reads a single thing that starts with this character. A count of repetitions in braces is never
complete, since a closing brace ends the field that the pattern stands in. -/
def primary (c : Char) : Reader Pattern := do
  let flags := (← get).flags
  match c with
  | '{' => failure
  | '.' =>
    require flags.unicode
    pure .atom
  | '^' | '$' => pure .atom
  | _ => singlePattern flags (← single c)

mutual

/-- Reads a pattern up to its end, or up to the end of the group that it stands in. -/
def choice : Nat → Reader Pattern
  | 0 => failure
  | fuel + 1 => do
    let branches ← branchRow fuel
    pure (.ofBranches branches)

/-- Reads branches with vertical bars between them. -/
def branchRow : Nat → Reader (List Pattern)
  | 0 => failure
  | fuel + 1 => do
    let parts ← sequence fuel []
    if ← accept '|' then
      let others ← branchRow fuel
      pure (.ofParts parts :: others)
    else pure [.ofParts parts]

/-- Reads the parts of a branch; `done` are those before, the last one first. -/
def sequence : Nat → List Pattern → Reader (List Pattern)
  | 0, _ => failure
  | fuel + 1, done => do
    skipTrivia
    match ← peek with
    | none | some ')' | some '|' => pure done.reverse
    | some c =>
      let _ ← next
      if c = '(' then
        let p ← parenthesis fuel
        sequence fuel (p :: done)
      else if c = '[' then
        let set ← bracketed fuel
        require ((← get).flags.admitsSet set)
        sequence fuel (.set set :: done)
      else if c = '?' ∨ c = '*' ∨ c = '+' then
        match done with
        | [] => failure
        | last :: before =>
          require last.isRepeatable
          let _ ← accept '?'
          sequence fuel (.repetition last :: before)
      else
        let p ← primary c
        sequence fuel (p :: done)

/-- Reads what an opening parenthesis begins. After a group the flags are again what they were
before it. -/
def parenthesis : Nat → Reader Pattern
  | 0 => failure
  | fuel + 1 => do
    let outer := (← get).flags
    match ← opening with
    | .flags flags =>
      modify fun s => { s with flags := flags }
      pure .flags
    | .group flags =>
      modify fun s => { s with flags := flags }
      let inner ← choice fuel
      require (← accept ')')
      modify fun s => { s with flags := outer }
      pure (.group inner)

end

end Reader

namespace Pattern

/-- How deep a pattern may be nested. -/
def maxHeight : Nat := 250

/-- The pattern that a text writes. Each character takes fewer than five nested calls. -/
def ofText? (text : List Char) : Option Pattern :=
  match Reader.choice (5 * (text.length + 1)) ⟨text, .initial, []⟩ with
  | some (pattern, state) =>
    if state.rest = [] ∧ pattern.height ≤ maxHeight then some pattern else none
  | none => none

/-- Why a text cannot be used as a pattern, if it cannot. -/
def error? (text : List Char) : Option PatternError :=
  match ofText? text with
  | none => some .invalid
  | some pattern => if pattern.hasWordBoundary then some .wordBoundary else none

end Pattern

end LogFilter

end Script
