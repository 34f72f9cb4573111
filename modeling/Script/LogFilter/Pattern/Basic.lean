/-!
# Patterns

The regular expressions that a log filter may compare the values of fields with. Nothing is ever
matched here; a filter only has to know which texts are patterns, and which patterns it supports.
The trees keep as much of a pattern as that takes: how it is nested, and where it has to know the
words of all scripts or the two cases of letters.
-/

namespace Script

namespace LogFilter

/-- How a part of a pattern is read. -/
structure Flags where
  /-- Upper and lower case are the same. -/
  ignoreCase : Bool
  /-- The pattern is about characters, and not about bytes. -/
  unicode : Bool
  /-- Blanks and comments between the parts of a pattern mean nothing. -/
  verbose : Bool
deriving DecidableEq, Repr

namespace Flags

/-- The flags at the beginning of a pattern. -/
def initial : Flags := ⟨false, true, false⟩

/-- The letters of the flags. Those that `Flags` does not hold decide nothing about whether a text
is a pattern. -/
def letters : List Char := ['i', 'm', 's', 'U', 'u', 'R', 'x']

/-- The flags after one of them was set by its letter. -/
def set (flags : Flags) (letter : Char) (value : Bool) : Flags :=
  match letter with
  | 'i' => { flags with ignoreCase := value }
  | 'u' => { flags with unicode := value }
  | 'x' => { flags with verbose := value }
  | _ => flags

end Flags

/-! ## Sets of characters -/

/-- What stands between the brackets of a set of characters. -/
inductive CharSet where
  | empty
  /-- A character, a range or a named class, and whether it stays within ASCII. -/
  | atom (ascii : Bool)
  | bracketed (negated : Bool) (inner : CharSet)
  | union (parts : List CharSet)
  /-- An intersection or a difference. -/
  | operation (left right : CharSet)
deriving Repr

namespace CharSet

/-- The set of some parts side by side. -/
def ofParts : List CharSet → CharSet
  | [] => .empty
  | [part] => part
  | parts => .union parts

mutual

/-- How deep brackets, unions and operations are nested. -/
def height : CharSet → Nat
  | empty => 0
  | atom _ => 0
  | bracketed _ inner => inner.height + 1
  | union parts => greatestHeight parts + 1
  | operation left right => max left.height right.height + 1

/-- The greatest height of some sets, and zero where there are none. -/
def greatestHeight : List CharSet → Nat
  | [] => 0
  | part :: rest => max part.height (greatestHeight rest)

end

mutual

/-- Whether all parts of a set stay within ASCII. The complement of such a set never does. -/
def isAscii : CharSet → Bool
  | empty => true
  | atom ascii => ascii
  | bracketed negated inner => !negated && inner.isAscii
  | union parts => areAscii parts
  | operation left right => left.isAscii && right.isAscii

/-- Whether all of these sets stay within ASCII. -/
def areAscii : List CharSet → Bool
  | [] => true
  | part :: rest => part.isAscii && areAscii rest

end

mutual

/-- Whether a set is made of nothing, so that it holds no letters that have a case. -/
def isVacant : CharSet → Bool
  | empty => true
  | atom _ => false
  | bracketed negated inner => !negated && inner.isVacant
  | union parts => areVacant parts
  | operation left right => left.isVacant && right.isVacant

/-- Whether all of these sets are made of nothing. -/
def areVacant : List CharSet → Bool
  | [] => true
  | part :: rest => part.isVacant && areVacant rest

end

end CharSet

/-! ## Trees -/

/-- A pattern, as far as it matters for whether it is accepted. -/
inductive Pattern where
  | empty
  /-- Sets flags for what follows, and stands for nothing itself. -/
  | flags
  /-- A character, a class of characters or a position. -/
  | atom
  /-- A position between words, whatever their script. -/
  | wordBoundary
  | set (characters : CharSet)
  | repetition (inner : Pattern)
  | group (inner : Pattern)
  | sequence (parts : List Pattern)
  | choice (branches : List Pattern)
deriving Repr

namespace Pattern

/-- The pattern of some parts one after the other. -/
def ofParts : List Pattern → Pattern
  | [] => .empty
  | [part] => part
  | parts => .sequence parts

/-- The pattern that matches what one of the branches does. -/
def ofBranches : List Pattern → Pattern
  | [branch] => branch
  | branches => .choice branches

/-- Whether a pattern can be repeated. An empty pattern and one that only sets flags cannot. -/
def isRepeatable : Pattern → Bool
  | empty => false
  | flags => false
  | _ => true

mutual

/-- How deep a pattern is nested, sets included. A pattern that is nested deeper than `maxHeight` is
refused. -/
def height : Pattern → Nat
  | empty => 0
  | flags => 0
  | atom => 0
  | wordBoundary => 0
  | set characters => characters.height
  | repetition inner => inner.height + 1
  | group inner => inner.height + 1
  | sequence parts => greatestHeight parts + 1
  | choice branches => greatestHeight branches + 1

/-- The greatest height of some patterns, and zero where there are none. -/
def greatestHeight : List Pattern → Nat
  | [] => 0
  | part :: rest => max part.height (greatestHeight rest)

end

mutual

/-- Whether a pattern asks for positions between words of any script. -/
def hasWordBoundary : Pattern → Bool
  | wordBoundary => true
  | repetition inner => inner.hasWordBoundary
  | group inner => inner.hasWordBoundary
  | sequence parts => haveWordBoundary parts
  | choice branches => haveWordBoundary branches
  | empty => false
  | flags => false
  | atom => false
  | set _ => false

/-- Whether one of some patterns asks for positions between words. -/
def haveWordBoundary : List Pattern → Bool
  | [] => false
  | part :: rest => part.hasWordBoundary || haveWordBoundary rest

end

end Pattern

end LogFilter

end Script
