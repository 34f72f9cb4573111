/-!
# Spans

A span is a half-open range of byte offsets in the UTF-8 encoding of a source text. Tokens and
errors carry one, so that a report can point at the text it is about.

A byte is a place in a text only where a character begins or the text ends: taking or dropping a
number of bytes that ends inside a character yields nothing.
-/

namespace Script

/-- The bytes `start ≤ i < stop` of a source text. -/
structure Span where
  start : Nat
  stop : Nat
deriving DecidableEq, Repr, Inhabited

namespace Span

/-- The empty span at the beginning of a source, where no token has been seen yet. -/
def origin : Span := ⟨0, 0⟩

end Span

/-- The number of bytes that the characters take in UTF-8. -/
def utf8Length : List Char → Nat
  | [] => 0
  | c :: text => c.utf8Size + utf8Length text

@[simp] theorem utf8Length_nil : utf8Length [] = 0 := rfl

@[simp] theorem utf8Length_cons (c : Char) (text : List Char) :
    utf8Length (c :: text) = c.utf8Size + utf8Length text := rfl

@[simp] theorem utf8Length_append (a b : List Char) :
    utf8Length (a ++ b) = utf8Length a + utf8Length b := by
  induction a with
  | nil => simp
  | cons c a ih => simp only [List.cons_append, utf8Length_cons, ih]; omega

/-- A text without so many bytes at its beginning, if they are whole characters. -/
def dropBytes? (count : Nat) : List Char → Option (List Char)
  | [] => if count = 0 then some [] else none
  | c :: rest =>
    if count = 0 then some (c :: rest)
    else if count < c.utf8Size then none
    else dropBytes? (count - c.utf8Size) rest

/-- So many bytes at the beginning of a text, if they are whole characters. -/
def takeBytes? (count : Nat) : List Char → Option (List Char)
  | [] => if count = 0 then some [] else none
  | c :: rest =>
    if count = 0 then some []
    else if count < c.utf8Size then none
    else (takeBytes? (count - c.utf8Size) rest).map (c :: ·)

/-- Dropping the bytes of a beginning leaves what comes after it. -/
theorem dropBytes?_append (a b : List Char) : dropBytes? (utf8Length a) (a ++ b) = some b := by
  induction a with
  | nil => cases b <;> simp [dropBytes?]
  | cons c a ih =>
    have h := c.utf8Size_pos
    have h₁ : ¬(c.utf8Size + utf8Length a = 0) := by omega
    have h₂ : ¬(c.utf8Size + utf8Length a < c.utf8Size) := by omega
    simp only [List.cons_append, utf8Length_cons, dropBytes?, h₁, h₂, if_false,
      Nat.add_sub_cancel_left, ih]

/-- Taking the bytes of a beginning yields it. -/
theorem takeBytes?_append (a b : List Char) : takeBytes? (utf8Length a) (a ++ b) = some a := by
  induction a with
  | nil => cases b <;> simp [takeBytes?]
  | cons c a ih =>
    have h := c.utf8Size_pos
    have h₁ : ¬(c.utf8Size + utf8Length a = 0) := by omega
    have h₂ : ¬(c.utf8Size + utf8Length a < c.utf8Size) := by omega
    simp only [List.cons_append, utf8Length_cons, takeBytes?, h₁, h₂, if_false,
      Nat.add_sub_cancel_left, ih, Option.map_some]

end Script
