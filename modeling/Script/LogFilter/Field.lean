import Script.LogFilter.Pattern.Parser

/-!
# Fields

A filter may ask for a field by its name, or by its name and its value. The value is a truth value,
a number, or else a pattern.
-/

namespace Script

namespace LogFilter

/-- Whether a text is a row of digits with at most one point, at least one of them a digit, and
perhaps an exponent. -/
def isNumeral (text : List Char) : Bool :=
  let whole := text.takeWhile Char.isDigit
  let (fraction, rest) := match text.dropWhile Char.isDigit with
    | '.' :: rest => (rest.takeWhile Char.isDigit, rest.dropWhile Char.isDigit)
    | rest => ([], rest)
  let exponent := match rest with
    | [] => true
    | c :: rest =>
      let digits := match rest with
        | '+' :: digits => digits
        | '-' :: digits => digits
        | _ => rest
      (c = 'e' || c = 'E') && !digits.isEmpty && digits.all Char.isDigit
  !(whole ++ fraction).isEmpty && exponent

/-- Whether a text is a number, which may have a sign. Infinity and what is not a number are written
as words, in any case of letters. -/
def isNumber (text : List Char) : Bool :=
  let magnitude := match text with
    | '+' :: rest => rest
    | '-' :: rest => rest
    | _ => text
  let word := String.ofList (magnitude.map Char.toLower)
  ["inf", "infinity", "nan"].contains word || isNumeral magnitude

/-- The value that a field is asked for: what stands between its first two equals signs. -/
def fieldValue? (field : List Char) : Option (List Char) :=
  match field.dropWhile (· ≠ '=') with
  | [] => none
  | _ :: value => some (value.takeWhile (· ≠ '='))

/-- Why a field cannot be asked for, if it cannot. The truth values are patterns too, so that they
need no case of their own. -/
def fieldError? (field : List Char) : Option PatternError :=
  match fieldValue? field with
  | none => none
  | some value => if isNumber value then none else Pattern.error? value

end LogFilter

end Script
