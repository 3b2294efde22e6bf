import LoxSyntax.Binary64.Shortest
import LoxSyntax.Text.Digit
import LoxSyntax.Text.Quoted

/-!
# Literal values

A literal stands for nil, a truth value, a text or a number.

* `written` shows a value the way a program would write it.
* `inspected` shows it unambiguously, with texts escaped.
* `agrees` is the equality of values, under which a truth value equals the number one or zero
  and the two zeros are equal.
-/

namespace LoxSyntax

/-- The value of a literal; a token without a value carries nil. -/
inductive Value where
  | nil
  | bool (truth : Bool)
  | string (text : String)
  | number (number : Binary64)
deriving DecidableEq

namespace Value

/-- A number the way a program would write it: a whole number with all its digits, any other
number by its shortest decimal. -/
def writtenNumber (number : Binary64) : List Char :=
  match number.toInt? with
  | some whole => Text.decimal whole
  | none => number.shortestText

/-- A value the way a program would write it.  A text stands between double quotes as it is. -/
def written : Value → String
  | nil => "nil"
  | bool truth => if truth then "true" else "false"
  | string text => "\"" ++ text ++ "\""
  | number value => String.ofList (writtenNumber value)

/-- A value shown unambiguously. -/
def inspected : Value → String
  | nil => "None"
  | bool truth => if truth then "True" else "False"
  | string text => Text.quoted text
  | number value => String.ofList value.shortestText

/-- The number that a truth value or a number is equal to. -/
def asNumber? : Value → Option Binary64
  | bool truth => some (if truth then .ofDecimal false 1 0 else .zero false)
  | number value => some value
  | _ => none

/-- Whether two numbers are equal.  The two zeros are, and what is not a number never is. -/
def numbersAgree (left right : Binary64) : Bool :=
  !left.isUndefined && left.magnitude = right.magnitude &&
    (left.negative = right.negative || left.magnitude = 0)

def agrees (left right : Value) : Bool :=
  match left.asNumber?, right.asNumber? with
  | some leftNumber, some rightNumber => numbersAgree leftNumber rightNumber
  | _, _ => left = right

end Value

end LoxSyntax
