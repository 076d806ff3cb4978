import ScriptHost.Shell.Format
import ScriptHost.Shell.Token

/-!
# Arithmetic expansion

Integer expressions over variables. A name without a value counts as zero, and a
division by zero has no value.
-/

namespace ScriptHost
namespace Shell
namespace Arithmetic

/-- Why an expression has no value. -/
inductive Fault
  | missingOperand
  | divisionByZero
  | leftOver
deriving DecidableEq, Repr

/-- The text of a fault. -/
def Fault.message : Fault → String
  | .missingOperand => "expecting primary"
  | .divisionByZero => "division by zero"
  | .leftOver => "expecting EOF"

/-- A number, a name or an operator. -/
inductive Term
  | number (value : Int)
  | name (text : String)
  | operator (text : String)
deriving DecidableEq, Repr

/-- Operators of two characters. -/
def longOperators : List String :=
  ["<=", ">=", "==", "!=", "&&", "||"]

/-- Cut an expression into terms. `bound` is at least the number of characters. -/
def terms : Nat → List Char → List Term
  | 0, _ => []
  | _, [] => []
  | bound + 1, char :: rest =>
      if isBlank char || char = '\n' then terms bound rest
      else if char.isDigit then
        let digits := char :: rest.takeWhile Char.isAlphanum
        .number ((constant? digits).getD 0) :: terms bound (rest.dropWhile Char.isAlphanum)
      else if beginsName char then
        .name (String.ofList (char :: rest.takeWhile continuesName))
          :: terms bound (rest.dropWhile continuesName)
      else
        let long := String.ofList (char :: rest.take 1)
        if longOperators.contains long then .operator long :: terms bound (rest.drop 1)
        else .operator char.toString :: terms bound rest

/-- How tightly an operator between two operands binds. -/
def precedence? (operator : String) : Option Nat :=
  if operator = "||" then some 1
  else if operator = "&&" then some 2
  else if ["==", "!="].contains operator then some 3
  else if ["<", "<=", ">", ">="].contains operator then some 4
  else if ["+", "-"].contains operator then some 5
  else if ["*", "/", "%"].contains operator then some 6
  else none

/-- The number that stands for a truth value. -/
def ofBool (value : Bool) : Int :=
  if value then 1 else 0

/-- Apply an operator to two operands. -/
def combine (operator : String) (left right : Int) : Except Fault Int :=
  match operator with
  | "||" => .ok (ofBool (left ≠ 0 || right ≠ 0))
  | "&&" => .ok (ofBool (left ≠ 0 && right ≠ 0))
  | "==" => .ok (ofBool (left = right))
  | "!=" => .ok (ofBool (left ≠ right))
  | "<" => .ok (ofBool (left < right))
  | "<=" => .ok (ofBool (left ≤ right))
  | ">" => .ok (ofBool (right < left))
  | ">=" => .ok (ofBool (right ≤ left))
  | "+" => .ok (left + right)
  | "-" => .ok (left - right)
  | "*" => .ok (left * right)
  | "/" => if right = 0 then .error .divisionByZero else .ok (left.tdiv right)
  | "%" => if right = 0 then .error .divisionByZero else .ok (left.tmod right)
  | _ => .error .missingOperand

/-- What is evaluated next: an operand, or the operators after one that bind at least
as tightly as a level. -/
inductive Goal
  | operand
  | from (level : Nat)
  | after (level : Nat) (left : Int)

/-- Evaluate terms. `bound` limits the number of steps. -/
def evaluate (valueOf : String → Int) :
    Nat → Goal → List Term → Except Fault (Int × List Term)
  | 0, _, _ => .error .missingOperand
  | bound + 1, .operand, terms =>
      match terms with
      | .number value :: rest => .ok (value, rest)
      | .name text :: rest => .ok (valueOf text, rest)
      | .operator "-" :: rest => do
          let (value, rest) ← evaluate valueOf bound .operand rest
          pure (-value, rest)
      | .operator "+" :: rest => evaluate valueOf bound .operand rest
      | .operator "!" :: rest => do
          let (value, rest) ← evaluate valueOf bound .operand rest
          pure (ofBool (value = 0), rest)
      | .operator "(" :: rest => do
          let (value, rest) ← evaluate valueOf bound (.from 1) rest
          match rest with
          | .operator ")" :: rest => pure (value, rest)
          | _ => throw .missingOperand
      | _ => .error .missingOperand
  | bound + 1, .from level, terms => do
      let (left, rest) ← evaluate valueOf bound .operand terms
      evaluate valueOf bound (.after level left) rest
  | bound + 1, .after level left, terms =>
      match terms with
      | .operator text :: rest =>
          match precedence? text with
          | some here =>
              if here < level then .ok (left, terms)
              else do
                let (right, rest) ← evaluate valueOf bound (.from (here + 1)) rest
                evaluate valueOf bound (.after level (← combine text left right)) rest
          | none => .ok (left, terms)
      | _ => .ok (left, terms)

/-- The value of an expression. An empty one is zero. -/
def value
    (valueOf : String → Int)
    (expression : String) : Except Fault Int := do
  let terms := terms (expression.length + 1) expression.toList
  if terms.isEmpty then pure 0
  else
    let (value, rest) ← evaluate valueOf (4 * terms.length + 4) (.from 1) terms
    if rest.isEmpty then pure value else throw .leftOver

end Arithmetic
end Shell
end ScriptHost
