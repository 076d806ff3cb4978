import ScriptHost.FileSystem.Access
import ScriptHost.Shell.Format

/-!
# Tests

A test of a shell compares texts and integers and asks for what stands at a path. One that
cannot be understood is a fault of its own.
-/

namespace ScriptHost
namespace Shell

/-- Why a test has no answer. -/
inductive TestFault
  | illegalNumber (text : String)
  | unexpectedOperator (text : String)
  | missingBracket
deriving DecidableEq, Repr

/-- The text of a fault. -/
def TestFault.message : TestFault → String
  | .illegalNumber text => "Illegal number: " ++ text
  | .unexpectedOperator text => text ++ ": unexpected operator"
  | .missingBracket => "missing ]"

/-- Compare two integers as a test names it. -/
def compares? (operator : String) (left right : Int) : Option Bool :=
  match operator with
  | "-eq" => some (left = right)
  | "-ne" => some (left ≠ right)
  | "-lt" => some (left < right)
  | "-le" => some (left ≤ right)
  | "-gt" => some (right < left)
  | "-ge" => some (right ≤ left)
  | _ => none

/-- The integer of an operand. -/
def operand (text : String) : Except TestFault Int :=
  match integer? text with
  | some value => .ok value
  | none => .error (.illegalNumber text)

/-- Whether a test with one operator in front of its operand holds. -/
def holdsOf? (files : FileSystem) (operator text : String) : Option Bool :=
  match operator with
  | "-n" => some (text ≠ "")
  | "-z" => some (text = "")
  | "-e" => some (files.leads text)
  | "-f" => some (files.isFile text)
  | "-d" => some (files.isDirectory text)
  | "-r" => some (files.leads text)
  | "-w" => some (files.leads text)
  | "-x" => some (files.isDirectory text)
  | "-s" => some (match files.readFile text with
      | .ok content => !content.isEmpty
      | .error _ => files.isDirectory text)
  | _ => none

/-- Whether a test without connectives holds. -/
def simpleTestHolds (files : FileSystem) : List String → Except TestFault Bool
  | [] => .ok false
  | [text] => .ok (text ≠ "")
  | [left, "=", right] => .ok (left = right)
  | [left, "!=", right] => .ok (left ≠ right)
  | "!" :: rest => (simpleTestHolds files rest).map fun holds => !holds
  | [operator, text] =>
      match holdsOf? files operator text with
      | some holds => .ok holds
      | none => .error (.unexpectedOperator operator)
  | [left, operator, right] =>
      if (compares? operator 0 0).isNone then .error (.unexpectedOperator left)
      else do
        let left ← operand left
        let right ← operand right
        pure ((compares? operator left right).getD false)
  | first :: _ => .error (.unexpectedOperator first)

/-- The parts of a list between separators. -/
def cutAt (separator : String) : List String → List (List String)
  | [] => [[]]
  | text :: rest =>
      match cutAt separator rest with
      | [] => []
      | part :: parts =>
          if text = separator then [] :: part :: parts else (text :: part) :: parts

/-- Whether a test holds. An alternative binds less tightly than a conjunction, and a test
of up to three words has none of them. -/
def testHolds
    (files : FileSystem)
    (words : List String) : Except TestFault Bool :=
  if words.length ≤ 3 then simpleTestHolds files words
  else do
    let groups ← (cutAt "-o" words).mapM fun group => do
      let parts ← (cutAt "-a" group).mapM (simpleTestHolds files)
      pure (parts.all id)
    pure (groups.any id)

end Shell
end ScriptHost
