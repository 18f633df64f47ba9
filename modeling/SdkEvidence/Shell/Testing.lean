import SdkEvidence.Shell.Printing

/-!
# Tests

Conditions on texts, numbers and files, which may be negated and joined.
-/
namespace SdkEvidence.Shell

/-- Why a test has no answer. -/
inductive TestError where
  | unexpected (text : String)
  | notANumber (text : String)
  | unclosed
  deriving DecidableEq, Repr

/-- The wording of an error. -/
def TestError.message : TestError → String
  | .unexpected text => text ++ ": unexpected operator"
  | .notANumber text => "Illegal number: " ++ text
  | .unclosed => "missing ]"

namespace Test

/-- A test on one operand. -/
def onOne (m : Machine) (operator operand : String) : Except TestError Bool :=
  let node := (m.fs.find? operand).map Prod.snd
  match operator with
  | "-n" => .ok (operand != "")
  | "-z" => .ok (operand == "")
  | "-e" | "-r" | "-w" => .ok node.isSome
  | "-f" => .ok (m.fs.isFile operand)
  | "-d" => .ok (m.fs.isDirectory operand)
  | "-h" | "-L" | "-p" | "-S" | "-b" | "-c" | "-t" => .ok false
  | "-s" => .ok (match node with
      | some (.file content _) => content.size != 0
      | some .directory => true
      | none => false)
  | "-x" => .ok (match node with
      | some (.file _ executable) => executable
      | some .directory => true
      | none => false)
  | _ => .error (.unexpected operator)

/-- A comparison of numbers. -/
def onNumbers (compare : Int → Int → Bool) (left right : String) : Except TestError Bool :=
  match integer? left, integer? right with
  | some a, some b => .ok (compare a b)
  | none, _ => .error (.notANumber left)
  | _, none => .error (.notANumber right)

/-- A test on two operands; none if the operator is not one of these. -/
def onTwo (left operator right : String) : Option (Except TestError Bool) :=
  match operator with
  | "=" => some (.ok (left == right))
  | "!=" => some (.ok (left != right))
  | "-eq" => some (onNumbers (fun a b => a == b) left right)
  | "-ne" => some (onNumbers (fun a b => a != b) left right)
  | "-lt" => some (onNumbers (fun a b => decide (a < b)) left right)
  | "-le" => some (onNumbers (fun a b => decide (a ≤ b)) left right)
  | "-gt" => some (onNumbers (fun a b => decide (b < a)) left right)
  | "-ge" => some (onNumbers (fun a b => decide (b ≤ a)) left right)
  | _ => none

/-- Whether a test holds. Disjunctions bind least, then conjunctions. -/
def holds (m : Machine) : Nat → List String → Except TestError Bool
  | 0, arguments => .error (.unexpected (arguments.head?.getD ""))
  | fuel + 1, arguments =>
      let joined (n : Nat) (join : Bool → Bool → Bool) : Except TestError Bool := do
        let left ← holds m fuel (arguments.take n)
        let right ← holds m fuel (arguments.drop (n + 1))
        pure (join left right)
      match arguments with
      | [] => .ok false
      | [operand] => .ok (operand != "")
      | ["!", operand] => .ok (operand == "")
      | [operator, operand] => onOne m operator operand
      | [left, operator, right] =>
          match onTwo left operator right with
          | some answer => answer
          | none =>
              if left = "!" then (holds m fuel [operator, right]).map (!·)
              else if operator = "-o" then joined 1 (· || ·)
              else if operator = "-a" then joined 1 (· && ·)
              else .error (.unexpected left)
      | first :: rest =>
          match arguments.idxOf? "-o", arguments.idxOf? "-a" with
          | some n, _ => joined n (· || ·)
          | none, some n => joined n (· && ·)
          | none, none =>
              if first = "!" then (holds m fuel rest).map (!·) else .error (.unexpected first)

/-- Sets the status by a test. -/
def run (m : Machine) (command : String) (arguments : List String) : Machine :=
  let answer := if command = "[" then
      if arguments.getLast? = some "]" then holds m (arguments.length + 1) arguments.dropLast
      else .error .unclosed
    else holds m (arguments.length + 1) arguments
  match answer with
  | .ok true => m.withStatus 0
  | .ok false => m.withStatus 1
  | .error e => (m.complainHere (command ++ ": " ++ e.message)).withStatus 2

end Test
end SdkEvidence.Shell
