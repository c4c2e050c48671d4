import Werewolf.Authority.Gate
import Werewolf.Control.Limits
import Werewolf.Library.JsonText

/-! A request at the control socket. Its nesting is bounded on the bytes, before they are
read as JSON; an object that repeats a name is refused where it is read. -/

namespace Werewolf.Control
open Library Library.Json

structure Scan where
  depth : Nat
  quoted : Bool
  escaped : Bool
  deriving DecidableEq

def maxDepth : Nat := 16

def scanByte (scan : Scan) (byte : UInt8) : Option Scan :=
  if scan.quoted then
    if scan.escaped then some { scan with escaped := false }
    else if byte = 0x5C then some { scan with escaped := true }
    else if byte = 0x22 then some { scan with quoted := false }
    else some scan
  else if byte = 0x22 then some { scan with quoted := true }
  else if byte = 0x7B ∨ byte = 0x5B then
    if scan.depth + 1 > maxDepth then none else some { scan with depth := scan.depth + 1 }
  else if byte = 0x7D ∨ byte = 0x5D then
    if scan.depth = 0 then none else some { scan with depth := scan.depth - 1 }
  else some scan

def scanDepth (line : List UInt8) : Option Scan := line.foldlM scanByte ⟨0, false, false⟩

mutual

/-- The visitor of `Unique`, on what the JSON reader hands to it. -/
def unique : Value → Option Value
  | .array items => (visitSeq items).map .array
  | .object members => (visitMap [] members).map .object
  | value => some value

def visitSeq : List Value → Option (List Value)
  | [] => some []
  | item :: rest => do return (← unique item) :: (← visitSeq rest)

def visitMap (out : List (String × Value)) :
    List (String × Value) → Option (List (String × Value))
  | [] => some out
  | (key, value) :: rest => do
      Authority.require (!out.any (fun member => member.1 = key))
      visitMap (out ++ [(key, ← unique value)]) rest

end

def asObject : Value → Option (List (String × Value))
  | .object members => some members
  | _ => none

def asText : Value → Option String
  | .string text => some text
  | _ => none

def member? (key : String) (members : List (String × Value)) : Option Value :=
  (members.find? (fun member => member.1 = key)).map (·.2)

/-- `parse`. The JSON reader is not part of the repository. -/
def parse (fromSlice : List UInt8 → Option Value) (line : List UInt8) : Option ControlRequest := do
  Authority.require (line.length ≤ requestBytes)
  let _ ← scanDepth line
  let value ← (fromSlice line).bind unique
  let object ← asObject value
  Authority.require (object.all (fun member => ["id", "cmd", "args"].contains member.1))
  let id ← (member? "id" object).bind asText
  let cmd ← (member? "cmd" object).bind asText
  -- without arguments the request has no object of them
  let args ← asObject ((member? "args" object).getD (.object []))
  let args ← args.mapM (fun argument => (asText argument.2).map (argument.1, ·))
  let request : ControlRequest := ⟨id, cmd, args⟩
  Authority.require (checkRequest request)
  return request

end Werewolf.Control
