import Werewolf.Governance.Decode
import Werewolf.Storage.ProtectedState

/-! The archive of applied statements: one file for each sequence number, read
by the peers that catch up and at the start of a dead node. -/

namespace Werewolf.Control
open Library Governance Storage

def governanceArchiveName (sequence : UInt64) : String :=
  let digits := Nat.toDigits 10 sequence.toNat
  "governance_" ++ String.ofList (List.replicate (8 - digits.length) '0' ++ digits) ++ ".wwgov"

def readArchive (den : Den) (sequence : UInt64) : Option Statement :=
  match Storage.read den (governanceArchiveName sequence) maxStatementLen with
  | .ok (some bytes) => (Statement.decode bytes).toOption
  | _ => none

def archivedDeath (crypto : Crypto) (den : Den) (head : Head) : Option Statement :=
  (readArchive den head.sequence).filter (fun statement =>
    statement.core.hash crypto = head.hash && statement.core.body = .death)

/-- The archived statements in turn, up to the first that is not the applied
one. -/
def recordsOf (crypto : Crypto) (den : Den) (head : Head) : List Nat → List Statement
  | [] => []
  | sequence :: rest =>
      match readArchive den (UInt64.ofNat sequence) with
      | none => []
      | some statement =>
          if head.applied[sequence]? = some (statement.core.hash crypto) then
            statement :: recordsOf crypto den head rest
          else []

/-- The answer to a peer: what was applied after the statement of the hash it
names, up to `count` statements. -/
def governanceRecords (crypto : Crypto) (den : Den) (governance : Option Head) (headHash : Hash)
    (count : UInt8) : List Statement :=
  match governance with
  | none => []
  | some head =>
      match head.applied.findIdx? (· = headHash) with
      | none => []
      | some position =>
          recordsOf crypto den head ((List.range' (position + 1) (head.sequence.toNat - position)).take count.toNat)

end Werewolf.Control
