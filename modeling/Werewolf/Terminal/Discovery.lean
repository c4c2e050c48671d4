import Werewolf.Library.Directory
import Werewolf.Terminal.Tombstone

/-! The end of a node beside its discovery operations, which keep what they have
learned in a file of the Den. The two take turns at single operations of the Den,
in any order. -/

namespace Werewolf.Terminal
open Library
open Control (Tombstone Destruction tombstoneFile denLock peltFile contactsFile)

def privateFile (data : List UInt8) : Entry := .leaf (.file ⟨data, 0o600, true, true, 1⟩)

def regular : Entry → Option File
  | .leaf (.file file) =>
      if file.owned && file.grouped && file.mode = 0o600 && file.links = 1 then some file else none
  | _ => none

def temporaryName (suffix : ByteArr 16) : String := ".state-" ++ hex suffix.val ++ ".tmp"

def securityState : List Char := "security_state_".toList

def lockInert (den : Tree) : Bool :=
  (den.find? denLock).all (fun entry => (regular entry).any (fun file => file.data.isEmpty))

/-- The sweeps of a destruction, in their order. -/
inductive Round where
  | pelt
  | security
  | rest
  deriving DecidableEq

def Round.covers : Round → String → Bool
  | .pelt, name => name = peltFile
  | .security, name => securityState.isPrefixOf name.toList
  | .rest, name => name ≠ tombstoneFile && name ≠ denLock

/-- Where the end of the node stands, with the Tombstone it writes. Of a
replacement it is the file to be created, put in its place, or synced; of a
destruction the round to be listed and the names left of it. -/
inductive Stage where
  | serving
  | creates (tombstone : Tombstone)
  | places (tombstone : Tombstone) (temporary : String)
  | syncs (tombstone : Tombstone)
  | lists (tombstone : Tombstone) (round : Round)
  | sweeps (tombstone : Tombstone) (round : Round) (left : List String)
  | scrubs (tombstone : Tombstone)
  | checks (tombstone : Tombstone)
  | inspects (tombstone : Tombstone)
  | reported (destruction : Destruction)
  /-- The write of a retirement is indeterminate, and the node stays locked. -/
  | stuck
  deriving DecidableEq

inductive Task where
  | queries
  /-- What it learned is new, and storage was not degraded. -/
  | creates
  | places (temporary : String)
  | syncs
  | over
  deriving DecidableEq

structure Process where
  den : Tree
  stage : Stage
  dying : Bool
  storageDegraded : Bool
  exited : Bool
  tasks : List Task

inductive Turn where
  /-- A death or a retirement begins. -/
  | ends (tombstone : Tombstone)
  /-- The end goes on by one operation, which may fail. -/
  | proceeds (succeeds : Bool) (suffix : ByteArr 16)
  | discovers
  /-- The queries of an operation are over, and it has something new to keep or not. -/
  | learns (index : Nat) (new : Bool)
  /-- The replacement of the file of contacts goes on by one operation. -/
  | saves (index : Nat) (succeeds : Bool) (suffix : ByteArr 16) (data : List UInt8)
  | exits

def Turn.writes : Turn → Bool
  | .saves _ _ _ _ => true
  | _ => false

namespace Process

def notCommitted (tombstone : Tombstone) (process : Process) : Process :=
  if tombstone.destruction = .incomplete ∧ tombstone.death = none then
    { process with stage := .serving, dying := false }
  else { process with stage := .reported .incomplete }

def indeterminate (tombstone : Tombstone) (process : Process) : Process :=
  if tombstone.destruction = .incomplete ∧ tombstone.death = none then
    { process with stage := .stuck, storageDegraded := true }
  else { process with stage := .reported .incomplete }

def committed (tombstone : Tombstone) (process : Process) : Process :=
  match tombstone.destruction with
  | .incomplete => { process with stage := .lists tombstone .pelt }
  | .complete => { process with stage := .reported .complete }

def afterRound (tombstone : Tombstone) : Round → Stage
  | .pelt => .lists tombstone .security
  | .security => .lists tombstone .rest
  | .rest => .scrubs tombstone

def scrubbedLock (den : Tree) : Option Tree :=
  if lockInert den then some den
  else
    match den.find? denLock with
    | some (.leaf (.file file)) =>
        if file.links = 1 && file.owned then
          some (den.set denLock (.leaf (.file { file with data := [], mode := 0o600 })))
        else none
    | _ => none

def proceed (outside : Outside) (succeeds : Bool) (suffix : ByteArr 16) (process : Process) : Process :=
  match process.stage with
  | .creates tombstone =>
      match encode outside tombstone with
      | some data =>
          if succeeds && (process.den.find? (temporaryName suffix)).isNone then
            { process with
              den := process.den.set (temporaryName suffix) (privateFile data)
              stage := .places tombstone (temporaryName suffix) }
          else process.notCommitted tombstone
      | none => process.notCommitted tombstone
  | .places tombstone temporary =>
      if succeeds then
        { process with
          den := process.den.rename temporary tombstoneFile, stage := .syncs tombstone }
      else { process with den := process.den.erase temporary }.notCommitted tombstone
  | .syncs tombstone =>
      if succeeds then process.committed tombstone else process.indeterminate tombstone
  | .lists tombstone round =>
      if succeeds then
        { process with
          stage := .sweeps tombstone round ((sortOn id process.den.names).filter round.covers) }
      else { process with stage := .reported .incomplete }
  | .sweeps tombstone round [] => { process with stage := afterRound tombstone round }
  | .sweeps tombstone round (name :: left) =>
      if succeeds then
        { process with den := process.den.erase name, stage := .sweeps tombstone round left }
      else { process with stage := .reported .incomplete }
  | .scrubs tombstone =>
      match scrubbedLock process.den with
      | some den =>
          if succeeds then { process with den := den, stage := .checks tombstone }
          else { process with stage := .reported .incomplete }
      | none => { process with stage := .reported .incomplete }
  | .checks tombstone =>
      if succeeds && process.den.names.all (fun name => name = tombstoneFile || name = denLock) &&
          process.den.names.any (· = tombstoneFile) then
        { process with stage := .inspects tombstone }
      else { process with stage := .reported .incomplete }
  | .inspects tombstone =>
      if succeeds && lockInert process.den then
        { process with stage := .creates { tombstone with destruction := .complete } }
      else { process with stage := .reported .incomplete }
  | .serving | .reported _ | .stuck => process

def setTask (index : Nat) (task : Task) (process : Process) : Process :=
  { process with tasks := process.tasks.set index task }

/-- One operation of the replacement that keeps the contacts. It does not ask
whether the node is dying. -/
def save (index : Nat) (succeeds : Bool) (suffix : ByteArr 16) (data : List UInt8) (process : Process) : Process :=
  match process.tasks[index]? with
  | some .creates =>
      if succeeds && (process.den.find? (temporaryName suffix)).isNone then
        { process with den := process.den.set (temporaryName suffix) (privateFile data) }.setTask
          index (.places (temporaryName suffix))
      else process.setTask index .over
  | some (.places temporary) =>
      if succeeds then
        { process with den := process.den.rename temporary contactsFile }.setTask index .syncs
      else { process with den := process.den.erase temporary }.setTask index .over
  | some .syncs =>
      if succeeds then process.setTask index .over
      else { process with storageDegraded := true }.setTask index .over
  | _ => process

/-- A dying node begins nothing. What runs already goes on until the process
exits. -/
def step (outside : Outside) (process : Process) (turn : Turn) : Process :=
  if process.exited then process
  else
    match turn with
    | .ends tombstone =>
        if process.dying then process
        else
          { process with
            dying := true, stage := .creates { tombstone with destruction := .incomplete } }
    | .proceeds succeeds suffix => process.proceed outside succeeds suffix
    | .discovers =>
        if process.dying then process
        else { process with tasks := process.tasks ++ [.queries] }
    | .learns index new =>
        match process.tasks[index]? with
        | some .queries =>
            if new && !process.storageDegraded then process.setTask index .creates
            else process.setTask index .over
        | _ => process
    | .saves index succeeds suffix data => process.save index succeeds suffix data
    | .exits => { process with exited := true }

def serving (den : Tree) : Process := ⟨den, .serving, false, false, false, []⟩

end Process

end Werewolf.Terminal
