import Werewolf.Control.Node

/-! The death and the retirement of a node. Nothing in a Den is destroyed before
its Tombstone is durable. -/

namespace Werewolf.Control
open Library Procedure Governance State Policy Storage

def tombstoneFile : String := "tombstone.json"
def denLock : String := ".den.lock"
def peltFile : String := "pelt.json"
def tombstoneMaxLen : Nat := 8 * 1024
def maxSoftwareLen : Nat := 64

def checkSoftware (software : String) : Bool :=
  software ≠ "" && byteLength software ≤ maxSoftwareLen &&
    software.toList.all (fun character => 0x20 ≤ character.toNat && character.toNat ≤ 0x7E)

section Tombstones

variable (host : Host)

def Tombstone.encode (tombstone : Tombstone) : Option (List UInt8) :=
  let bytes := host.tombstoneText tombstone
  if tombstoneMaxLen < bytes.length then none else some bytes

def Tombstone.ofDeath (statement : Statement) (destruction : Destruction) : Option Tombstone := do
  Authority.require (statement.core.body = .death && checkSoftware host.software)
  let tombstone : Tombstone := ⟨some statement, destruction, host.software⟩
  let _ ← tombstone.encode host
  return tombstone

def Tombstone.retirement (destruction : Destruction) : Option Tombstone := do
  Authority.require (checkSoftware host.software)
  return ⟨none, destruction, host.software⟩

end Tombstones

section Destroying

def stageOf (file : String) : Nat :=
  if file = peltFile then 0
  else if "security_state_".toList.isPrefixOf file.toList then 1
  else 2

def stages : Nat := 3

def Residue.left (residue : Residue) (data : List UInt8) : Option (List UInt8) :=
  match residue with
  | .untouched => some data
  | .scrubbed count => some (List.replicate (min count data.length) 0 ++ data.drop count)
  | .unlinked => none

def destroyDen (demise : Demise) (den : Den) : Den := fun file =>
  if file = tombstoneFile ∨ file = denLock then den file
  else if stageOf file < demise.stage then none
  else if stageOf file = demise.stage then (den file).bind (demise.residue file).left
  else den file

variable (host : Host) (environment : Environment)

/-- Destroy the Den, and only then mark the Tombstone complete. The outcome of
that last write, if it is made, is not a durable one where it is some. -/
def finish (tombstone : Tombstone) (den : Den) : Den × Option Storage.Outcome :=
  let destroyed := destroyDen environment.demise den
  if environment.demise.stage < stages || !environment.bareAfter then (destroyed, none)
  else
    match ({ tombstone with destruction := .complete } : Tombstone).encode host with
    | none => (destroyed, none)
    | some data =>
        (replaced destroyed ⟨tombstoneFile, data⟩ environment.completion,
          (replace ⟨tombstoneFile, data⟩ environment.completion).2)

def System.finish (system : System) (tombstone : Tombstone) : System :=
  if system.running then
    { system with den := (Control.finish host environment tombstone system.den).1 }.note
      (Control.finish host environment tombstone system.den).2
  else system

def finishDen (tombstone : Tombstone) : Action Unit :=
  alter (fun system => ((), system.finish host environment tombstone))

def writeTombstone (tombstone : Tombstone) : Action (Option Storage.Outcome) :=
  match tombstone.encode host with
  | none => pure (some (.reported (.notCommitted .replacement)))
  | some data => replaceFile ⟨tombstoneFile, data⟩ environment.tombstone

end Destroying

section Terminal

variable (host : Host) (environment : Environment)

def lockNode (node : Node) : Node :=
  { node with dying := true, gate := node.gate.lock.1, fangs := [] }

/-- Without a durable Tombstone the next start goes on from the dead head. -/
def die (statement : Statement) : Action Unit := do
  update lockNode
  match Tombstone.ofDeath host statement .incomplete with
  | none => pure ()
  | some tombstone =>
      let ended ← writeTombstone host environment tombstone
      if ended = none then finishDen host environment tombstone else pure ()

/-- Nothing was written: the node unlocks, unless Silver or the network holds it
locked. -/
def reinstate (node : Node) : Node :=
  { node with
    dying := false
    gate :=
      if node.silver ≠ .active && !node.unadmitted host.toExternal then
        (node.gate.openAfterDurable node.gate.epoch).getD node.gate
      else node.gate }

def retire (confirm : String) : Action Status := do
  let node ← live
  let pelt ← expect node.pelt .noPelt
  check (pelt.fingerprint = confirm) .retireConfirmMismatch
  update (fun node => { node with dying := true, gate := node.gate.lock.1 })
  let tombstone ← expect (Tombstone.retirement host .incomplete) .retireSaveFailed
  match ← writeTombstone host environment tombstone with
  | none =>
      update lockNode
      finishDen host environment tombstone
      return .retired
  | some (.reported (.notCommitted _)) =>
      update (reinstate host)
      throw .retireSaveFailed
  | some (.reported .indeterminateAfterRename) =>
      degradeStorage
      throw .retireSaveFailed
  | some _ => throw .retireSaveFailed

end Terminal

end Werewolf.Control
