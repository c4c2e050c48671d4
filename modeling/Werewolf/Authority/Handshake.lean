import Werewolf.Authority.Gate
import Werewolf.Library.Transition
import Werewolf.State.Validation

/-! Inbound handshakes beside the mutations that take members out of the Pack.
A step is one critical section: of the daemon state's mutex, which only a
mutation ever holds across several gate operations, or of the gate's own. -/

namespace Werewolf.Authority
open Governance State Library

structure Handshake where
  sender : String
  transport : Transport
  ticket : Option AuthorityTicket
  deriving DecidableEq

inductive Stage where
  | fencing
  | denying (pending : List String)
  | committing
  | publishing
  | removing (pending : List String)
  | cleaning (pending : List String)
  deriving DecidableEq

structure Mutation where
  candidate : List PeerRecord
  head : Option Head
  revoked : List String
  fences : Bool
  reopens : Bool
  dies : Bool
  reopenEpoch : UInt64
  stage : Stage
  deriving DecidableEq

structure System where
  peers : List PeerRecord
  governance : Option Head
  ownKey : Option Key
  silverActive : Bool
  storageDegraded : Bool
  dying : Bool
  gate : Gate
  mutation : Option Mutation
  handshakes : AList (fun _ : Nat => Handshake)
  deriving DecidableEq

inductive Request where
  | packAdd (name fingerprint address publicKeyB64 : String)
  | packRemove (name : String)
  | governanceApply (statement : Statement) (expectHash : Option Hash)

inductive Report where
  | done
  | failed
  | indeterminate

inductive Event where
  | arrive (id : Nat) (sender : String) (transport : Transport)
  | refuse (id : Nat)
  | ticket (id : Nat)
  | reserve (id : Nat)
  | publish (lease : UInt64)
  | release (lease : UInt64)
  | begin (request : Request) (archived : Bool)
  | advance (report : Report)

def Mutation.ofPack (candidate : List PeerRecord) (revoked : List String) : Mutation where
  candidate := candidate
  head := none
  revoked := revoked
  fences := false
  reopens := false
  dies := false
  reopenEpoch := 0
  stage := .fencing

def networkRefuses (governance : Option Head) (key : Option Key) : Bool :=
  match governance, key with
  | some head, some key =>
      (binarySearch head.revoked key).isOk || (head.activatedAt.isSome && !(binarySearch head.roster key).isOk)
  | _, _ => false

def preparePackAdd (external : External) (system : System)
    (name fingerprint address publicKeyB64 : String) : Option Mutation := do
  require (publicKeyB64 ≠ "" &&
    fingerprintFromPublicKeyB64 external publicKeyB64 = some fingerprint)
  require !networkRefuses system.governance (publicKey external publicKeyB64)
  let candidate := system.peers ++ [⟨name, fingerprint, address, .packmate, some publicKeyB64⟩]
  require (pack external candidate)
  return .ofPack candidate []

/-- `pack.remove` and `pack.revoke` differ only in the reply. -/
def preparePackRemove (external : External) (system : System) (name : String) :
    Option Mutation := do
  let revoked := (system.peers.find? (fun peer => peer.name = name)).map (·.fingerprint)
  let candidate := system.peers.filter (fun peer => peer.name ≠ name)
  require (candidate.length ≠ system.peers.length)
  require (pack external candidate)
  return .ofPack candidate revoked.toList

def prepareGovernance (external : External) (system : System) (statement : Statement)
    (expectHash : Option Hash) (archived : Bool) : Option Mutation :=
  match apply external.toCrypto system.governance statement expectHash with
  | .ok (.applied next) => do
      require archived
      let revoked := system.peers.filter (excludes external next)
      let wasAdmitted := !unadmitted system.governance system.ownKey
      let nowAdmitted := admitsOwn system.ownKey next
      return {
        candidate := system.peers.filter (fun peer => !revoked.any (fun other =>
          other.name = peer.name))
        head := some next
        revoked := revoked.map (·.fingerprint)
        fences := wasAdmitted && !nowAdmitted
        reopens := !wasAdmitted && nowAdmitted
        dies := next.deadAt.isSome
        reopenEpoch := 0
        stage := .fencing }
  | .ok (.fork fenced) => some { Mutation.ofPack system.peers [] with
      head := some fenced
      stage := .committing }
  | _ => none

def prepare (external : External) (system : System) (archived : Bool) : Request → Option Mutation
  | .packAdd name fingerprint address publicKeyB64 =>
      preparePackAdd external system name fingerprint address publicKeyB64
  | .packRemove name => preparePackRemove external system name
  | .governanceApply statement expectHash =>
      prepareGovernance external system statement expectHash archived

/-- The mutation keeps the daemon state's mutex between two of its steps. -/
def Mutation.holdsState (mutation : Mutation) : Bool :=
  match mutation.stage with
  | .denying _ | .removing _ => true
  | _ => false

def finish (system : System) (mutation : Mutation) : System :=
  if mutation.dies then
    { system with gate := system.gate.lock.1, dying := true, mutation := none }
  else if mutation.reopens && !system.silverActive then
    { system with
      gate := (system.gate.openAfterDurable mutation.reopenEpoch).getD system.gate
      mutation := none }
  else { system with mutation := none }

def advance (system : System) (mutation : Mutation) (report : Report) : System :=
  let goTo (stage : Stage) (system : System) : System :=
    { system with mutation := some { mutation with stage := stage } }
  match mutation.stage with
  | .fencing =>
      if mutation.fences then
        let (locked, advanced) := system.gate.lock
        if advanced then goTo (.denying mutation.revoked) { system with gate := locked }
        else { system with gate := locked, mutation := none }
      else goTo (.denying mutation.revoked) system
  | .denying [] =>
      { system with
        mutation := some { mutation with
          reopenEpoch := system.gate.epoch
          stage := .committing } }
  | .denying (peer :: rest) =>
      match system.gate.denyPeer peer with
      | some gate => goTo (.denying rest) { system with gate := gate }
      | none => { system with mutation := none }
  | .committing =>
      match report with
      | .done => goTo .publishing system
      -- The runtime denial stays whatever became of the write.
      | .failed => { system with mutation := none }
      | .indeterminate => { system with mutation := none, storageDegraded := true }
  | .publishing =>
      goTo (.removing mutation.revoked) { system with
        peers := mutation.candidate
        governance := mutation.head.or system.governance }
  | .removing [] => goTo (.cleaning mutation.revoked) system
  | .removing (peer :: rest) =>
      match system.gate.removed peer with
      | some gate => goTo (.removing rest) { system with gate := gate }
      | none => { system with mutation := none, storageDegraded := true }
  | .cleaning [] => finish system mutation
  | .cleaning (peer :: rest) =>
      if system.gate.sessionCount (fun entry => fingerprint peer = some entry.ticket.peer) = 0 then
        goTo (.cleaning rest) system
      else
        match report with
        | .done => system
        | _ => { system with mutation := none }

/-- The Pack check of either transport. QUIC also needs the member's key. -/
def isMember (peers : List PeerRecord) (sender : String) (transport : Transport) : Bool :=
  match transport with
  | .tcp => peers.any (fun peer => peer.fingerprint = sender)
  | .quic _ =>
      ((peers.find? (fun peer => peer.fingerprint = sender)).bind (·.publicKeyB64)).isSome

def step (external : External) (system : System) : Event → System
  | .arrive id sender transport =>
      if system.mutation.any Mutation.holdsState || id ∈ system.handshakes ||
          !isMember system.peers sender transport then system
      else { system with handshakes := system.handshakes.insert id ⟨sender, transport, none⟩ }
  | .refuse id => { system with handshakes := system.handshakes.erase id }
  | .ticket id =>
      match system.handshakes.lookup id with
      | some ⟨sender, transport, none⟩ =>
          match system.gate.ticket sender with
          | some (ticket, gate) => { system with
              gate := gate
              handshakes := system.handshakes.insert id ⟨sender, transport, some ticket⟩ }
          | none => { system with handshakes := system.handshakes.erase id }
      | _ => system
  | .reserve id =>
      match system.handshakes.lookup id with
      | some ⟨_, transport, some ticket⟩ =>
          let handshakes := system.handshakes.erase id
          match system.gate.reserve ticket transport with
          | some (_, gate) => { system with gate := gate, handshakes := handshakes }
          | none => { system with handshakes := handshakes }
      | _ => system
  | .publish lease =>
      { system with gate := (system.gate.publish lease).getD system.gate }
  | .release lease => { system with gate := system.gate.release lease }
  | .begin request archived =>
      if system.mutation.isSome || system.storageDegraded || system.dying then system
      else { system with mutation := prepare external system archived request }
  | .advance report =>
      match system.mutation with
      | some mutation => advance system mutation report
      | none => system

def System.start (peers : List PeerRecord) (governance : Option Head) (ownKey : Option Key)
    (silverActive : Bool) : System where
  peers := peers
  governance := governance
  ownKey := ownKey
  silverActive := silverActive
  storageDegraded := false
  dying := false
  gate := Gate.initial (silverActive || unadmitted governance ownKey)
  mutation := none
  handshakes := ∅

end Werewolf.Authority
