import Mathlib.Data.List.AList
import Werewolf.Library.Bytes

/-! Runtime inbound authority. Every operation runs under the gate's own mutex,
so each is one function of the gate. An operation that returns nothing was
rejected and left the gate as it was. -/

namespace Werewolf.Authority
open Library

def globalSessions : Nat := 1024
def peerSessions : Nat := 64
def connectionSessions : Nat := 64
def peerGenerations : Nat := 1024

/-- The eight bytes of a fingerprint, the key of the gate's table. -/
abbrev Peer := ByteArr 8

def upperHexValue (byte : UInt8) : Option UInt8 :=
  if 0x30 ≤ byte && byte ≤ 0x39 then some (byte - 0x30)
  else if 0x41 ≤ byte && byte ≤ 0x46 then some (byte - 0x41 + 10)
  else none

def fingerprintPairs : List UInt8 → Option (List UInt8)
  | [high, low] => do
      let high ← upperHexValue high
      let low ← upperHexValue low
      return [high * 16 + low]
  | high :: low :: dash :: rest =>
      if dash ≠ 0x2D then none
      else do
        let high ← upperHexValue high
        let low ← upperHexValue low
        return (high * 16 + low) :: (← fingerprintPairs rest)
  | _ => none

def leadingBytes : List UInt8 := "wwp1:".toUTF8.data.toList

def fingerprint (text : String) : Option Peer :=
  let bytes := text.toUTF8.data.toList
  if leadingBytes.isPrefixOf bytes then
    match fingerprintPairs (bytes.drop leadingBytes.length) with
    | some pairs => if size : pairs.length = 8 then some ⟨pairs, size⟩ else none
    | none => none
  else none

def require (condition : Bool) : Option Unit :=
  if condition then some () else none

inductive PeerAuthority where
  | authorized
  | runtimeDeniedPendingDurability
  | revoked
  deriving DecidableEq

structure Generation where
  number : UInt64
  state : PeerAuthority
  deriving DecidableEq

inductive Transport where
  | tcp
  | quic (connection : UInt64)
  deriving DecidableEq

structure AuthorityTicket where
  peer : Peer
  generation : UInt64
  epoch : UInt64
  deriving DecidableEq

structure Entry where
  ticket : AuthorityTicket
  transport : Transport
  active : Bool
  cancelled : Bool
  deriving DecidableEq

structure Gate where
  epoch : UInt64
  locked : Bool
  next : UInt64
  peers : AList (fun _ : Peer => Generation)
  sessions : AList (fun _ : UInt64 => Entry)
  deriving DecidableEq

namespace Gate

def initial (locked : Bool) : Gate where
  epoch := 1
  locked := locked
  next := 1
  peers := ∅
  sessions := ∅

/-- `u64::checked_add(1)`. -/
def checkedSucc (value : UInt64) : Option UInt64 :=
  if value = 0xFFFFFFFFFFFFFFFF then none else some (value + 1)

def allocate (gate : Gate) : Option (UInt64 × Gate) :=
  (checkedSucc gate.next).map (fun next => (gate.next, { gate with next := next }))

def current (gate : Gate) (ticket : AuthorityTicket) : Bool :=
  !gate.locked && gate.epoch = ticket.epoch && (gate.peers.lookup ticket.peer).any
      (fun generation => generation.number = ticket.generation && generation.state = .authorized)

def enroll (gate : Gate) (peer : Peer) (state : PeerAuthority) : Option Gate := do
  require (gate.peers.entries.length < peerGenerations)
  let (number, allocated) ← gate.allocate
  return { allocated with peers := allocated.peers.insert peer ⟨number, state⟩ }

def enrolled (gate : Gate) (peer : Peer) : Option Gate :=
  if peer ∈ gate.peers then some gate else gate.enroll peer .authorized

def ticket (gate : Gate) (text : String) : Option (AuthorityTicket × Gate) := do
  let peer ← fingerprint text
  require !gate.locked
  let after ← gate.enrolled peer
  let generation ← after.peers.lookup peer
  require (generation.state = .authorized)
  return (⟨peer, generation.number, after.epoch⟩, after)

def sessionCount (gate : Gate) (counts : Entry → Bool) : Nat :=
  gate.sessions.entries.countP (fun entry => counts entry.2)

def reserve (gate : Gate) (ticket : AuthorityTicket) (transport : Transport) :
    Option (UInt64 × Gate) := do
  require (gate.current ticket)
  require (gate.sessions.entries.length < globalSessions)
  require (gate.sessionCount (fun entry => entry.ticket.peer = ticket.peer) < peerSessions)
  require (transport = .tcp ||
    gate.sessionCount (fun entry => entry.transport = transport) < connectionSessions)
  let (id, allocated) ← gate.allocate
  return (id, { allocated with
    sessions := allocated.sessions.insert id ⟨ticket, transport, false, false⟩ })

def cancelSessions (gate : Gate) (selects : Entry → Bool) : Gate :=
  { gate with
    sessions := (gate.sessions.entries.map (fun entry =>
      (⟨entry.1, if selects entry.2 then { entry.2 with cancelled := true } else entry.2⟩ :
        Sigma (fun _ : UInt64 => Entry)))).toAList }

def denied (gate : Gate) (peer : Peer) : Option Gate :=
  match gate.peers.lookup peer with
  | none => gate.enroll peer .runtimeDeniedPendingDurability
  | some generation => some { gate with
      peers := gate.peers.insert peer { generation with state := .runtimeDeniedPendingDurability } }

def denyPeer (gate : Gate) (text : String) : Option Gate := do
  let peer ← fingerprint text
  let after ← gate.denied peer
  return after.cancelSessions (fun entry => entry.ticket.peer = peer)

def removed (gate : Gate) (text : String) : Option Gate := do
  let peer ← fingerprint text
  let generation ← gate.peers.lookup peer
  require (generation.state = .runtimeDeniedPendingDurability)
  return { gate with peers := gate.peers.erase peer }

/-- The returned flag says that the epoch could still advance. -/
def lock (gate : Gate) : Gate × Bool :=
  let advanced := checkedSucc gate.epoch
  ({ gate.cancelSessions (fun _ => true) with
      locked := true
      epoch := advanced.getD 0xFFFFFFFFFFFFFFFF }, advanced.isSome)

def openAfterDurable (gate : Gate) (expected : UInt64) : Option Gate := do
  require (gate.epoch = expected)
  let epoch ← checkedSucc gate.epoch
  return { gate with epoch := epoch, locked := false }

def publish (gate : Gate) (id : UInt64) : Option Gate := do
  let entry ← gate.sessions.lookup id
  require (gate.current entry.ticket)
  return { gate with sessions := gate.sessions.insert id { entry with active := true } }

def submit {α : Type} (gate : Gate) (id : UInt64) (poll : Unit → α) : Option α := do
  let entry ← gate.sessions.lookup id
  require (gate.current entry.ticket)
  return poll ()

def release (gate : Gate) (id : UInt64) : Gate :=
  { gate with sessions := gate.sessions.erase id }

end Gate

/-- A raw transport under a lease. A TCP stream carries none before its sender
is authenticated; the writers of the forwarding loops always carry one. -/
structure AuthorityWriter where
  written : List UInt8
  lease : Option UInt64

/-- The transport takes the first bytes of what it is offered, as many as it
accepts in this poll. -/
def AuthorityWriter.pollWrite (gate : Gate) (writer : AuthorityWriter) (bytes : List UInt8)
    (accepts : Nat) : Option Nat × AuthorityWriter :=
  let poll := fun _ : Unit => accepts
  let result := match writer.lease with
    | some lease => gate.submit lease poll
    | none => some (poll ())
  match result with
  | some count => (some count, { writer with written := writer.written ++ bytes.take count })
  | none => (none, writer)

end Werewolf.Authority
