import Werewolf.Transport.Messages

/-! The receiving side of a handshake up to its lease, and of an RPC up to its
answer, on both transports. The Pack is read once, under the state's mutex; the
gate is read later and may have moved on by then. -/

namespace Werewolf.Transport
open Governance State Library
open Authority (Gate Peer AuthorityTicket require)

def readWindow : Nat := 5000
def peerHandshakes : Nat := 16
def peerTargetWork : Nat := 8
def quicReservations : Nat := 256

structure Admission where
  peers : AList (fun _ : Peer => Nat)
  targetPermits : Nat
  targetPeers : AList (fun _ : Peer => Nat)

structure HandshakePermit where
  peer : Option Peer

def Admission.authenticated (admission : Admission) (permit : HandshakePermit)
    (fingerprint : String) : Option (HandshakePermit × Admission) := do
  require permit.peer.isNone
  let peer ← Authority.fingerprint fingerprint
  let count := (admission.peers.lookup peer).getD 0
  require (count < peerHandshakes)
  return (⟨some peer⟩, { admission with peers := admission.peers.insert peer (count + 1) })

/-- Only the identity that completed signature verification gets target work. -/
def Admission.targetWork (admission : Admission) (permit : HandshakePermit)
    (fingerprint : String) : Option Admission := do
  let peer ← Authority.fingerprint fingerprint
  require (permit.peer = some peer)
  require (0 < admission.targetPermits)
  let count := (admission.targetPeers.lookup peer).getD 0
  require (count < peerTargetWork)
  return { admission with
    targetPermits := admission.targetPermits - 1
    targetPeers := admission.targetPeers.insert peer (count + 1) }

structure QuicReplayV3 where
  reservations : List (Peer × ByteArr 16)

def QuicReplayV3.reserve (replay : QuicReplayV3) (sender nonce : String) :
    Option QuicReplayV3 := do
  let peer ← Authority.fingerprint sender
  let bytes ← unhex 16 nonce
  require (replay.reservations.length < quicReservations && (peer, bytes) ∉ replay.reservations)
  return ⟨(peer, bytes) :: replay.reservations⟩

structure TcpChallengeContext where
  challenge : String
  receiver : PeltIdentity
  deadline : Nat
  consumed : Bool

def TcpChallengeContext.new (external : External) (receiver : PeltIdentity)
    (random : ByteArr 32) (now : Nat) : Option TcpChallengeContext := do
  let _ ← Authority.fingerprint receiver.fingerprint
  let _ ← publicMatches external receiver.publicKeyB64 receiver.fingerprint
  return ⟨hex random.val, receiver, now + readWindow, false⟩

def TcpChallengeContext.checkBinding (context : TcpChallengeContext) (now : Nat)
    (challenge receiver : String) : Option Unit :=
  require (!context.consumed && now < context.deadline && challenge = context.challenge &&
    receiver = context.receiver.fingerprint)

def TcpChallengeContext.consumeBinding (context : TcpChallengeContext) (now : Nat)
    (challenge receiver : String) : Option TcpChallengeContext := do
  context.checkBinding now challenge receiver
  return { context with consumed := true }

/-- The daemon state a receiver reads under its mutex. -/
structure Daemon where
  pelt : Option PeltIdentity
  peers : List PeerRecord
  gate : Gate
  admission : Admission

/-- What surrounds one handshake: its clock readings in milliseconds, its random
challenge or its QUIC connection, the answer of the rate limiter, and what the
other tasks do to the gate before its ticket and before its reservation. -/
structure Surroundings where
  started : Nat
  issued : Nat
  checked : Nat
  consumed : Nat
  challenge : ByteArr 32
  binding : ByteArr 32
  connection : UInt64
  replay : QuicReplayV3
  limiterAllows : Bool
  beforeTicket : Gate → Gate
  beforeReserve : Gate → Gate

/-- The challenge sent on a new TCP stream, due before the stream's own read
window ends. -/
def issueChallenge (external : External) (daemon : Daemon) (around : Surroundings) :
    Option TcpChallengeContext := do
  let receiver ← daemon.pelt
  let context ← TcpChallengeContext.new external receiver around.challenge around.issued
  return { context with deadline := min context.deadline (around.started + readWindow) }

def storedKey (peers : List PeerRecord) (fingerprint : String) : Option String :=
  (peers.find? (fun peer => peer.fingerprint = fingerprint)).bind (·.publicKeyB64)

section Receivers

variable (suite : Suite) (daemon : Daemon) (around : Surroundings)

/-- `server_handshake` of the encrypted TCP transport until its challenge is used
up. The key is the one the message carries. -/
def tcpServerGuard (context : TcpChallengeContext) (message : TcpOpen) :
    Option (TcpChallengeContext × HandshakePermit × Admission) := do
  let retained ← message.transcript suite.toExternal
  require (daemon.peers.any (fun peer => peer.fingerprint = message.senderFingerprint))
  context.checkBinding around.checked message.challenge message.receiverFingerprint
  verify suite message.senderPubkey retained message.signature
  let (permit, admission) ← daemon.admission.authenticated ⟨none⟩ message.senderFingerprint
  let used ← context.consumeBinding around.consumed message.challenge message.receiverFingerprint
  return (used, permit, admission)

/-- `server_handshake` of the encrypted TCP transport, up to its lease. -/
def tcpServerHandshake (message : TcpOpen) : Option (UInt64 × Gate) := do
  let context ← issueChallenge suite.toExternal daemon around
  let (_, permit, admission) ← tcpServerGuard suite daemon around context message
  let _ ← admission.targetWork permit message.senderFingerprint
  let (ticket, gate) ← (around.beforeTicket daemon.gate).ticket message.senderFingerprint
  (around.beforeReserve gate).reserve ticket .tcp

/-- `server_handshake` of the QUIC transport until its nonce is reserved. The key
is the one the Pack stores. -/
def quicServerGuard (binding : ByteArr 32) (replay : QuicReplayV3) (message : QuicOpen) :
    Option (QuicReplayV3 × AuthorityTicket × Gate) := do
  let retained ← message.transcript binding
  let senderKey ← storedKey daemon.peers message.senderFingerprint
  let receiver ← daemon.pelt
  require (message.receiverFingerprint = receiver.fingerprint)
  verify suite senderKey retained message.signature
  require (around.checked < around.started + readWindow)
  let (permit, admission) ← daemon.admission.authenticated ⟨none⟩ message.senderFingerprint
  let _ ← admission.targetWork permit message.senderFingerprint
  let ticket ← (around.beforeTicket daemon.gate).ticket message.senderFingerprint
  return (← replay.reserve message.senderFingerprint message.nonce, ticket)

/-- `server_handshake` of the QUIC transport, up to its lease. -/
def quicServerHandshake (message : QuicOpen) : Option (UInt64 × Gate) := do
  let (_, ticket, gate) ← quicServerGuard suite daemon around around.binding around.replay message
  (around.beforeReserve gate).reserve ticket (.quic around.connection)

/-- `answer_tcp` until its challenge is used up. -/
def tcpAnswerGuard (context : TcpChallengeContext) (message : TcpRpc) :
    Option TcpChallengeContext := do
  let retained ← message.transcript suite.toExternal
  let _ ← tcpSenderKey suite.toExternal message
  require (daemon.peers.any (fun peer => peer.fingerprint = message.senderFingerprint &&
    peer.publicKeyB64 = some message.senderPubkey))
  require !daemon.gate.locked
  context.checkBinding around.checked message.challenge message.receiverFingerprint
  verify suite message.senderPubkey retained message.signature
  let _ ← daemon.admission.authenticated ⟨none⟩ message.senderFingerprint
  context.consumeBinding around.consumed message.challenge message.receiverFingerprint

/-- `answer_tcp` up to the request it answers. -/
def answerTcp (message : TcpRpc) : Option RpcRequest := do
  let context ← issueChallenge suite.toExternal daemon around
  let _ ← tcpAnswerGuard suite daemon around context message
  require around.limiterAllows
  message.request

/-- `answer_quic` until its nonce is reserved. -/
def quicAnswerGuard (binding : ByteArr 32) (replay : QuicReplayV3) (message : QuicRpc) :
    Option QuicReplayV3 := do
  let retained ← message.transcript binding
  let senderKey ← storedKey daemon.peers message.senderFingerprint
  let receiver ← daemon.pelt
  require !daemon.gate.locked
  require (message.receiverFingerprint = receiver.fingerprint)
  verify suite senderKey retained message.signature
  require (around.checked < around.started + readWindow)
  let _ ← daemon.admission.authenticated ⟨none⟩ message.senderFingerprint
  replay.reserve message.senderFingerprint message.nonce

/-- `answer_quic` up to the request it answers. -/
def answerQuic (message : QuicRpc) : Option RpcRequest := do
  let _ ← quicAnswerGuard suite daemon around around.binding around.replay message
  require around.limiterAllows
  message.request

end Receivers

end Werewolf.Transport
