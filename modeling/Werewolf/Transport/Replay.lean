import Werewolf.Library.Transition
import Werewolf.Transport.Receiver

/-! The connections of a receiver, with what each remembers against replays. -/

namespace Werewolf.Transport
open Governance State Library
open Authority (Peer)

inductive Signed where
  | tcpOpen (message : TcpOpen)
  | tcpRpc (message : TcpRpc)
  | quicOpen (message : QuicOpen)
  | quicRpc (message : QuicRpc)

namespace Signed

def sender : Signed → String
  | tcpOpen message => message.senderFingerprint
  | tcpRpc message => message.senderFingerprint
  | quicOpen message => message.senderFingerprint
  | quicRpc message => message.senderFingerprint

def nonce : Signed → String
  | tcpOpen message => message.nonce
  | tcpRpc message => message.nonce
  | quicOpen message => message.nonce
  | quicRpc message => message.nonce

def receiver : Signed → String
  | tcpOpen message => message.receiverFingerprint
  | tcpRpc message => message.receiverFingerprint
  | quicOpen message => message.receiverFingerprint
  | quicRpc message => message.receiverFingerprint

def signature : Signed → String
  | tcpOpen message => message.signature
  | tcpRpc message => message.signature
  | quicOpen message => message.signature
  | quicRpc message => message.signature

def challenge : Signed → Option String
  | tcpOpen message => some message.challenge
  | tcpRpc message => some message.challenge
  | _ => none

def key (message : Signed) : Option (Peer × ByteArr 16) := do
  return (← Authority.fingerprint message.sender, ← unhex 16 message.nonce)

end Signed

/-- One connection, with what it remembers against replays. -/
inductive Line where
  | tcp (context : TcpChallengeContext)
  | quic (binding : ByteArr 32) (replay : QuicReplayV3)

namespace Line

/-- What the signature of a message covers on the connection. -/
def covers (external : External) : Line → Signed → Option (List UInt8)
  | tcp _, .tcpOpen message => message.transcript external
  | tcp _, .tcpRpc message => message.transcript external
  | quic binding _, .quicOpen message => message.transcript binding
  | quic binding _, .quicRpc message => message.transcript binding
  | _, _ => none

/-- A message passes the guard of its receiver, which is taken under a lock, so the
streams of a connection pass it one after another. -/
def pass (suite : Suite) (daemon : Daemon) (around : Surroundings) : Line → Signed → Option Line
  | tcp context, .tcpOpen message =>
      (tcpServerGuard suite daemon around context message).map (fun passed => tcp passed.1)
  | tcp context, .tcpRpc message => (tcpAnswerGuard suite daemon around context message).map tcp
  | quic binding replay, .quicOpen message =>
      (quicServerGuard suite daemon around binding replay message).map (fun passed => quic binding passed.1)
  | quic binding replay, .quicRpc message =>
      (quicAnswerGuard suite daemon around binding replay message).map (quic binding)
  | _, _ => none

end Line

/-- A connection as it was set up: with its random challenge, or on its channel. -/
inductive Link where
  | tcp (random : ByteArr 32) (receiver : PeltIdentity) (deadline : Nat)
  | quic (binding : ByteArr 32)

def Link.line : Link → Line
  | tcp random receiver deadline => .tcp ⟨hex random.val, receiver, deadline, false⟩
  | quic binding => .quic binding ⟨[]⟩

structure Arrival where
  connection : Nat
  daemon : Daemon
  around : Surroundings
  message : Signed

structure Listening where
  lines : Nat → Line
  accepted : List (Nat × Signed)

namespace Listening

def step (suite : Suite) (listening : Listening) (arrival : Arrival) : Listening :=
  match (listening.lines arrival.connection).pass suite arrival.daemon arrival.around arrival.message with
  | none => listening
  | some line =>
      ⟨Function.update listening.lines arrival.connection line,
        (arrival.connection, arrival.message) :: listening.accepted⟩

def start (links : Nat → Link) : Listening := ⟨fun connection => (links connection).line, []⟩

def on (listening : Listening) (connection : Nat) : List Signed :=
  listening.accepted.filterMap (fun entry => if entry.1 = connection then some entry.2 else none)

end Listening

end Werewolf.Transport
