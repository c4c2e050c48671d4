import Werewolf.Control.Dial
import Werewolf.Transport.Results
import Werewolf.Transport.Stream

/-! The initiator of an encrypted TCP session: a connection, pinned TLS, the
challenge of the receiver, the signed OPEN and the ACK, with one more attempt if
the receiver never spoke. What the network and the receiver do in an attempt is
given with it, so that every behaviour of theirs is one argument. -/

namespace Werewolf.Transport
open Governance State Library Procedure
open Json hiding key number
open Authority (require)
open Control (ExpectedPeerIdentity)

def messageLimit : Nat := 4096
def challengeLimit : Nat := 512

structure TcpChallenge where
  cmd : String
  protocol : String
  receiverFingerprint : String
  challenge : String

def TcpChallenge.validate (challenge : TcpChallenge) : Option Unit := do
  require (challenge.cmd = "fang.tcp.challenge" && challenge.protocol = tcpProtocol)
  let _ ← Authority.fingerprint challenge.receiverFingerprint
  let _ ← unhex 32 challenge.challenge
  return ()

/-- What the initiator takes from outside the repository: signatures, JSON, the
client configuration for a pinned key, X25519 and BLAKE3. -/
structure Client extends Suite, Signer where
  readChallenge : List UInt8 → Option TcpChallenge
  readAck : List UInt8 → Option TcpAck
  configures : Option String → Bool
  publicKeyOf : ByteArr 32 → ByteArr 32
  diffieHellman : ByteArr 32 → ByteArr 32 → ByteArr 32
  digest : ByteArr 32 → SessionKey

def tcpOpenCodec : Codec TcpOpen :=
  (object (fields (field "cmd" string)
    (fields (field "protocol" string)
    (fields (field "sender_pubkey" string)
    (fields (field "sender_fingerprint" string)
    (fields (field "receiver_fingerprint" string)
    (fields (field "challenge" string)
    (fields (field "nonce" string)
    (fields (field "client_x25519" string)
    (fields (field "remote" string)
    (field "signature" string))))))))))).imap
    (fun message => (message.cmd, message.protocol, message.senderPubkey,
      message.senderFingerprint, message.receiverFingerprint, message.challenge, message.nonce,
      message.clientX25519, message.remote, message.signature))
    (fun (cmd, protocol, senderPubkey, senderFingerprint, receiverFingerprint, challenge, nonce,
        clientX25519, remote, signature) =>
      some ⟨cmd, protocol, senderPubkey, senderFingerprint, receiverFingerprint, challenge, nonce,
        clientX25519, remote, signature⟩)

def TcpOpen.new (signer : Signer) (sender : PeltIdentity) (challenge : TcpChallenge)
    (remote : String) (clientKey : ByteArr 32) (nonce : ByteArr 16) : Option TcpOpen := do
  challenge.validate
  let value : TcpOpen := {
    cmd := "fang.pipe"
    protocol := tcpProtocol
    senderPubkey := sender.publicKeyB64
    senderFingerprint := sender.fingerprint
    receiverFingerprint := challenge.receiverFingerprint
    challenge := challenge.challenge
    nonce := hex nonce.val
    clientX25519 := signer.base64Encode clientKey.val
    remote := remote
    signature := "" }
  let transcript ← value.transcript signer.toExternal
  let signature ← signMessage signer sender transcript
  return { value with signature := signature }

def deriveSharedKey (client : Client) (secret : ByteArr 32) (peerPublicB64 : String) :
    Option SessionKey := do
  let peer ← sized 32 (← client.base64Decode peerPublicB64)
  let shared := client.diffieHellman secret peer
  require (shared.val ≠ List.replicate 32 0)
  return client.digest shared

/-- One line up to its LF, and the bytes behind it. Where the bytes end, the read
fails or runs out of time. -/
def readLine : Nat → List UInt8 → Option (List UInt8 × List UInt8)
  | 0, _ => none
  | _ + 1, [] => none
  | limit + 1, byte :: rest =>
      if byte = 0x0A then some ([byte], rest)
      else (readLine limit rest).map (fun (line, behind) => (byte :: line, behind))

/-- The bytes that `CountingReader` sees of the same read. -/
def countRead : Nat → List UInt8 → Nat
  | 0, _ => 0
  | _ + 1, [] => 0
  | limit + 1, byte :: rest => if byte = 0x0A then 1 else countRead limit rest + 1

/-- How the TLS handshake ends. tokio-rustls reports an alert or a failed pin as
invalid data. -/
inductive TlsOutcome where
  | connected
  | timedOut
  | failed (invalidData : Bool)
  deriving DecidableEq

/-- What one attempt meets: whether the TCP connection opens and tells its peer
address, how TLS ends, the bytes that arrive until the wait for the challenge is
given up, the random values, whether all of the OPEN is written, and the bytes
that arrive until the wait for the ACK is given up. -/
structure Network where
  opens : Bool
  addressed : Bool
  tls : TlsOutcome
  early : List UInt8
  secret : Option (ByteArr 32)
  nonce : Option (ByteArr 16)
  writes : Bool
  late : List UInt8

/-- What an attempt has done: the bytes of the challenge that arrived, and every
OPEN of which it began to write. -/
structure Log where
  challengeBytes : Nat
  written : List TcpOpen

def Log.empty : Log := ⟨0, []⟩

section Session

variable (client : Client) (identity : PeltIdentity) (remote : String)
  (expected : ExpectedPeerIdentity) (network : Network)

/-- `hs::read` of the challenge through the counter. -/
def readChallenge : Procedure Log Unit (TcpChallenge × List UInt8) := do
  alter (fun log => ((), { log with
    challengeBytes := log.challengeBytes + countRead challengeLimit network.early }))
  let (line, behind) ← expect (readLine challengeLimit network.early) ()
  let challenge ← expect (client.readChallenge line) ()
  return (challenge, behind)

/-- `hs::write` of the OPEN: one that is too long is not begun. -/
def writeOpen (message : TcpOpen) : Procedure Log Unit Unit := do
  check ((toVec tcpOpenCodec message).length + 1 ≤ messageLimit) ()
  alter (fun log => ((), { log with written := log.written ++ [message] }))
  check network.writes ()

/-- The ACK is read behind whatever the receiver sent after its challenge. -/
def readAck (behind : List UInt8) : Procedure Log Unit TcpAck := do
  let (line, _) ← expect (readLine messageLimit (behind ++ network.late)) ()
  expect (client.readAck line) ()

def clientHandshakeCounted : Procedure Log Unit SessionKey := do
  let (challenge, behind) ← readChallenge client network
  expect challenge.validate ()
  check (challenge.receiverFingerprint = expected.fingerprint) ()
  let secret ← expect network.secret ()
  let nonce ← expect network.nonce ()
  let message ← expect (TcpOpen.new client.toSigner identity challenge remote
    (client.publicKeyOf secret) nonce) ()
  let retained ← expect (message.transcript client.toExternal) ()
  writeOpen network message
  let ack ← readAck client network behind
  check (ack.receiverFingerprint = expected.fingerprint) ()
  let covered ← expect (ack.transcript client.toExternal message retained) ()
  expect (verify client.toSuite ack.receiverPubkey covered ack.signature) ()
  expect (deriveSharedKey client secret ack.serverX25519) ()

inductive Setup where
  | retry
  | final
  deriving DecidableEq

def tcpSessionAttempt : Except Setup SessionKey × Log :=
  if !client.configures expected.publicKeyB64 then (.error .final, .empty)
  else if !network.opens then (.error .retry, .empty)
  else if !network.addressed then (.error .retry, .empty)
  else
    match network.tls with
    | .timedOut => (.error .retry, .empty)
    | .failed true => (.error .final, .empty)
    | .failed false => (.error .retry, .empty)
    | .connected =>
        match execute (clientHandshakeCounted client identity remote expected network) Log.empty with
        | (.ok key, log) => (.ok key, log)
        | (.error _, log) =>
            (.error (if log.challengeBytes = 0 then .retry else .final), log)

end Session

/-- `connect_tcp_session`: the logs of its attempts and the session key, if there
is one. -/
def connectTcpSession (client : Client) (identity : PeltIdentity) (remote : String)
    (expected : ExpectedPeerIdentity) (first second : Network) : List Log × Option SessionKey :=
  match tcpSessionAttempt client identity remote expected first with
  | (.error .retry, log) =>
      let again := tcpSessionAttempt client identity remote expected second
      ([log, again.2], again.1.toOption)
  | (result, log) => ([log], result.toOption)

end Werewolf.Transport
