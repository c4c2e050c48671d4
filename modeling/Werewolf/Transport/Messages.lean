import Werewolf.Authority.Gate
import Werewolf.Library.Bytes
import Werewolf.State.Validation

/-! The signed first message of a v3 handshake, an OPEN or an RPC, on either
transport, and the transcript its signature covers. Every failure is the same
rejection, so a fallible check returns an option. -/

namespace Werewolf.Transport
open Governance State Library
open Authority (require)

/-- What a handshake takes from outside the repository, besides what validation
takes: `VerifyingKey::verify`, which is not the strict check of governance. -/
structure Suite extends External where
  verify : Key → List UInt8 → Signature → Bool

def tcpProtocol : String := "fang-tcp-v3"
def quicProtocol : String := "fang-quic-v3"
def tcpRpcCommand : String := "fang.tcp.rpc"
def quicRpcCommand : String := "fang.quic.rpc"

def maxK : UInt8 := 20
def maxGovernanceK : UInt8 := 4

def utf8 (text : String) : List UInt8 := text.toUTF8.data.toList

/-- `try_into` an array of exactly `size` bytes. -/
def sized (size : Nat) (bytes : List UInt8) : Option (ByteArr size) :=
  if fits : bytes.length = size then some ⟨bytes, fits⟩ else none

theorem sized_some {size : Nat} {bytes : List UInt8} {value : ByteArr size}
    (fits : sized size bytes = some value) : bytes = value.val := by
  unfold sized at fits
  split at fits
  · cases fits
    rfl
  · cases fits

theorem sized_val {size : Nat} (value : ByteArr size) : sized size value.val = some value :=
  dif_pos value.2

def lowerHexValue (digit : Char) : Option Nat :=
  if '0' ≤ digit ∧ digit ≤ '9' then some (digit.toNat - 0x30)
  else if 'a' ≤ digit ∧ digit ≤ 'f' then some (digit.toNat - 0x57)
  else none

def lowerHexPair (high low : Char) : Option UInt8 := do
  let high ← lowerHexValue high
  let low ← lowerHexValue low
  return UInt8.ofNat (16 * high + low)

/-- Lower-case hexadecimal of exactly `size` bytes. -/
def unhex (size : Nat) (text : String) : Option (ByteArr size) := do
  require (byteLength text = 2 * size)
  sized size (← readPairs lowerHexPair text.toList)

/-- Canonical Base64 of exactly `size` bytes. -/
def binary (external : External) (size : Nat) (text : String) : Option (ByteArr size) := do
  require (byteLength text = (size + 2) / 3 * 4)
  let value ← sized size (← external.base64Decode text)
  require (external.base64Encode value.val = text)
  return value

def remote (text : String) : Option Unit :=
  require (text.toList ≠ [] && byteLength text ≤ 512 &&
    !text.toList.any (fun character => isWhitespace character || isControl character))

def transcript (domain : String) (fields : List (List UInt8)) : List UInt8 :=
  utf8 "WWP-HS\x00" ++
    (utf8 domain :: fields).flatMap (fun field => beBytes 4 field.length ++ field)

def verifyMessage (suite : Suite) (publicKeyB64 : String) (message : List UInt8)
    (signatureB64 : String) : Option Unit := do
  let key ← sized 32 (← suite.base64Decode publicKeyB64)
  require (suite.fromBytes key)
  let signature ← sized 64 (← suite.base64Decode signatureB64)
  require (suite.verify key message signature)

/-- Canonical spellings of the key and the signature, and a valid signature. -/
def verify (suite : Suite) (publicKeyB64 : String) (message : List UInt8)
    (signatureB64 : String) : Option Unit := do
  let _ ← binary suite.toExternal 32 publicKeyB64
  let _ ← binary suite.toExternal 64 signatureB64
  verifyMessage suite publicKeyB64 message signatureB64

def publicMatches (external : External) (publicKeyB64 fingerprint : String) : Option Key := do
  let bytes ← binary external 32 publicKeyB64
  require (fingerprintFromPublicKeyB64 external publicKeyB64 = some fingerprint)
  return bytes

structure TcpOpen where
  cmd : String
  protocol : String
  senderPubkey : String
  senderFingerprint : String
  receiverFingerprint : String
  challenge : String
  nonce : String
  clientX25519 : String
  remote : String
  signature : String

def TcpOpen.transcript (external : External) (message : TcpOpen) : Option (List UInt8) := do
  require (message.cmd = "fang.pipe" && message.protocol = tcpProtocol)
  let _ ← Authority.fingerprint message.senderFingerprint
  let _ ← Authority.fingerprint message.receiverFingerprint
  Transport.remote message.remote
  let key ← publicMatches external message.senderPubkey message.senderFingerprint
  let challenge ← unhex 32 message.challenge
  let nonce ← unhex 16 message.nonce
  let clientKey ← binary external 32 message.clientX25519
  return Transport.transcript "fang.tcp.open/v3"
    [utf8 tcpProtocol, utf8 message.senderFingerprint, key.val,
      utf8 message.receiverFingerprint, challenge.val, nonce.val, clientKey.val,
      utf8 message.remote]

structure QuicOpen where
  cmd : String
  protocol : String
  senderFingerprint : String
  receiverFingerprint : String
  nonce : String
  remote : String
  signature : String

def QuicOpen.transcript (message : QuicOpen) (binding : ByteArr 32) : Option (List UInt8) := do
  require (message.cmd = "fang.quic.open" && message.protocol = quicProtocol)
  let _ ← Authority.fingerprint message.senderFingerprint
  let _ ← Authority.fingerprint message.receiverFingerprint
  Transport.remote message.remote
  let nonce ← unhex 16 message.nonce
  return Transport.transcript "fang.quic.open/v3"
    [utf8 quicProtocol, utf8 message.senderFingerprint, utf8 message.receiverFingerprint,
      nonce.val, utf8 message.remote, binding.val]

inductive RpcRequest where
  | ping
  | findNode (target : ByteArr 32) (k : UInt8)
  | services
  | governance (head : Hash) (k : UInt8)
  deriving DecidableEq

def RpcRequest.parse (op target : String) (k : UInt8) : Option RpcRequest :=
  if op = "ping" then do
    require (target = "" && k = 0)
    return .ping
  else if op = "find_node" then do
    require (1 ≤ k && k ≤ maxK)
    return .findNode (← unhex 32 target) k
  else if op = "services" then do
    require (target = "" && k = 0)
    return .services
  else if op = "governance" then do
    require (1 ≤ k && k ≤ maxGovernanceK)
    return .governance (← unhex 32 target) k
  else none

def RpcRequest.targetBytes : RpcRequest → List UInt8
  | .ping | .services => []
  | .findNode target _ => target.val
  | .governance head _ => head.val

def RpcRequest.k : RpcRequest → UInt8
  | .ping | .services => 0
  | .findNode _ k | .governance _ k => k

structure TcpRpc where
  cmd : String
  protocol : String
  senderPubkey : String
  senderFingerprint : String
  receiverFingerprint : String
  challenge : String
  nonce : String
  op : String
  target : String
  k : UInt8
  signature : String

def TcpRpc.request (message : TcpRpc) : Option RpcRequest := do
  require (message.cmd = tcpRpcCommand && message.protocol = tcpProtocol)
  RpcRequest.parse message.op message.target message.k

def TcpRpc.transcript (external : External) (message : TcpRpc) : Option (List UInt8) := do
  let request ← message.request
  let _ ← Authority.fingerprint message.senderFingerprint
  let _ ← Authority.fingerprint message.receiverFingerprint
  let key ← publicMatches external message.senderPubkey message.senderFingerprint
  let challenge ← unhex 32 message.challenge
  let nonce ← unhex 16 message.nonce
  return Transport.transcript "fang.tcp.rpc/v1"
    [utf8 tcpProtocol, utf8 message.senderFingerprint, key.val,
      utf8 message.receiverFingerprint, challenge.val, nonce.val, utf8 message.op,
      request.targetBytes, [request.k]]

def tcpSenderKey (external : External) (message : TcpRpc) : Option Key := do
  let _ ← binary external 32 message.senderPubkey
  publicMatches external message.senderPubkey message.senderFingerprint

structure QuicRpc where
  cmd : String
  protocol : String
  senderFingerprint : String
  receiverFingerprint : String
  nonce : String
  op : String
  target : String
  k : UInt8
  signature : String

def QuicRpc.request (message : QuicRpc) : Option RpcRequest := do
  require (message.cmd = quicRpcCommand && message.protocol = quicProtocol)
  RpcRequest.parse message.op message.target message.k

def QuicRpc.transcript (message : QuicRpc) (binding : ByteArr 32) : Option (List UInt8) := do
  let request ← message.request
  let _ ← Authority.fingerprint message.senderFingerprint
  let _ ← Authority.fingerprint message.receiverFingerprint
  let nonce ← unhex 16 message.nonce
  return Transport.transcript "fang.quic.rpc/v1"
    [utf8 quicProtocol, utf8 message.senderFingerprint, utf8 message.receiverFingerprint,
      nonce.val, utf8 message.op, request.targetBytes, [request.k], binding.val]

end Werewolf.Transport
