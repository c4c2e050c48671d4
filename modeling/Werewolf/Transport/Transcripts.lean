import Werewolf.Transport.Messages

/-! Everything a Pelt key or a governance key signs: the answers to an OPEN and
an RPC besides the messages themselves, contact records, governance statements
and key checks. -/

namespace Werewolf.Transport
open Governance State Library
open Authority (require)

def sessionKind : String := "fang-v3-secure"
def maxPublished : Nat := 32

/-- A transcript of fields that need not be small. A length that does not fit
stops the process. -/
def boundedTranscript (domain : String) (fields : List (List UInt8)) : Option (List UInt8) := do
  require (fields.all (fun field => field.length < 2 ^ 32))
  return transcript domain fields

structure TcpAck where
  cmd : String
  ok : Bool
  protocol : String
  session : String
  receiverPubkey : String
  receiverFingerprint : String
  senderFingerprint : String
  challenge : String
  nonce : String
  clientX25519 : String
  serverX25519 : String
  remote : String
  signature : String

def TcpAck.transcript (external : External) (ack : TcpAck) (request : TcpOpen)
    (retained : List UInt8) : Option (List UInt8) := do
  require (ack.cmd = "fang.tcp.ack" && ack.protocol = tcpProtocol && ack.session = sessionKind &&
    ack.ok && ack.receiverFingerprint = request.receiverFingerprint &&
    ack.senderFingerprint = request.senderFingerprint && ack.challenge = request.challenge &&
    ack.nonce = request.nonce && ack.remote = request.remote &&
    ack.clientX25519 = request.clientX25519)
  let receiver ← publicMatches external ack.receiverPubkey ack.receiverFingerprint
  let serverKey ← binary external 32 ack.serverX25519
  boundedTranscript "fang.tcp.ack/v3"
    [utf8 tcpProtocol, [1], utf8 sessionKind, retained, receiver.val, serverKey.val]

def RpcRequest.maxRecords : RpcRequest → Nat
  | .ping => 1
  | .findNode _ k => k.toNat
  | .services => maxPublished
  | .governance _ k => k.toNat

def recordBytes (external : External) (records : List String) (max : Nat) :
    Option (List (List UInt8)) := do
  require (records.length ≤ max)
  records.mapM (fun text => do
    let bytes ← external.base64Decode text
    require (external.base64Encode bytes = text)
    return bytes)

def resultTranscript (domain protocol : String) (retained : List UInt8) (receiver : Key)
    (records : List (List UInt8)) : Option (List UInt8) :=
  boundedTranscript domain ([utf8 protocol, [1], retained, receiver.val, [UInt8.ofNat records.length]] ++ records)

structure TcpRpcResult where
  cmd : String
  ok : Bool
  protocol : String
  receiverPubkey : String
  receiverFingerprint : String
  senderFingerprint : String
  challenge : String
  nonce : String
  op : String
  records : List String
  signature : String

def TcpRpcResult.transcript (external : External) (result : TcpRpcResult) (rpc : TcpRpc)
    (retained : List UInt8) : Option (List UInt8 × List (List UInt8) × Key) := do
  require (result.cmd = "fang.tcp.rpc.result" && result.protocol = tcpProtocol && result.ok &&
    result.receiverFingerprint = rpc.receiverFingerprint &&
    result.senderFingerprint = rpc.senderFingerprint && result.challenge = rpc.challenge &&
    result.nonce = rpc.nonce && result.op = rpc.op)
  let receiver ← publicMatches external result.receiverPubkey result.receiverFingerprint
  let request ← rpc.request
  let raw ← recordBytes external result.records request.maxRecords
  let transcript ← resultTranscript "fang.tcp.rpc.result/v1" tcpProtocol retained receiver raw
  return (transcript, raw, receiver)

structure QuicRpcResult where
  cmd : String
  ok : Bool
  protocol : String
  receiverPubkey : String
  receiverFingerprint : String
  senderFingerprint : String
  nonce : String
  op : String
  records : List String
  signature : String

def QuicRpcResult.transcript (external : External) (result : QuicRpcResult) (rpc : QuicRpc)
    (retained : List UInt8) : Option (List UInt8 × List (List UInt8) × Key) := do
  require (result.cmd = "fang.quic.rpc.result" && result.protocol = quicProtocol && result.ok &&
    result.receiverFingerprint = rpc.receiverFingerprint &&
    result.senderFingerprint = rpc.senderFingerprint && result.nonce = rpc.nonce &&
    result.op = rpc.op)
  let receiver ← publicMatches external result.receiverPubkey result.receiverFingerprint
  let request ← rpc.request
  let raw ← recordBytes external result.records request.maxRecords
  let transcript ← resultTranscript "fang.quic.rpc.result/v1" quicProtocol retained receiver raw
  return (transcript, raw, receiver)

end Werewolf.Transport
