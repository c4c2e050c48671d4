import Mathlib.Algebra.Order.BigOperators.Group.List
import Werewolf.Authority.GateProperties
import Werewolf.Governance.SizeProperties
import Werewolf.Library.Base64
import Werewolf.Transport.Transcripts

/-! The results of the RPCs: how a responder builds one, the line it is sent in,
and what a requester makes of the statements in the answer to a `governance`
request. -/

namespace Werewolf.Transport
open Governance State Library
open Json hiding key number
open Authority (require)

def resultLimit : Nat := 32 * 1024

/-- What a signature takes from outside the repository, besides what validation
takes: `SigningKey::sign` of a secret key. -/
structure Signer extends External where
  sign : Key → List UInt8 → Signature

def signMessage (signer : Signer) (identity : PeltIdentity) (message : List UInt8) :
    Option String := do
  let secret ← sized 32 (← signer.base64Decode identity.secretKeyB64)
  return signer.base64Encode (signer.sign secret message).val

section Building

variable (signer : Signer)

def QuicRpcResult.new (rpc : QuicRpc) (retained : List UInt8) (receiver : PeltIdentity)
    (records : List (List UInt8)) : Option QuicRpcResult := do
  let value : QuicRpcResult := {
    cmd := "fang.quic.rpc.result"
    ok := true
    protocol := quicProtocol
    receiverPubkey := receiver.publicKeyB64
    receiverFingerprint := receiver.fingerprint
    senderFingerprint := rpc.senderFingerprint
    nonce := rpc.nonce
    op := rpc.op
    records := records.map signer.base64Encode
    signature := "" }
  let (transcript, _) ← value.transcript signer.toExternal rpc retained
  let signature ← signMessage signer receiver transcript
  return { value with signature := signature }

def TcpRpcResult.new (rpc : TcpRpc) (retained : List UInt8) (receiver : PeltIdentity)
    (records : List (List UInt8)) : Option TcpRpcResult := do
  let value : TcpRpcResult := {
    cmd := "fang.tcp.rpc.result"
    ok := true
    protocol := tcpProtocol
    receiverPubkey := receiver.publicKeyB64
    receiverFingerprint := receiver.fingerprint
    senderFingerprint := rpc.senderFingerprint
    challenge := rpc.challenge
    nonce := rpc.nonce
    op := rpc.op
    records := records.map signer.base64Encode
    signature := "" }
  let (transcript, _) ← value.transcript signer.toExternal rpc retained
  let signature ← signMessage signer receiver transcript
  return { value with signature := signature }

end Building

section Lines

def quicRpcResultCodec : Codec QuicRpcResult :=
  (object (fields (field "cmd" string)
    (fields (field "ok" boolean)
    (fields (field "protocol" string)
    (fields (field "receiver_pubkey" string)
    (fields (field "receiver_fingerprint" string)
    (fields (field "sender_fingerprint" string)
    (fields (field "nonce" string)
    (fields (field "op" string)
    (fields (field "records" (array string))
    (field "signature" string))))))))))).imap
    (fun result => (result.cmd, result.ok, result.protocol, result.receiverPubkey,
      result.receiverFingerprint, result.senderFingerprint, result.nonce, result.op,
      result.records, result.signature))
    (fun (cmd, ok, protocol, receiverPubkey, receiverFingerprint, senderFingerprint, nonce, op,
      records, signature) => some ⟨cmd, ok, protocol, receiverPubkey, receiverFingerprint,
      senderFingerprint, nonce, op, records, signature⟩)

def tcpRpcResultCodec : Codec TcpRpcResult :=
  (object (fields (field "cmd" string)
    (fields (field "ok" boolean)
    (fields (field "protocol" string)
    (fields (field "receiver_pubkey" string)
    (fields (field "receiver_fingerprint" string)
    (fields (field "sender_fingerprint" string)
    (fields (field "challenge" string)
    (fields (field "nonce" string)
    (fields (field "op" string)
    (fields (field "records" (array string))
    (field "signature" string)))))))))))).imap
    (fun result => (result.cmd, result.ok, result.protocol, result.receiverPubkey,
      result.receiverFingerprint, result.senderFingerprint, result.challenge, result.nonce,
      result.op, result.records, result.signature))
    (fun (cmd, ok, protocol, receiverPubkey, receiverFingerprint, senderFingerprint, challenge,
      nonce, op, records, signature) => some ⟨cmd, ok, protocol, receiverPubkey,
      receiverFingerprint, senderFingerprint, challenge, nonce, op, records, signature⟩)

def resultLine {α : Type} (codec : Codec α) (result : α) : Option (List UInt8) := do
  let data := toVec codec result ++ [0x0A]
  require (data.length ≤ resultLimit)
  return data

end Lines

section Checking

/-- The two keys of an identity belong together: what the secret one signs is
verified with the public one. -/
def KeysMatch (signer : Signer) (verifies : Key → List UInt8 → Signature → Bool) (identity : PeltIdentity) : Prop :=
  ∀ publicKey secret, (signer.base64Decode identity.publicKeyB64).bind (sized 32) = some publicKey →
    (signer.base64Decode identity.secretKeyB64).bind (sized 32) = some secret → signer.fromBytes publicKey = true ∧
        ∀ message, verifies publicKey message (signer.sign secret message) = true

variable (suite : Suite)

/-- The raw records of a result and the key of its signature, if it answers the
request. -/
def QuicRpcResult.checked (result : QuicRpcResult) (rpc : QuicRpc) (retained : List UInt8) :
    Option (List (List UInt8) × Key) := do
  let (transcript, raw, receiver) ← result.transcript suite.toExternal rpc retained
  verify suite result.receiverPubkey transcript result.signature
  return (raw, receiver)

def TcpRpcResult.checked (result : TcpRpcResult) (rpc : TcpRpc) (retained : List UInt8) :
    Option (List (List UInt8) × Key) := do
  let (transcript, raw, receiver) ← result.transcript suite.toExternal rpc retained
  verify suite result.receiverPubkey transcript result.signature
  return (raw, receiver)

end Checking

section Answers

/-- The loop of `accepted_governance`: each statement names the hash before it,
and the numbers are consecutive. -/
def chained (crypto : Crypto) (previous : Hash) (sequence : Option UInt64) :
    List Statement → Option Unit
  | [] => some ()
  | statement :: rest => do
      require (statement.core.previous = previous)
      match sequence with
      | none => pure ()
      | some last =>
          require (last.toNat + 1 < 2 ^ 64)
          require (statement.core.sequence = last + 1)
      chained crypto (statement.core.hash crypto) (some statement.core.sequence) rest

/-- The statements of a `governance` result, chained from the head it was asked
for. -/
def acceptedGovernance (crypto : Crypto) (raw : List (List UInt8)) (request : RpcRequest) :
    Option (List Statement) :=
  match request with
  | .governance head _ => do
      let statements ← raw.mapM (fun bytes => (Statement.decode bytes).toOption)
      chained crypto head none statements
      return statements
  | _ => none

end Answers

end Werewolf.Transport
