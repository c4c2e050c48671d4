import Mathlib.Algebra.Group.Action.Defs
import Werewolf.Transport.AuthenticationProperties
import Werewolf.Transport.Results

/-! A result fits its line if its records do, since all its other fields are of
bounded length once it could be built; and a requester takes from it the records it
was built from. -/

namespace Werewolf.Transport
open Governance State Library
open Json hiding key number
open Authority (require require_eq_some)

section Fields

variable {size : Nat} {records : List (List UInt8)}

private theorem text_le {text : String} {bound : Nat} (short : byteLength text ≤ bound) :
    (toVec string text).length ≤ 6 * bound + 2 := by
  have spelled := length_toVec_string_le text
  have characters := (length_le_byteLength text).trans short
  omega

theorem RpcRequest.parse_op {op target : String} {k : UInt8} {request : RpcRequest}
    (parsed : RpcRequest.parse op target k = some request) : byteLength op ≤ 10 := by
  unfold RpcRequest.parse at parsed
  split at parsed
  · rename_i same; rw [same]; decide
  · split at parsed
    · rename_i same; rw [same]; decide
    · split at parsed
      · rename_i same; rw [same]; decide
      · split at parsed
        · rename_i same; rw [same]; decide
        · cases parsed

theorem publicMatches_binary {external : External} {text fingerprint : String} {key : Key}
    (found : publicMatches external text fingerprint = some key) :
    binary external 32 text = some key := by
  simp only [publicMatches, bind_eq_some, return_eq_some] at found
  obtain ⟨bytes, read, _, _, rfl⟩ := found
  exact read

theorem binary_length {external : External} {text : String} {bytes : ByteArr size}
    (read : binary external size text = some bytes) : byteLength text ≤ (size + 2) / 3 * 4 := by
  simp only [binary, bind_eq_some, require_eq_some, decide_eq_true_eq] at read
  obtain ⟨_, size, _⟩ := read
  exact size.le

theorem unhex_length {text : String} {bytes : ByteArr size} (read : unhex size text = some bytes) :
    byteLength text ≤ 2 * size := by
  simp only [unhex, bind_eq_some, require_eq_some, decide_eq_true_eq] at read
  obtain ⟨_, size, _⟩ := read
  exact size.le

section Encoding

variable {signer : Signer}
  (standard : Base64.Standard signer.base64Encode signer.base64Decode)

include standard

private theorem signature_length {identity : PeltIdentity} {message : List UInt8} {signature : String}
    (signed : signMessage signer identity message = some signature) :
    (toVec string signature).length = 90 := by
  simp only [signMessage, bind_eq_some, return_eq_some] at signed
  obtain ⟨_, _, secret, _, rfl⟩ := signed
  rw [standard.length_toVec, (signer.sign secret message).2]

theorem length_records_le {count : Nat}
    (few : records.length ≤ count) (short : ∀ record ∈ records, record.length ≤ size) :
    (toVec (array string) (records.map signer.base64Encode)).length ≤
      2 + count * ((size + 2) / 3 * 4 + 3) := by
  have each : ∀ width ∈ (records.map signer.base64Encode).map
      (fun text => (toVec string text).length + 1), width ≤ (size + 2) / 3 * 4 + 3 := by
    intro width member
    simp only [List.map_map, List.mem_map, Function.comp] at member
    obtain ⟨record, listed, rfl⟩ := member
    have bounded := short record listed
    rw [standard.length_toVec]
    omega
  have total := List.sum_le_card_nsmul _ _ each
  rw [List.length_map, List.length_map, smul_eq_mul] at total
  have whole : (toVec (array string) (records.map signer.base64Encode)).length ≤
      2 + ((records.map signer.base64Encode).map (fun text => (toVec string text).length + 1)).sum :=
    length_toVec_sequence_le string (records.map signer.base64Encode)
      (by decide : '['.utf8Size = 1) (by decide : ']'.utf8Size = 1)
  exact whole.trans (Nat.add_le_add_left (total.trans (Nat.mul_le_mul_right _ few)) 2)

theorem length_statements_le (few : records.length ≤ maxGovernanceK.toNat)
    (short : ∀ record ∈ records, record.length ≤ maxAcceptedStatement) :
    (toVec (array string) (records.map signer.base64Encode)).length ≤ 30000 :=
  (length_records_le standard few short).trans (by decide)

theorem recordBytes_encode {max : Nat} (few : records.length ≤ max) :
    recordBytes signer.toExternal (records.map signer.base64Encode) max = some records := by
  have each : (records.map signer.base64Encode).mapM (fun text => do
      let bytes ← signer.base64Decode text
      require (signer.base64Encode bytes = text)
      return bytes) = some records :=
    mapM_map_some (fun record _ => by simp [standard.roundTrip, require])
  simp only [recordBytes, List.length_map, require, few, decide_true, ↓reduceIte]
  exact each

end Encoding

end Fields

section Checking

variable {signer : Signer} {verifies : Key → List UInt8 → Signature → Bool}
  {receiver : PeltIdentity} {records : List (List UInt8)} {retained : List UInt8}
  (standard : Base64.Standard signer.base64Encode signer.base64Decode)

include standard

theorem binary_encode {size : Nat} (value : ByteArr size) :
    binary signer.toExternal size (signer.base64Encode value.val) = some value := by
  simp [binary, standard.utf8ByteSize, value.2, standard.roundTrip, sized_val, require]

end Checking

section Fitting

variable {signer : Signer} {receiver : PeltIdentity} {records : List (List UInt8)}
  {retained : List UInt8}

private theorem resultLine_fits {α : Type} {codec : Codec α} {result : α}
    (short : (toVec codec result).length < resultLimit) :
    ∃ line, resultLine codec result = some line := by
  have fits : (toVec codec result ++ [0x0A]).length ≤ resultLimit := by
    rw [List.length_append, List.length_singleton]
    exact short
  exact ⟨_, by rw [resultLine, require, decide_eq_true fits]; rfl⟩

theorem QuicRpcResult.new_shape {rpc : QuicRpc} {result : QuicRpcResult}
    (built : QuicRpcResult.new signer rpc retained receiver records = some result) :
    result = ⟨"fang.quic.rpc.result", true, quicProtocol, result.receiverPubkey,
        rpc.receiverFingerprint, rpc.senderFingerprint, rpc.nonce, rpc.op,
        records.map signer.base64Encode, result.signature⟩ ∧
      (∃ key, binary signer.toExternal 32 result.receiverPubkey = some key) ∧
      ∃ message, signMessage signer receiver message = some result.signature := by
  simp only [QuicRpcResult.new, QuicRpcResult.transcript, bind_eq_some, return_eq_some,
    require_eq_some, Bool.and_eq_true, decide_eq_true_eq, true_and, and_true] at built
  obtain ⟨_, ⟨_, same, key, matched, _⟩, signature, signed, rfl⟩ := built
  exact ⟨by rw [same], ⟨key, publicMatches_binary matched⟩, _, signed⟩

theorem TcpRpcResult.new_shape {rpc : TcpRpc} {result : TcpRpcResult}
    (built : TcpRpcResult.new signer rpc retained receiver records = some result) :
    result = ⟨"fang.tcp.rpc.result", true, tcpProtocol, result.receiverPubkey,
        rpc.receiverFingerprint, rpc.senderFingerprint, rpc.challenge, rpc.nonce, rpc.op,
        records.map signer.base64Encode, result.signature⟩ ∧
      (∃ key, binary signer.toExternal 32 result.receiverPubkey = some key) ∧
      ∃ message, signMessage signer receiver message = some result.signature := by
  simp only [TcpRpcResult.new, TcpRpcResult.transcript, bind_eq_some, return_eq_some,
    require_eq_some, Bool.and_eq_true, decide_eq_true_eq, true_and, and_true] at built
  obtain ⟨_, ⟨_, same, key, matched, _⟩, signature, signed, rfl⟩ := built
  exact ⟨by rw [same], ⟨key, publicMatches_binary matched⟩, _, signed⟩

theorem QuicRpcResult.line_fits (standard : Base64.Standard signer.base64Encode signer.base64Decode) {rpc : QuicRpc}
    {binding : ByteArr 32} {result : QuicRpcResult} (asked : rpc.transcript binding = some retained)
    (built : QuicRpcResult.new signer rpc retained receiver records = some result)
    (recordsText : (toVec (array string) (records.map signer.base64Encode)).length ≤ 30000) :
    ∃ line, resultLine quicRpcResultCodec result = some line := by
  simp only [QuicRpc.transcript, QuicRpc.request, bind_eq_some] at asked
  obtain ⟨_, ⟨_, _, parsed⟩, _, sender, _, receiverParsed, _, nonce, _⟩ := asked
  obtain ⟨shape, ⟨_, key⟩, _, signed⟩ := QuicRpcResult.new_shape built
  have constants : (toVec string "fang.quic.rpc.result").length = 22 ∧
      (toVec boolean true).length = 4 ∧
      (toVec string quicProtocol).length = 14 := by decide +kernel
  have keys : keyBytes "cmd" + keyBytes "ok" + keyBytes "protocol" +
      keyBytes "receiver_pubkey" + keyBytes "receiver_fingerprint" +
      keyBytes "sender_fingerprint" + keyBytes "nonce" + keyBytes "op" +
      keyBytes "records" + keyBytes "signature" ≤ 200 := by decide +kernel
  have keyText := text_le (binary_length key)
  have receiverText := text_le (Authority.fingerprint_size receiverParsed).le
  have senderText := text_le (Authority.fingerprint_size sender).le
  have nonceText := text_le (unhex_length nonce)
  have opText := text_le (RpcRequest.parse_op parsed)
  have signatureText := signature_length standard signed
  refine resultLine_fits ?_
  rw [shape]
  have printed (result : QuicRpcResult) : toVec quicRpcResultCodec result = toVec
      (object _) (result.cmd, result.ok, result.protocol, result.receiverPubkey,
        result.receiverFingerprint, result.senderFingerprint, result.nonce, result.op,
        result.records, result.signature) := rfl
  simp only [printed, length_toVec_object, length_toVec_fields, length_toVec_field, resultLimit]
  omega

theorem TcpRpcResult.line_fits (standard : Base64.Standard signer.base64Encode signer.base64Decode) {rpc : TcpRpc}
    {result : TcpRpcResult} (asked : rpc.transcript signer.toExternal = some retained)
    (built : TcpRpcResult.new signer rpc retained receiver records = some result)
    (recordsText : (toVec (array string) (records.map signer.base64Encode)).length ≤ 30000) :
    ∃ line, resultLine tcpRpcResultCodec result = some line := by
  simp only [TcpRpc.transcript, TcpRpc.request, bind_eq_some] at asked
  obtain ⟨_, ⟨_, _, parsed⟩, _, sender, _, receiverParsed, _, _, _, challenge, _, nonce, _⟩ := asked
  obtain ⟨shape, ⟨_, key⟩, _, signed⟩ := TcpRpcResult.new_shape built
  have constants : (toVec string "fang.tcp.rpc.result").length = 21 ∧
      (toVec boolean true).length = 4 ∧
      (toVec string tcpProtocol).length = 13 := by decide +kernel
  have keys : keyBytes "cmd" + keyBytes "ok" + keyBytes "protocol" +
      keyBytes "receiver_pubkey" + keyBytes "receiver_fingerprint" +
      keyBytes "sender_fingerprint" + keyBytes "challenge" + keyBytes "nonce" +
      keyBytes "op" + keyBytes "records" + keyBytes "signature" ≤ 200 := by
    decide +kernel
  have keyText := text_le (binary_length key)
  have receiverText := text_le (Authority.fingerprint_size receiverParsed).le
  have senderText := text_le (Authority.fingerprint_size sender).le
  have challengeText := text_le (unhex_length challenge)
  have nonceText := text_le (unhex_length nonce)
  have opText := text_le (RpcRequest.parse_op parsed)
  have signatureText := signature_length standard signed
  refine resultLine_fits ?_
  rw [shape]
  have printed (result : TcpRpcResult) : toVec tcpRpcResultCodec result = toVec
      (object _) (result.cmd, result.ok, result.protocol, result.receiverPubkey,
        result.receiverFingerprint, result.senderFingerprint, result.challenge, result.nonce,
        result.op, result.records, result.signature) := rfl
  simp only [printed, length_toVec_object, length_toVec_fields, length_toVec_field, resultLimit]
  omega

end Fitting

end Werewolf.Transport
