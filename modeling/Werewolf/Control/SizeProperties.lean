import Werewolf.Control.GovernanceProperties
import Werewolf.Control.Limits
import Werewolf.Terminal.Tombstone
import Werewolf.Transport.ResultProperties

/-! Whatever `apply` accepts fits everything it is carried in: a request at the
control socket, an entry of the archive, a line of an RPC with three others, and,
if it is a death, a Tombstone. -/

namespace Werewolf.Control
open Library Governance State
open Json hiding key number

section Requests

variable {external : External}

theorem length_requestLine (request : ControlRequest) : (requestLine request).length ≤
      30 + (toVec string request.id).length + (toVec string request.cmd).length +
        (request.args.map (fun argument => (toVec string argument.1).length +
          (toVec string argument.2).length + 2)).sum := by
  have keys : keyBytes "id" + keyBytes "cmd" + keyBytes "args" ≤ 20 := by
    decide +kernel
  have colon : ([':'].flatMap String.utf8EncodeChar).length = 1 := by decide
  have entry (argument : String × String) :
      (toVec (string.andThen (string.after [':'])) argument).length + 1 =
        (toVec string argument.1).length + (toVec string argument.2).length + 2 := by
    simp only [toVec, Codec.andThen, Codec.after, List.flatMap_append, List.length_append, colon]
    omega
  have listed := length_toVec_sequence_le (string.andThen (string.after [':']))
    request.args (by decide : '\x7b'.utf8Size = 1) (by decide : '\x7d'.utf8Size = 1)
  have printed : toVec requestCodec request = toVec (object _)
      (request.id, request.cmd, request.args) := rfl
  simp only [entry] at listed
  simp only [requestLine, List.length_append, List.length_singleton, printed,
    length_toVec_object, length_toVec_fields, length_toVec_field]
  omega

theorem applyRequest_fits (standard : Base64.Standard external.base64Encode external.base64Decode)
    {statement : Statement} (short : statement.encode.length ≤ maxAcceptedStatement)
    {expectHash : Option String}
    (hash : ∀ text ∈ expectHash, byteLength text ≤ argumentLimit "expect_hash") :
    checkRequest (applyRequest external statement expectHash) = true ∧
      (requestLine (applyRequest external statement expectHash)).length ≤ requestBytes := by
  have size := standard.utf8ByteSize statement.encode
  have spelled := standard.length_toVec statement.encode
  have bounded : statement.encode.length ≤ 2777 := short
  have known : (byteLength "werewolfctl" ≤ 128 ∧ byteLength "governance.apply" ≤ 64 ∧
      "governance.apply".toList.all (fun character => character.toNat < 128) = true) ∧
      allowedArguments "governance.apply" = ["statement", "expect_hash"] ∧
      argumentLimit "statement" = 12288 ∧ argumentLimit "expect_hash" = 128 := by decide +kernel
  obtain ⟨named, allowed, statementLimit, hashLimit⟩ := known
  have texts : (toVec string "werewolfctl").length = 13 ∧
      (toVec string "governance.apply").length = 18 ∧
      (toVec string "statement").length = 11 ∧
      (toVec string "expect_hash").length = 13 := by decide +kernel
  have line := length_requestLine (applyRequest external statement expectHash)
  have fits : byteLength (external.base64Encode statement.encode) ≤ 12288 := by
    rw [byteLength, size]
    omega
  cases expectHash with
  | none =>
    refine ⟨by simp [checkRequest, applyRequest, named, allowed, statementLimit, fits], ?_⟩
    simp only [applyRequest, Option.map_none, Option.toList_none, List.nil_append, List.map_cons,
      List.map_nil, List.sum_cons, List.sum_nil, requestBytes] at line ⊢
    omega
  | some text =>
    have expected := hash text rfl
    rw [hashLimit] at expected
    have hashText := length_toVec_string_le text
    have characters := (length_le_byteLength text).trans expected
    refine ⟨by simp [checkRequest, applyRequest, named, allowed, statementLimit, hashLimit, fits, expected], ?_⟩
    simp only [applyRequest, Option.map_some, Option.toList_some, List.singleton_append,
      List.map_cons, List.map_nil, List.sum_cons, List.sum_nil, requestBytes] at line ⊢
    omega

end Requests

/-- A statement that a node applies is short enough for everything that carries
it. The hash that a request tells the node to expect may be any that the request
can hold. -/
theorem accepted_statement_fits (outside : Terminal.Outside) (faithful : outside.Faithful)
    (sign : Key → List UInt8 → Signature) :
    (∀ statement, Accepted outside.toCrypto statement → statement.encode.length ≤ 2777 ∧
      Statement.decode statement.encode = .ok statement ∧
      (∀ expectHash : Option String,
        (∀ text ∈ expectHash, byteLength text ≤ argumentLimit "expect_hash") →
          checkRequest (applyRequest outside.toExternal statement expectHash) = true ∧
          (requestLine (applyRequest outside.toExternal statement expectHash)).length ≤ requestBytes) ∧
      (∀ (den : Storage.Den) sequence,
        readArchive (den.apply [⟨governanceArchiveName sequence, statement.encode⟩]) sequence = some statement) ∧
      (statement.core.body = .death → ∀ destruction software, checkSoftware software = true →
        ∃ tombstone, Terminal.death outside statement destruction software = some tombstone)) ∧
    ∀ statements : List Statement, statements.length ≤ 4 →
      (∀ statement ∈ statements, Accepted outside.toCrypto statement) →
        (∀ (rpc : Transport.QuicRpc) binding retained receiver result, rpc.transcript binding = some retained →
          Transport.QuicRpcResult.new ⟨outside.toExternal, sign⟩ rpc retained receiver
            (statements.map Statement.encode) = some result →
          ∃ line, Transport.resultLine Transport.quicRpcResultCodec result = some line) ∧
        ∀ (rpc : Transport.TcpRpc) retained receiver result, rpc.transcript outside.toExternal = some retained →
          Transport.TcpRpcResult.new ⟨outside.toExternal, sign⟩ rpc retained receiver
            (statements.map Statement.encode) = some result →
          ∃ line, Transport.resultLine Transport.tcpRpcResultCodec result = some line := by
  refine ⟨fun statement accepted => ?_, fun statements few accepted => ?_⟩
  · have short := accepted.short
    have size := short.length_le
    have encodable : Encodable statement := ⟨short.decode_encode, size.trans (by decide)⟩
    exact ⟨size, encodable.decoded, fun _ hash => applyRequest_fits faithful.base64 size hash,
      readArchive_written encodable,
      fun body destruction _ checked => Terminal.death_fits faithful.base64 body short.signatures checked destruction⟩
  · have counted : (statements.map Statement.encode).length ≤ Transport.maxGovernanceK.toNat := by
      rw [List.length_map]
      exact few
    have short : ∀ record ∈ statements.map Statement.encode, record.length ≤ maxAcceptedStatement := by
      intro record member
      obtain ⟨statement, listed, rfl⟩ := List.mem_map.mp member
      exact (accepted statement listed).short.length_le
    let signer : Transport.Signer := ⟨outside.toExternal, sign⟩
    have standard : Base64.Standard signer.base64Encode signer.base64Decode := faithful.base64
    exact ⟨fun _ _ _ _ _ asked built =>
        Transport.QuicRpcResult.line_fits standard asked built
          (Transport.length_statements_le standard counted short),
      fun _ _ _ _ asked built =>
        Transport.TcpRpcResult.line_fits standard asked built (Transport.length_statements_le standard counted short)⟩

/-- The theorem at a rotation, with Base64 as it is. -/
theorem rotation_fits : (Governance.Sample.signedWith 0 Governance.Sample.rotation).encode.length ≤ 2777 ∧
      ∀ den : Storage.Den, readArchive (den.apply [⟨governanceArchiveName 1,
        (Governance.Sample.signedWith 0 Governance.Sample.rotation).encode⟩]) 1 =
          some (Governance.Sample.signedWith 0 Governance.Sample.rotation) := by
  have accepted : Accepted Terminal.Sample.outside.toCrypto
      (Governance.Sample.signedWith 0 Governance.Sample.rotation) := by
    have applied : apply Governance.Sample.crypto (history Governance.Sample.crypto Governance.Sample.started)
        (Governance.Sample.signedWith 0 Governance.Sample.rotation) none =
          .ok (.applied ((history Governance.Sample.crypto Governance.Sample.rotatedRun).get
            (by decide +kernel))) := by decide +kernel
    rw [show Terminal.Sample.outside.toCrypto = Governance.Sample.crypto from rfl]
    exact ⟨_, _, _, applied⟩
  obtain ⟨short, _, _, archived, _⟩ := (accepted_statement_fits Terminal.Sample.outside
    Terminal.Sample.faithful (fun _ _ => Governance.Sample.signature 0 0)).1 _ accepted
  exact ⟨short, fun den => archived den 1⟩

end Werewolf.Control
