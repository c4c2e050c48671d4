import Werewolf.Authority.GateProperties
import Werewolf.Governance.RunProperties
import Werewolf.State.ValidationProperties
import Werewolf.Transport.Receiver

/-! What each of the four receivers has verified when it grants a lease or
answers. Three of them use the key the Pack stores; the TCP handshake looks only
for the fingerprint and uses the key the message carries. -/

namespace Werewolf.Transport
open Governance State Library
open Authority (Gate require require_eq_some)

theorem binary_some {external : External} {size : Nat} {text : String} {value : ByteArr size}
    (decoded : binary external size text = some value) :
    external.base64Decode text = some value.val := by
  simp only [binary, bind_eq_some, require_eq_some, return_eq_some] at decoded
  obtain ⟨_, _, bytes, read, _, fits, _, _, rfl⟩ := decoded
  rw [read, sized_some fits]

theorem binary_spelling {external : External} {size : Nat} {text : String} {value : ByteArr size}
    (read : binary external size text = some value) : external.base64Encode value.val = text := by
  simp only [binary, bind_eq_some, return_eq_some, require_eq_some, decide_eq_true_eq] at read
  obtain ⟨_, _, _, _, _, _, _, spelled, rfl⟩ := read
  exact spelled

theorem verify_iff {suite : Suite} {text signature : String} {bytes : List UInt8} :
    verify suite text bytes signature = some () ↔ ∃ key read, binary suite.toExternal 32 text = some key ∧
        binary suite.toExternal 64 signature = some read ∧ suite.fromBytes key = true ∧
        suite.verify key bytes read = true := by
  simp only [verify, verifyMessage, bind_eq_some, require_eq_some]
  constructor
  · rintro ⟨key, canonical, read, spelled, _, decoded, _, sized, _, strong, _, found, _, fits, valid⟩
    cases (binary_some canonical).symm.trans decoded
    cases (binary_some spelled).symm.trans found
    cases (sized_val key).symm.trans sized
    cases (sized_val read).symm.trans fits
    exact ⟨key, read, canonical, spelled, strong, valid⟩
  · rintro ⟨key, read, canonical, spelled, strong, valid⟩
    exact ⟨key, canonical, read, spelled, _, binary_some canonical, key, sized_val key, (), strong,
      _, binary_some spelled, read, sized_val read, valid⟩

section Receivers

variable {suite : Suite} {daemon : Daemon} {around : Surroundings}

theorem tcpServerHandshake_some {message : TcpOpen} {lease : UInt64 × Gate}
    (granted : tcpServerHandshake suite daemon around message = some lease) :
    ∃ retained, message.transcript suite.toExternal = some retained ∧
      (∃ record ∈ daemon.peers, record.fingerprint = message.senderFingerprint) ∧
      verify suite message.senderPubkey retained message.signature = some () := by
  simp only [tcpServerHandshake, tcpServerGuard, bind_eq_some, require_eq_some,
    List.any_eq_true, decide_eq_true_eq] at granted
  obtain ⟨_, _, _, ⟨retained, signed, _, member, _, _, _, verified, _⟩, _⟩ := granted
  exact ⟨retained, signed, member, verified⟩

theorem quicServerHandshake_some {message : QuicOpen} {lease : UInt64 × Gate}
    (granted : quicServerHandshake suite daemon around message = some lease) :
    ∃ retained, message.transcript around.binding = some retained ∧
      ∃ stored, storedKey daemon.peers message.senderFingerprint = some stored ∧
        verify suite stored retained message.signature = some () := by
  simp only [quicServerHandshake, quicServerGuard, bind_eq_some] at granted
  obtain ⟨_, ⟨retained, signed, stored, found, _, _, _, _, _, verified, _⟩, _⟩ := granted
  exact ⟨retained, signed, stored, found, verified⟩

theorem answerTcp_some {message : TcpRpc} {request : RpcRequest}
    (answered : answerTcp suite daemon around message = some request) :
    ∃ retained, message.transcript suite.toExternal = some retained ∧
      (∃ record ∈ daemon.peers, record.fingerprint = message.senderFingerprint ∧
        record.publicKeyB64 = some message.senderPubkey) ∧
      verify suite message.senderPubkey retained message.signature = some () ∧
      daemon.gate.locked = false := by
  simp only [answerTcp, tcpAnswerGuard, bind_eq_some, require_eq_some, List.any_eq_true,
    Bool.and_eq_true, decide_eq_true_eq, Bool.not_eq_true'] at answered
  obtain ⟨_, _, _, ⟨retained, signed, _, _, _, member, _, unlocked, _, _, _, verified, _⟩, _⟩ :=
    answered
  exact ⟨retained, signed, member, verified, unlocked⟩

theorem answerQuic_some {message : QuicRpc} {request : RpcRequest}
    (answered : answerQuic suite daemon around message = some request) :
    ∃ retained, message.transcript around.binding = some retained ∧
      ∃ stored, storedKey daemon.peers message.senderFingerprint = some stored ∧
        verify suite stored retained message.signature = some () ∧
        daemon.gate.locked = false := by
  simp only [answerQuic, quicAnswerGuard, bind_eq_some, require_eq_some, Bool.not_eq_true'] at answered
  obtain ⟨_, ⟨retained, signed, stored, found, _, _, _, unlocked, _, _, _, verified, _⟩, _⟩ :=
    answered
  exact ⟨retained, signed, stored, found, verified, unlocked⟩

end Receivers

theorem storedKey_some {peers : List PeerRecord} {fingerprint stored : String}
    (found : storedKey peers fingerprint = some stored) :
    ∃ record ∈ peers, record.fingerprint = fingerprint ∧ record.publicKeyB64 = some stored := by
  obtain ⟨record, first, holds⟩ := Option.bind_eq_some_iff.mp found
  exact ⟨record, List.mem_of_find?_eq_some first, by simpa using List.find?_some first, holds⟩

theorem record_unique {external : External} {peers : List PeerRecord}
    (valid : pack external peers = true) {left right : PeerRecord} (leftMember : left ∈ peers)
    (rightMember : right ∈ peers) (same : left.fingerprint = right.fingerprint) :
    left = right := by
  obtain ⟨_, _, _, fingerprints, _⟩ := (pack_iff external peers).mp valid
  exact List.inj_on_of_nodup_map fingerprints leftMember rightMember same

/-- The sender's Pack record holds a full key, and the signature of the
transcript verifies under that key. -/
def StoredKeyVerifies (suite : Suite) (peers : List PeerRecord) (sender : String)
    (retained : Option (List UInt8)) (signature : String) : Prop :=
  ∃ record ∈ peers, record.fingerprint = sender ∧
    ∃ stored, record.publicKeyB64 = some stored ∧
      ∃ message, retained = some message ∧ verify suite stored message signature = some ()

/-- The sender's record stores the very key that the message carries. -/
def StoresCarriedKey (peers : List PeerRecord) (message : TcpOpen) : Prop :=
  ∀ record ∈ peers, record.fingerprint = message.senderFingerprint →
    record.publicKeyB64 = some message.senderPubkey

section Carried

variable {suite : Suite} {daemon : Daemon} {around : Surroundings} {message : TcpOpen}
  {lease : UInt64 × Gate}

theorem storedKeyVerifies_of_stores (stores : StoresCarriedKey daemon.peers message)
    (granted : tcpServerHandshake suite daemon around message = some lease) :
    StoredKeyVerifies suite daemon.peers message.senderFingerprint
      (message.transcript suite.toExternal) message.signature := by
  obtain ⟨retained, signed, ⟨record, member, named⟩, verified⟩ := tcpServerHandshake_some granted
  exact ⟨record, member, named, _, stores record member named, retained, signed, verified⟩

/-- Of the verification only what it says of the carried key matters to a lease. -/
theorem tcpServerHandshake_reverified (predicate : Key → List UInt8 → Signature → Bool)
    (granted : tcpServerHandshake suite daemon around message = some lease)
    (verified : ∀ retained, message.transcript suite.toExternal = some retained →
      verify { suite with verify := predicate } message.senderPubkey retained message.signature = some ()) :
    tcpServerHandshake { suite with verify := predicate } daemon around message = some lease := by
  simp only [tcpServerHandshake, tcpServerGuard, bind_eq_some] at granted ⊢
  obtain ⟨context, issued, passed, ⟨retained, signed, _, member, _, bound, _, _, rest⟩, leased⟩ :=
    granted
  exact ⟨context, issued, passed, ⟨retained, signed, (), member, (), bound, (),
    verified retained signed, rest⟩, leased⟩

/-- Where the record stores another key or none, a verification that accepts the
carried key alone grants the lease. -/
theorem storesCarriedKey_of_verifies (valid : pack suite.toExternal daemon.peers = true)
    (granted : tcpServerHandshake suite daemon around message = some lease) (always : ∀ predicate lease,
      tcpServerHandshake { suite with verify := predicate } daemon around message = some lease →
        StoredKeyVerifies { suite with verify := predicate } daemon.peers message.senderFingerprint
          (message.transcript suite.toExternal) message.signature) :
    StoresCarriedKey daemon.peers message := by
  obtain ⟨retained, signed, _, verified⟩ := tcpServerHandshake_some granted
  obtain ⟨key, read, canonical, spelled, strong, _⟩ := verify_iff.mp verified
  have alone := tcpServerHandshake_reverified (fun other _ _ => other = key) granted
    (fun _ _ => verify_iff.mpr ⟨key, read, canonical, spelled, strong, decide_eq_true rfl⟩)
  intro record member named
  obtain ⟨holder, listed, same, stored, holds, _, _, accepted⟩ := always _ lease alone
  cases record_unique valid member listed (named.trans same.symm)
  obtain ⟨other, _, storedKey, _, _, only⟩ := verify_iff.mp accepted
  cases of_decide_eq_true only
  rw [holds, ← binary_spelling storedKey, binary_spelling canonical]

end Carried

/-- A granted TCP OPEN verifies under the stored key, whatever verification accepts,
exactly if the record stores the key it carries. The other three receivers always
verify under the stored key. -/
theorem stored_key_verifies_iff (suite : Suite) (daemon : Daemon) (around : Surroundings)
    (valid : pack suite.toExternal daemon.peers = true) :
    (∀ message lease, tcpServerHandshake suite daemon around message = some lease →
      ((∀ predicate lease, tcpServerHandshake { suite with verify := predicate } daemon around message = some lease →
          StoredKeyVerifies { suite with verify := predicate } daemon.peers
            message.senderFingerprint (message.transcript suite.toExternal) message.signature) ↔
        StoresCarriedKey daemon.peers message)) ∧
    (∀ message lease, quicServerHandshake suite daemon around message = some lease →
      StoredKeyVerifies suite daemon.peers message.senderFingerprint
        (message.transcript around.binding) message.signature) ∧
    (∀ message request, answerTcp suite daemon around message = some request →
      StoredKeyVerifies suite daemon.peers message.senderFingerprint
        (message.transcript suite.toExternal) message.signature) ∧
    (∀ message request, answerQuic suite daemon around message = some request →
      StoredKeyVerifies suite daemon.peers message.senderFingerprint
        (message.transcript around.binding) message.signature) := by
  refine ⟨fun message lease granted => ?_, fun message lease granted => ?_,
    fun message request answered => ?_, fun message request answered => ?_⟩
  · exact ⟨storesCarriedKey_of_verifies valid granted,
      fun stores _ _ granted => storedKeyVerifies_of_stores stores granted⟩
  · obtain ⟨retained, signed, stored, found, verified⟩ := quicServerHandshake_some granted
    obtain ⟨record, member, named, holds⟩ := storedKey_some found
    exact ⟨record, member, named, stored, holds, retained, signed, verified⟩
  · obtain ⟨retained, signed, ⟨record, member, named, holds⟩, verified, _⟩ :=
      answerTcp_some answered
    exact ⟨record, member, named, _, holds, retained, signed, verified⟩
  · obtain ⟨retained, signed, stored, found, verified, _⟩ := answerQuic_some answered
    obtain ⟨record, member, named, holds⟩ := storedKey_some found
    exact ⟨record, member, named, stored, holds, retained, signed, verified⟩

namespace Sample

def base64Encode (bytes : List UInt8) : String :=
  let digit := Char.ofNat (0x41 + (bytes.headD 0).toNat)
  if bytes.length = 32 then String.ofList (List.replicate 43 digit ++ ['='])
  else String.ofList (List.replicate 86 digit ++ ['=', '='])

def base64Decode (text : String) : Option (List UInt8) :=
  let byte := UInt8.ofNat ((text.toList.headD 'A').toNat - 0x41)
  if text.length = 44 then some (List.replicate 32 byte)
  else if text.length = 88 then some (List.replicate 64 byte)
  else none

def suite : Suite where
  toCrypto := Governance.Sample.crypto
  base64Decode := base64Decode
  base64Encode := base64Encode
  isSocketAddr _ := true
  verify key _ signature := signature.val.take 32 = key.val

def keyText (tag : UInt8) : String := base64Encode (List.replicate 32 tag)

def fingerprintOf (tag : UInt8) : String :=
  (fingerprintFromPublicKeyB64 suite.toExternal (keyText tag)).getD ""

def member (tag : UInt8) (stored : Option String) : PeerRecord :=
  ⟨"howler", fingerprintOf tag, "tcp://127.0.0.1:7000", .packmate, stored⟩

def daemon (peers : List PeerRecord) : Daemon where
  pelt := some ⟨keyText 0, keyText 0, fingerprintOf 0⟩
  peers := peers
  gate := Gate.initial false
  admission := ⟨∅, 64, ∅⟩

def around : Surroundings where
  started := 0
  issued := 0
  checked := 0
  consumed := 0
  challenge := ByteArr.zero 32
  binding := ByteArr.zero 32
  connection := 0
  replay := ⟨[]⟩
  limiterAllows := true
  beforeTicket := id
  beforeReserve := id

def zeros (count : Nat) : String := String.ofList (List.replicate count '0')

def tcpOpen (tag : UInt8) : TcpOpen where
  cmd := "fang.pipe"
  protocol := tcpProtocol
  senderPubkey := keyText tag
  senderFingerprint := fingerprintOf tag
  receiverFingerprint := fingerprintOf 0
  challenge := zeros 64
  nonce := zeros 32
  clientX25519 := keyText tag
  remote := "127.0.0.1:22"
  signature := base64Encode (List.replicate 64 tag)

end Sample

open Sample

/-- An OPEN of a member whose record stores its full key. -/
theorem keyed_member_open_verifies : pack Sample.suite.toExternal [Sample.member 1 (some (Sample.keyText 1))] = true ∧
      StoredKeyVerifies Sample.suite [Sample.member 1 (some (Sample.keyText 1))] (tcpOpen 1).senderFingerprint
        ((tcpOpen 1).transcript Sample.suite.toExternal) (tcpOpen 1).signature := by
  have valid : pack Sample.suite.toExternal [Sample.member 1 (some (Sample.keyText 1))] = true := by decide +kernel
  have granted : (tcpServerHandshake Sample.suite
      (Sample.daemon [Sample.member 1 (some (Sample.keyText 1))]) Sample.around
      (tcpOpen 1)).isSome = true := by decide +kernel
  obtain ⟨lease, held⟩ := Option.isSome_iff_exists.mp granted
  have stores : StoresCarriedKey [Sample.member 1 (some (Sample.keyText 1))] (tcpOpen 1) := by
    intro record member _
    cases List.mem_singleton.mp member
    rfl
  exact ⟨valid, ((stored_key_verifies_iff Sample.suite (Sample.daemon _) Sample.around
    valid).1 (tcpOpen 1) lease held).mpr stores Sample.suite.verify lease held⟩

/-- A record without a full key passes validation, and an OPEN that carries any
key of its fingerprint obtains a lease. -/
theorem keyless_member_open_granted : pack Sample.suite.toExternal [Sample.member 1 none] = true ∧
      (tcpServerHandshake Sample.suite (Sample.daemon [Sample.member 1 none]) Sample.around
        (tcpOpen 1)).isSome = true ∧
      ¬ StoredKeyVerifies Sample.suite [Sample.member 1 none] (tcpOpen 1).senderFingerprint
        ((tcpOpen 1).transcript Sample.suite.toExternal) (tcpOpen 1).signature := by
  refine ⟨by decide +kernel, by decide +kernel, ?_⟩
  intro ⟨record, member, _, stored, holds, _⟩
  cases List.mem_singleton.mp member
  cases holds

end Werewolf.Transport
