import Werewolf.Authority.Handshake
import Werewolf.Transport.AuthenticationProperties

/-! A network revocation against the handshakes. Exclusion is decided on the
full keys that records store, the TCP handshake on fingerprints, so a record of
the revoked key's fingerprint survives whenever it is not excluded itself. -/

namespace Werewolf.Transport
open Governance State Library
open Authority (System Mutation prepareGovernance require_eq_some)

section Fingerprints

variable {external : External}

def keyFingerprint (external : External) (key : Key) : String :=
  String.ofList ("wwp1:".toList ++ hexish ((external.blake3 key.val).val.take 8))

theorem fingerprint_of_decoded {text fingerprint : String} {key : Key}
    (decoded : external.base64Decode text = some key.val)
    (printed : fingerprintFromPublicKeyB64 external text = some fingerprint) :
    fingerprint = keyFingerprint external key := by
  rw [fingerprintFromPublicKeyB64, decoded, Option.map_some, Option.some.injEq] at printed
  exact printed.symm

theorem publicMatches_some {text fingerprint : String} {key : Key} (carried : binary external 32 text = some key)
    {matched : Key} (agrees : publicMatches external text fingerprint = some matched) :
    fingerprint = keyFingerprint external key := by
  simp only [publicMatches, bind_eq_some, require_eq_some, decide_eq_true_eq] at agrees
  obtain ⟨_, _, _, printed, _⟩ := agrees
  exact fingerprint_of_decoded (binary_some carried) printed

theorem peerValid_fingerprint {record : PeerRecord} (valid : peerValid external record = true) {text : String}
    (stores : record.publicKeyB64 = some text) {key : Key} (decoded : external.base64Decode text = some key.val) :
    record.fingerprint = keyFingerprint external key := by
  obtain ⟨_, _, printed⟩ := (peerValid_some valid).2 text stores
  exact fingerprint_of_decoded decoded printed

end Fingerprints

/-- With this Pack no OPEN authenticated by the key obtains a lease, whatever
the gate and the challenge are, and no record has the key's fingerprint. The
key that authenticates a TCP OPEN is the one it carries, that of a QUIC OPEN the
one its sender's record stores. -/
structure Expelled (suite : Suite) (peers : List PeerRecord) (key : Key) : Prop where
  records : ∀ record ∈ peers, record.fingerprint ≠ keyFingerprint suite.toExternal key
  tcp : ∀ daemon around message, daemon.peers = peers →
    binary suite.toExternal 32 message.senderPubkey = some key →
      tcpServerHandshake suite daemon around message = none
  quic : ∀ daemon around message, daemon.peers = peers →
    (storedKey peers message.senderFingerprint).bind (binary suite.toExternal 32) = some key →
      quicServerHandshake suite daemon around message = none

theorem TcpOpen.transcript_some {external : External} {message : TcpOpen}
    {retained : List UInt8} (signed : message.transcript external = some retained) {key : Key}
    (carried : binary external 32 message.senderPubkey = some key) :
    message.senderFingerprint = keyFingerprint external key := by
  simp only [TcpOpen.transcript, bind_eq_some] at signed
  obtain ⟨_, _, _, _, _, _, _, _, _, agrees, _⟩ := signed
  exact publicMatches_some carried agrees

theorem expelled_of_records {suite : Suite} {peers : List PeerRecord} {key : Key}
    (valid : pack suite.toExternal peers = true)
    (records : ∀ record ∈ peers, record.fingerprint ≠ keyFingerprint suite.toExternal key) :
    Expelled suite peers key := by
  refine ⟨records, fun daemon around message shares carried => ?_,
    fun daemon around message _ stored => ?_⟩
  · refine Option.eq_none_iff_forall_ne_some.mpr fun lease granted => ?_
    obtain ⟨retained, signed, ⟨record, member, named⟩, _⟩ := tcpServerHandshake_some granted
    exact records record (shares ▸ member) (named.trans (TcpOpen.transcript_some signed carried))
  · obtain ⟨text, found, decoded⟩ := Option.bind_eq_some_iff.mp stored
    obtain ⟨record, member, _, stores⟩ := storedKey_some found
    obtain ⟨_, each, _⟩ := (pack_iff _ _).mp valid
    exact absurd (peerValid_fingerprint (each record member) stores (binary_some decoded)) (records record member)

def publishedPack (system : System) (mutation : Mutation) : List PeerRecord :=
  (Authority.advance system { mutation with stage := .publishing } .done).peers

theorem publishedPack_applied {external : External} {system : System} (valid : pack external system.peers = true)
    {statement : Statement} {expectHash : Option Hash} {next : Head} {mutation : Mutation}
    (applied : apply external.toCrypto system.governance statement expectHash = .ok (.applied next))
    (prepared : prepareGovernance external system statement expectHash true = some mutation) :
    publishedPack system mutation = system.peers.filter (fun record => !excludes external next record) := by
  simp only [prepareGovernance, applied, Authority.require, if_true, Option.bind_eq_bind,
    Option.bind_some, Option.pure_def, Option.some.injEq] at prepared
  subst prepared
  refine List.filter_congr fun record member => ?_
  obtain ⟨_, _, names, _⟩ := (pack_iff _ _).mp valid
  -- The sweep goes by name, and names are unique.
  have swept : (system.peers.filter (excludes external next)).any
      (fun other => other.name = record.name) = excludes external next record := by
    rw [Bool.eq_iff_iff]
    simp only [List.any_eq_true, List.mem_filter, decide_eq_true_eq]
    constructor
    · rintro ⟨other, ⟨otherMember, excluded⟩, named⟩
      cases List.inj_on_of_nodup_map names otherMember member named
      exact excluded
    · intro excluded
      exact ⟨record, ⟨member, excluded⟩, rfl⟩
  rw [swept]

theorem excludes_of_revoked {external : External} {head next : Head} {statement : Statement}
    (sorted : StrictlySorted head.revoked) {keys : List Key} (body : statement.core.body = .revocation keys)
    (applied : applyTo external.toCrypto head statement = .ok (.applied next)) {key : Key} (named : key ∈ keys)
    {record : PeerRecord} (stores : peerKey external record = some key) :
    excludes external next record = true := by
  obtain ⟨_, effect, advances, rfl⟩ := applyTo_applied applied
  have revoked : effect.revoked = keys.foldl insertAbsent head.revoked := by
    cases applyBody_ok advances.body with
    | revocation found =>
      cases body.symm.trans found
      rfl
    | rotation found | admission found | activation found | death found =>
      cases body.symm.trans found
  obtain ⟨text, spelled, canonical⟩ := Option.bind_eq_some_iff.mp stores
  have decoded : publicKey external text = some key := by
    simp [publicKey, (key_iff.mp canonical).1, key.property]
  have listed : (binarySearch effect.revoked key).isOk = true := by
    rw [revoked, binarySearch_isOk_iff (foldl_insertAbsent_sorted sorted keys), mem_foldl_insertAbsent sorted]
    exact .inl named
  simp [excludes, spelled, decoded, Head.advance, listed]

theorem revoked_key_expelled_iff (suite : Suite) (system : System) (valid : pack suite.toExternal system.peers = true)
    (head next : Head) (governs : system.governance = some head) (statement : Statement) (keys : List Key)
    (body : statement.core.body = .revocation keys) (key : Key) (named : key ∈ keys) (expectHash : Option Hash)
    (applied : applyTo suite.toCrypto head statement = .ok (.applied next)) (mutation : Mutation)
    (prepared : prepareGovernance suite.toExternal system statement expectHash true = some mutation) :
    (Expelled suite (publishedPack system mutation) key ↔
      ∀ record ∈ system.peers, record.fingerprint = keyFingerprint suite.toExternal key →
        excludes suite.toExternal next record = true) ∧
    (StrictlySorted head.revoked → ∀ record ∈ system.peers, peerKey suite.toExternal record = some key →
        excludes suite.toExternal next record = true) := by
  have published : publishedPack system mutation =
      system.peers.filter (fun record => !excludes suite.toExternal next record) :=
    publishedPack_applied valid (by simpa only [apply, governs] using applied) prepared
  refine ⟨⟨fun expelled record member printed => ?_, fun excluded => ?_⟩,
    fun sorted record _ stores => excludes_of_revoked sorted body applied named stores⟩
  · by_contra kept
    refine expelled.records record ?_ printed
    rw [published]
    exact List.mem_filter.mpr ⟨member, by simpa using kept⟩
  · rw [published]
    refine expelled_of_records (pack_sublist List.filter_sublist valid) ?_
    intro record kept printed
    obtain ⟨member, spared⟩ := List.mem_filter.mp kept
    simp [excluded record member printed] at spared

namespace Sample

def revocation : Statement :=
  Governance.Sample.signedWith 0 (Governance.Sample.following Governance.Sample.genesis
      (.revocation [Governance.Sample.key 1]))

def head : Head :=
  (history Governance.Sample.crypto Governance.Sample.started).get (by decide +kernel)

def revokedHead : Head :=
  (history Governance.Sample.crypto (Governance.Sample.started ++ [(revocation, none)])).get (by decide +kernel)

def system (stored : Option String) : System :=
  System.start [member 1 stored] (some head) none false

def sweep (stored : Option String) : Mutation :=
  (prepareGovernance suite.toExternal (system stored) revocation none true).getD (.ofPack [] [])

theorem sweep_prepared (stored : Option String) :
    prepareGovernance suite.toExternal (system stored) revocation none true = some (sweep stored) := by
  have applied : apply suite.toCrypto (some head) revocation none = .ok (.applied revokedHead) := by decide +kernel
  have governs : (system stored).governance = some head := rfl
  simp [sweep, prepareGovernance, governs, applied, Authority.require]

end Sample

open Sample

/-- A record that stores the revoked key goes, and its key with it. -/
theorem keyed_member_expelled : Expelled suite (publishedPack (system (some (Sample.keyText 1)))
        (sweep (some (Sample.keyText 1))))
      (Governance.Sample.key 1) :=
  (revoked_key_expelled_iff suite (system (some (Sample.keyText 1)))
    (by decide +kernel) head Sample.revokedHead rfl revocation _ rfl
    (Governance.Sample.key 1) (by simp) none (by decide +kernel) _
    (sweep_prepared _)).1.mpr (by decide +kernel)

/-- Before activation a record without a full key survives the revocation of
the key its member signs with, and the next OPEN under that key is granted. -/
theorem keyless_member_survives : pack suite.toExternal (system none).peers = true ∧
      prepareGovernance suite.toExternal (system none) revocation none true = some (sweep none) ∧
      (publishedPack (system none) (sweep none)).map (·.fingerprint) =
        [keyFingerprint suite.toExternal (Governance.Sample.key 1)] ∧
      binary suite.toExternal 32 (tcpOpen 1).senderPubkey = some (Governance.Sample.key 1) ∧
      (tcpServerHandshake suite (daemon (publishedPack (system none) (sweep none))) around
        (tcpOpen 1)).isSome = true :=
  ⟨by decide +kernel, sweep_prepared none, by decide +kernel, by decide +kernel,
    by decide +kernel⟩

end Werewolf.Transport
