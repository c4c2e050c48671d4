import Mathlib.Algebra.Group.Action.Defs
import Werewolf.Discovery.ContactProperties

/-! A contact record is read back from its encoding, and holds for the time it was
signed for. -/

namespace Werewolf.Discovery
open Library Governance State Policy Transport
open Reader (bind_ok_iff pure_ok_iff lift_ok_iff prefixedText)

namespace ContactRecord

structure Bounded (record : ContactRecord) : Prop where
  few : record.addresses.length ≤ Control.maxAddresses
  short : ∀ address ∈ record.addresses, byteLength address ≤ Control.maxAddressLen

section Encoding

variable {record : ContactRecord}

theorem body_eq (record : ContactRecord) :
    record.body = record.publicKey.val ++ ([UInt8.ofNat record.addresses.length] ++
      (record.addresses.flatMap prefixedText ++
        (beBytes 8 record.seq.toNat ++ beBytes 8 record.expiresAt.toNat))) := by
  simp only [body, List.append_assoc]
  rfl

theorem Bounded.length_addresses (bounded : record.Bounded) :
    (record.addresses.flatMap prefixedText).length ≤ 1032 := by
  have each : ∀ size ∈ record.addresses.map (fun address => (prefixedText address).length), size ≤ 258 := by
    intro size member
    obtain ⟨address, listed, rfl⟩ := List.mem_map.mp member
    have short : address.utf8ByteSize ≤ 256 := bounded.short address listed
    rw [Reader.length_prefixedText]
    omega
  have total := List.sum_le_card_nsmul _ _ each
  have few : record.addresses.length ≤ 4 := bounded.few
  rw [List.length_map, smul_eq_mul] at total
  rw [List.length_flatMap]
  omega

theorem length_encode (record : ContactRecord) :
    record.encode.length = 113 + (record.addresses.flatMap prefixedText).length := by
  rw [encode, body_eq]
  simp only [List.length_append, List.length_singleton, length_beBytes, record.publicKey.2, record.signature.2]
  omega

theorem read_encode (bounded : record.Bounded) (listed : record.addresses ≠ []) :
    read record.encode = .ok (record, []) := by
  have few : record.addresses.length ≤ 4 := bounded.few
  have counted : (UInt8.ofNat record.addresses.length).toNat = record.addresses.length := by
    rw [UInt8.toNat_ofNat', Nat.mod_eq_of_lt (by omega)]
  have accepted : ¬ (UInt8.ofNat record.addresses.length = 0 ∨
      Control.maxAddresses < (UInt8.ofNat record.addresses.length).toNat) := by
    rw [counted]
    rintro (none | many)
    · rw [none] at counted
      exact listed (List.length_eq_zero_iff.mp counted.symm)
    · exact absurd bounded.few (Nat.not_le.mpr many)
  have addresses := Reader.repeated_reads record.addresses (fun address member =>
    @Reader.text_reads _ ContactError.malformed .address .address _ _ (bounded.short address member) (by decide))
  rw [← counted] at addresses
  have seq := @Reader.number_reads _ ContactError.malformed 8 _ record.seq.toNat_lt
  have expiresAt := @Reader.number_reads _ ContactError.malformed 8 _ record.expiresAt.toNat_lt
  rw [encode, body_eq]
  simp only [List.append_assoc]
  refine bind_ok_iff.mpr ⟨_, _, Reader.take_reads _ record.publicKey _, ?_⟩
  refine bind_ok_iff.mpr ⟨_, _, Reader.byte_reads _ _ _, ?_⟩
  refine bind_ok_iff.mpr ⟨(), _, lift_ok_iff.mpr ⟨if_neg accepted, rfl⟩, ?_⟩
  refine bind_ok_iff.mpr ⟨_, _, addresses _, ?_⟩
  refine bind_ok_iff.mpr ⟨_, _, seq _, ?_⟩
  refine bind_ok_iff.mpr ⟨_, _, expiresAt _, ?_⟩
  rw [← List.append_nil record.signature.val]
  refine bind_ok_iff.mpr ⟨_, _, Reader.take_reads _ record.signature _, ?_⟩
  refine bind_ok_iff.mpr ⟨(), [], rfl, pure_ok_iff.mpr ⟨?_, rfl⟩⟩
  rw [UInt64.ofNat_toNat, UInt64.ofNat_toNat]

theorem encode_of_read {bytes rest : List UInt8} (found : read bytes = .ok (record, rest)) :
    record.encode = bytes ∧ record.addresses ≠ [] ∧ record.Bounded := by
  simp only [read, bind_ok_iff, pure_ok_iff, lift_ok_iff] at found
  obtain ⟨publicKey, _, key, count, _, counted, _, _, ⟨limited, rfl⟩, addresses, _, listed, seq, _,
    first, expiresAt, _, second, signature, _, signed, _, _, ended, rfl, rfl⟩ := found
  obtain ⟨split, length⟩ := Reader.repeated_inverts Reader.text_inverts listed
  obtain ⟨present, few⟩ := not_or.mp (ite_eq_ok_iff.mp limited).1
  refine ⟨?_, ?_, ?_, Reader.repeated_text_ok listed⟩
  · have small : seq < 2 ^ 64 := Reader.number_lt first
    have small' : expiresAt < 2 ^ 64 := Reader.number_lt second
    rw [Reader.take_inverts _ _ _ _ _ key, Reader.byte_inverts _ _ _ _ counted, split,
      Reader.number_inverts _ _ _ _ _ first, Reader.number_inverts _ _ _ _ _ second,
      Reader.take_inverts _ _ _ _ _ signed, Reader.finished_ok ended, encode, body_eq]
    simp only [length, UInt8.ofNat_toNat, UInt64.toNat_ofNat', List.append_assoc, List.append_nil]
    rw [Nat.mod_eq_of_lt small, Nat.mod_eq_of_lt small']
  · intro none
    rw [show addresses = [] from none] at length
    exact present (UInt8.toNat.inj length.symm)
  · exact length.trans_le (Nat.not_lt.mp few)

/-- The decoder takes exactly the encodings of records whose addresses keep to its
limits. -/
theorem decode_eq_ok_iff {bytes : List UInt8} : decode bytes = .ok record ↔
      record.encode = bytes ∧ record.addresses ≠ [] ∧ record.Bounded := by
  constructor
  · intro decoded
    unfold decode at decoded
    split at decoded
    · cases decoded
    · cases found : read bytes with
      | error error => simp [found, Except.map] at decoded
      | ok result =>
        obtain ⟨value, rest⟩ := result
        simp only [found, Except.map, Except.ok.injEq] at decoded
        subst decoded
        exact encode_of_read found
  · rintro ⟨rfl, listed, bounded⟩
    have size := length_encode record
    have addresses := bounded.length_addresses
    have fits : ¬ maxEncodedLen < record.encode.length := by
      rw [show maxEncodedLen = 1145 from rfl]
      omega
    rw [decode, if_neg fits, read_encode bounded listed]
    rfl

end Encoding

section Signing

variable {contacting : Contacting} {record : ContactRecord} {identity : PeltIdentity}
  {addresses : List String} {seq expiresAt now : UInt64}

theorem bounded_of_checkFields (checked : record.checkFields contacting now = true) :
    record.addresses ≠ [] ∧ record.Bounded := by
  simp only [checkFields, Control.checkAddresses, Control.validAddress, Bool.and_eq_true,
    decide_eq_true_eq, List.all_eq_true] at checked
  obtain ⟨⟨⟨⟨listed, few⟩, each⟩, _⟩, _⟩ := checked
  exact ⟨listed, few, fun address member => (each address member).1⟩

theorem lifetime_iff (expiresAt now : UInt64) : (now < expiresAt ∧ expiresAt - now ≤ maxLifetimeSecs) ↔
      now.toNat < expiresAt.toNat ∧ expiresAt.toNat ≤ now.toNat + 7 * 24 * 60 * 60 := by
  rw [UInt64.lt_iff_toNat_lt, UInt64.le_iff_toNat_le]
  refine and_congr_right (fun later => ?_)
  rw [UInt64.toNat_sub_of_le _ _ (UInt64.le_iff_toNat_le.mpr later.le),
    show maxLifetimeSecs.toNat = 7 * 24 * 60 * 60 from rfl]
  omega

theorem sign_spec (standard : Base64.Standard contacting.base64Encode contacting.base64Decode)
    (matching : KeysMatch contacting.toSigner contacting.verifyStrict identity)
    (signed : sign contacting identity addresses seq expiresAt now = some record) :
    record.checkFields contacting now = true ∧ contacting.fromBytes record.publicKey = true ∧
      contacting.verifyStrict record.publicKey record.signedBytes record.signature = true := by
  simp only [sign, signMessage, bind_eq_some, return_eq_some, Authority.require_eq_some] at signed
  obtain ⟨keyBytes, keyRead, publicKey, keySized, _, checked, _,
    ⟨secretBytes, secretRead, secret, secretSized, rfl⟩, signatureBytes, signatureRead, signature,
    signatureSized, rfl⟩ := signed
  rw [standard.roundTrip, Option.some.injEq] at signatureRead
  subst signatureRead
  rw [sized_val, Option.some.injEq] at signatureSized
  subst signatureSized
  obtain ⟨valid, verifies⟩ := matching publicKey secret
    (by rw [keyRead]; exact keySized) (by rw [secretRead]; exact secretSized)
  exact ⟨checked, valid, verifies _⟩

theorem verify_signed_iff (standard : Base64.Standard contacting.base64Encode contacting.base64Decode)
    (matching : KeysMatch contacting.toSigner contacting.verifyStrict identity)
    (signed : sign contacting identity addresses seq expiresAt now = some record) (later : UInt64) :
    record.verify contacting later = true ↔ later.toNat < record.expiresAt.toNat ∧
      record.expiresAt.toNat ≤ later.toNat + 7 * 24 * 60 * 60 := by
  obtain ⟨checked, valid, verifies⟩ := sign_spec standard matching signed
  simp only [checkFields, Bool.and_eq_true, decide_eq_true_eq] at checked
  simp only [verify, checkFields, checked.1.1, valid, verifies, Bool.true_and, Bool.and_true,
    Bool.and_eq_true, decide_eq_true_eq]
  exact lifetime_iff record.expiresAt later

end Signing

theorem signedBytes_injective {record other : ContactRecord} (bounded : record.Bounded)
    (same : record.signedBytes = other.signedBytes) :
    record.publicKey = other.publicKey ∧ record.addresses = other.addresses ∧
      record.seq = other.seq ∧ record.expiresAt = other.expiresAt := by
  have same := List.append_cancel_left same
  rw [body_eq, body_eq] at same
  obtain ⟨keys, same⟩ := List.append_inj same (by rw [record.publicKey.2, other.publicKey.2])
  obtain ⟨_, same⟩ := List.append_inj same rfl
  have short := bounded.length_addresses
  obtain ⟨addresses, same⟩ := Reader.prefixedTexts_injective
    (by simp only [List.length_append, length_beBytes]; omega) (by simp) same
  obtain ⟨seqs, expiries⟩ := List.append_inj same (by simp)
  exact ⟨Subtype.ext keys, addresses,
    UInt64.toNat.inj (beBytes_injective record.seq.toNat_lt other.seq.toNat_lt seqs),
    UInt64.toNat.inj (beBytes_injective record.expiresAt.toNat_lt other.expiresAt.toNat_lt expiries)⟩

end ContactRecord

/-- What is decoded encodes to its own bytes. What is signed is decoded from its
encoding and verifies exactly until it expires and for seven days at most. A record
within the limits, as each of these is, has its signed bytes to itself. -/
theorem contact_records_are_canonical (contacting : Contacting)
    (standard : Base64.Standard contacting.base64Encode contacting.base64Decode) :
    (∀ bytes record, ContactRecord.decode bytes = .ok record → record.encode = bytes ∧ record.Bounded) ∧
    (∀ identity addresses seq expiresAt now record, KeysMatch contacting.toSigner contacting.verifyStrict identity →
      ContactRecord.sign contacting identity addresses seq expiresAt now = some record →
        ContactRecord.decode record.encode = .ok record ∧ record.Bounded ∧
        ∀ later : UInt64, record.verify contacting later = true ↔ later.toNat < record.expiresAt.toNat ∧
            record.expiresAt.toNat ≤ later.toNat + 7 * 24 * 60 * 60) ∧
    ∀ record other : ContactRecord, record.Bounded → record.signedBytes = other.signedBytes →
      record.publicKey = other.publicKey ∧ record.addresses = other.addresses ∧
        record.seq = other.seq ∧ record.expiresAt = other.expiresAt := by
  refine ⟨fun bytes record decoded => ?_,
    fun identity addresses seq expiresAt now record matching signed => ?_,
    fun record other bounded same => ContactRecord.signedBytes_injective bounded same⟩
  · obtain ⟨same, _, bounded⟩ := ContactRecord.decode_eq_ok_iff.mp decoded
    exact ⟨same, bounded⟩
  · obtain ⟨checked, _⟩ := ContactRecord.sign_spec standard matching signed
    obtain ⟨listed, bounded⟩ := ContactRecord.bounded_of_checkFields checked
    exact ⟨ContactRecord.decode_eq_ok_iff.mpr ⟨rfl, listed, bounded⟩, bounded,
      ContactRecord.verify_signed_iff standard matching signed⟩

namespace Sample

theorem announcer_keys_match : KeysMatch contacting.toSigner contacting.verifyStrict announcerPelt := by
  intro publicKey secret publicRead secretRead
  have same : publicKey = secret := Option.some.inj (publicRead.symm.trans secretRead)
  subst same
  refine ⟨rfl, fun message => decide_eq_true ?_⟩
  simp [contacting, publicKey.2]

def nulls (count : Nat) : String := String.ofList (List.replicate count '\x00')

theorem prefixedText_nulls (count : Nat) :
    prefixedText (nulls count) = beBytes 2 count ++ List.replicate count 0 := by
  have bytes : (nulls count).toUTF8.data.toList = List.replicate count 0 := by
    show ((List.replicate count '\x00').flatMap String.utf8EncodeChar).toByteArray.data.toList = _
    rw [List.data_toByteArray, List.flatMap_replicate,
      show String.utf8EncodeChar '\x00' = [0] by decide]
    simp
  have size : (nulls count).utf8ByteSize = count := by
    rw [← Reader.length_toUTF8, bytes, List.length_replicate]
  rw [prefixedText, size, bytes]

def bareRecord (addresses : List String) : ContactRecord := ⟨.zero 32, addresses, 0, 0, .zero 64⟩

theorem signedBytes_swap {first second : String} (swapped : prefixedText first ++ prefixedText second =
      prefixedText second ++ prefixedText first) :
    (bareRecord [first, second]).signedBytes = (bareRecord [second, first]).signedBytes := by
  simp only [ContactRecord.signedBytes, ContactRecord.body_eq, bareRecord, List.length_cons,
    List.flatMap_cons, List.flatMap_nil, List.append_nil, swapped]

end Sample

open Sample

/-- The length of the long address wraps around to that of the empty one. No record of
such an address is ever signed. -/
theorem long_addresses_share_signed_bytes :
    (bareRecord ["", Sample.nulls 65536]).signedBytes =
        (bareRecord [Sample.nulls 65536, ""]).signedBytes ∧
      (bareRecord ["", Sample.nulls 65536]).addresses ≠
        (bareRecord [Sample.nulls 65536, ""]).addresses := by
  have long := prefixedText_nulls 65536
  generalize Sample.nulls 65536 = nulls at long ⊢
  have none : prefixedText "" = List.replicate 2 0 := by decide
  rw [show beBytes 2 65536 = List.replicate 2 0 by decide, List.replicate_append_replicate] at long
  constructor
  · apply signedBytes_swap
    rw [none, long, List.replicate_append_replicate, List.replicate_append_replicate]
  · intro same
    have lengths := congrArg (fun text => (prefixedText text).length) (List.cons.inj same).1
    simp only [none, long, List.length_replicate] at lengths
    omega

/-- A record of an hour holds for that hour. -/
theorem announced_record_is_canonical : ∃ record, ContactRecord.sign Sample.contacting announcerPelt
        ["quic://203.0.113.7:9560"] 1 1800003600 1800000000 = some record ∧
      ContactRecord.decode record.encode = .ok record ∧
      record.verify Sample.contacting 1800003599 = true ∧
      record.verify Sample.contacting 1800003600 ≠ true := by
  have expires : ((ContactRecord.sign Sample.contacting announcerPelt
      ["quic://203.0.113.7:9560"] 1 1800003600 1800000000).map (·.expiresAt)) =
        some 1800003600 := by decide +kernel
  obtain ⟨record, signed, expiresAt⟩ := Option.map_eq_some_iff.mp expires
  obtain ⟨decoded, _, verified⟩ := (contact_records_are_canonical Sample.contacting
    Base64.standard).2.1 _ _ _ _ _ record announcer_keys_match signed
  refine ⟨record, signed, decoded, (verified _).mpr ?_, fun expired => ?_⟩
  · rw [expiresAt]
    decide
  · have early := ((verified _).mp expired).1
    rw [expiresAt] at early
    exact absurd early (by decide)

end Werewolf.Discovery
