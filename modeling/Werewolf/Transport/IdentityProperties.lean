import Mathlib.Data.Set.List
import Werewolf.Authority.GateProperties
import Werewolf.Library.Base64
import Werewolf.Policy.Target
import Werewolf.State.ValidationProperties
import Werewolf.Transport.Messages

/-! One fingerprint has one text: the three parsers of the Pack, of the target policy and
of the handshake accept the same texts, those in which the gate lists its peers. -/

namespace Werewolf.Transport
open Governance State Library
open Authority (Peer require fingerprintPairs leadingBytes pairsText upperHexValue)
open Policy (validFingerprint)

def scheme : List Char := "wwp1:".toList

def peerText (peer : Peer) : String := String.ofList (scheme ++ hexish peer.val)

theorem stripLeading_peerText (peer : Peer) :
    stripLeading "wwp1:".toList (peerText peer).toList = some (hexish peer.val) :=
  stripLeading_eq_some.mpr String.toList_ofList

def digitPair (byte : UInt8) : List Char :=
  [upperHexDigit (byte.toNat / 16), upperHexDigit (byte.toNat % 16)]

theorem digit_values (byte : UInt8) : upperHexValue (Authority.upperHexDigit (byte / 16)) = some (byte / 16) ∧
      upperHexValue (Authority.upperHexDigit (byte % 16)) = some (byte % 16) ∧
      byte / 16 * 16 + byte % 16 = byte := by
  revert byte
  exact forall_byte (by decide +kernel)

theorem utf8_digitPair (byte : UInt8) : (digitPair byte).flatMap String.utf8EncodeChar =
      [Authority.upperHexDigit (byte / 16), Authority.upperHexDigit (byte % 16)] := by
  revert byte
  exact forall_byte (by decide +kernel)

theorem digitPair_upper (byte : UInt8) : (digitPair byte).all isUpperHex = true ∧ '-' ∉ digitPair byte := by
  revert byte
  exact forall_byte (by decide +kernel)

theorem hexish_cons (byte next : UInt8) (rest : List UInt8) :
    hexish (byte :: next :: rest) = digitPair byte ++ '-' :: hexish (next :: rest) := rfl

theorem utf8_hexish (bytes : List UInt8) : (hexish bytes).flatMap String.utf8EncodeChar = pairsText bytes := by
  fun_induction pairsText bytes with
  | case1 => rfl
  | case2 byte => exact utf8_digitPair byte
  | case3 byte rest nonempty ih =>
    obtain ⟨next, later, rfl⟩ := List.exists_cons_of_ne_nil nonempty
    rw [hexish_cons, List.flatMap_append, utf8_digitPair, List.flatMap_cons, ih]
    rfl

theorem fingerprintPairs_pairsText {pairs : List UInt8} (nonempty : pairs ≠ []) :
    fingerprintPairs (pairsText pairs) = some pairs := by
  fun_induction pairsText pairs with
  | case1 => cases nonempty rfl
  | case2 byte =>
    obtain ⟨high, low, whole⟩ := digit_values byte
    simp [fingerprintPairs, high, low, whole]
  | case3 byte rest later ih =>
    obtain ⟨high, low, whole⟩ := digit_values byte
    simp [fingerprintPairs, high, low, whole, ih later]

theorem utf8_text (text : String) : text.toUTF8.data.toList = text.toList.flatMap String.utf8EncodeChar := by
  obtain ⟨characters, rfl⟩ : ∃ characters, text = String.ofList characters :=
    ⟨text.toList, String.ofList_toList.symm⟩
  rw [String.toList_ofList]
  exact List.toList_data_toByteArray

theorem utf8_scheme : scheme.flatMap String.utf8EncodeChar = leadingBytes :=
  (utf8_text "wwp1:").symm

theorem utf8_peerText (peer : Peer) : (peerText peer).toUTF8.data.toList = leadingBytes ++ pairsText peer.val := by
  rw [utf8_text, peerText, String.toList_ofList, List.flatMap_append, utf8_hexish, utf8_scheme]

theorem eq_peerText {text : String} {peer : Peer}
    (same : text.toUTF8.data.toList = leadingBytes ++ pairsText peer.val) : text = peerText peer :=
  String.toByteArray_inj.mp (ByteArray.ext (Array.toList_inj.mp (same.trans (utf8_peerText peer).symm)))

theorem fingerprint_iff {text : String} {peer : Peer} :
    Authority.fingerprint text = some peer ↔ text = peerText peer := by
  constructor
  · intro parsed
    exact eq_peerText (Authority.fingerprint_text parsed)
  · rintro rfl
    have starts : leadingBytes.isPrefixOf (leadingBytes ++ pairsText peer.val) = true :=
      List.isPrefixOf_iff_prefix.mpr (List.prefix_append _ _)
    simp only [Authority.fingerprint, utf8_peerText, starts, if_true, List.drop_left,
      fingerprintPairs_pairsText peer.ne_nil, peer.2, dif_pos]

theorem isUpperHex_digit {character : Char} (digit : isUpperHex character = true) :
    ∃ value < 16, character = upperHexDigit value := by
  have all : ∀ code < 128, isUpperHex (Char.ofNat code) = true →
      ∃ value < 16, Char.ofNat code = upperHexDigit value := by
    decide +kernel
  have ascii : character.toNat < 128 := by
    simp only [isUpperHex, Char.isDigit, Bool.or_eq_true, Bool.and_eq_true, decide_eq_true_eq] at digit
    rcases digit with ⟨_, decimal⟩ | ⟨_, letter⟩
    · exact Nat.lt_of_le_of_lt decimal (by decide)
    · exact Nat.lt_of_le_of_lt letter (by decide)
  have known := all character.toNat ascii
  rw [Char.ofNat_toNat] at known
  exact known digit

theorem digitPair_of_upper {part : List Char} (size : part.length = 2)
    (digits : part.all isUpperHex = true) : part ∈ Set.range digitPair := by
  obtain ⟨high, low, rfl⟩ := List.length_eq_two.mp size
  simp only [List.all_cons, List.all_nil, Bool.and_true, Bool.and_eq_true] at digits
  obtain ⟨highValue, highFits, rfl⟩ := isUpperHex_digit digits.1
  obtain ⟨lowValue, lowFits, rfl⟩ := isUpperHex_digit digits.2
  refine ⟨UInt8.ofNat (highValue * 16 + lowValue), ?_⟩
  have whole : (UInt8.ofNat (highValue * 16 + lowValue)).toNat = highValue * 16 + lowValue :=
    UInt8.toNat_ofNat_of_lt (by simp [UInt8.size]; omega)
  rw [digitPair, whole, show (highValue * 16 + lowValue) / 16 = highValue by omega,
    show (highValue * 16 + lowValue) % 16 = lowValue by omega]

theorem packFingerprint_iff {text : String} : State.fingerprint text = true ↔ ∃ peer, text = peerText peer := by
  constructor
  · intro accepted
    simp only [State.fingerprint] at accepted
    split at accepted
    · cases accepted
    · next hex stripped =>
        simp only [Bool.and_eq_true, decide_eq_true_eq, List.all_eq_true] at accepted
        obtain ⟨count, digits⟩ := accepted
        have pairs : hex.splitOn '-' ∈ Set.range (List.map digitPair) := by
          rw [Set.range_list_map]
          intro part member
          exact digitPair_of_upper (digits part member).1 (List.all_eq_true.mpr (digits part member).2)
        obtain ⟨bytes, split⟩ := pairs
        refine ⟨⟨bytes, by rw [← count, ← split, List.length_map]⟩, ?_⟩
        have whole : text.toList = scheme ++ hex := stripLeading_eq_some.mp stripped
        have joined : hex = hexish bytes :=
          (List.intercalate_splitOn '-').symm.trans (congrArg (List.intercalate ['-']) split.symm)
        rw [← @String.ofList_toList text, whole]
        exact congrArg (fun rest => String.ofList (scheme ++ rest)) joined
  · rintro ⟨peer, rfl⟩
    have split : (hexish peer.val).splitOn '-' = peer.val.map digitPair := by
      refine List.splitOn_intercalate '-' ?_ (by simpa using peer.ne_nil)
      intro part member
      obtain ⟨byte, _, rfl⟩ := List.mem_map.mp member
      exact (digitPair_upper byte).2
    rw [State.fingerprint, stripLeading_peerText]
    simp only [split, List.length_map, peer.2, decide_true, Bool.true_and, List.all_map,
      List.all_eq_true, Function.comp_apply, Bool.and_eq_true]
    intro byte _
    exact ⟨rfl, List.all_eq_true.mp (digitPair_upper byte).1⟩

/-- The test of one byte behind the scheme, at its index. -/
def positional (entry : UInt8 × Nat) : Bool :=
  if entry.2 % 3 = 2 then entry.1 = 0x2D
  else (0x30 ≤ entry.1 && entry.1 ≤ 0x39) || (0x41 ≤ entry.1 && entry.1 ≤ 0x46)

theorem positional_digit {byte : UInt8} {index : Nat} (digit : index % 3 ≠ 2) :
    positional (byte, index) = true ↔ ∃ value, upperHexValue byte = some value := by
  simp only [positional, if_neg digit, upperHexValue]
  split_ifs <;> simp_all

theorem positional_iff (count position : Nat) (bytes : List UInt8) (size : bytes.length = 3 * count + 2) :
    (bytes.zipIdx (3 * position)).all positional = true ↔
      ∃ pairs, fingerprintPairs bytes = some pairs ∧ pairs.length = count + 1 := by
  induction count generalizing position bytes with
  | zero =>
    obtain ⟨high, low, rfl⟩ := List.length_eq_two.mp size
    simp only [List.zipIdx_cons, List.zipIdx_nil, List.all_cons, List.all_nil, Bool.and_true,
      Bool.and_eq_true, positional_digit (show 3 * position % 3 ≠ 2 by omega),
      positional_digit (show (3 * position + 1) % 3 ≠ 2 by omega)]
    cases highRead : upperHexValue high <;> cases lowRead : upperHexValue low <;>
      simp [fingerprintPairs, highRead, lowRead]
  | succ count ih =>
    match bytes, size with
    | high :: low :: dash :: rest, size =>
      have later := ih (position + 1) rest (by simp at size; omega)
      have dashed : positional (dash, 3 * position + 1 + 1) = true ↔ dash = 0x2D := by
        rw [positional, if_pos (by omega), decide_eq_true_eq]
      simp only [List.zipIdx_cons, List.all_cons, Bool.and_eq_true, dashed,
        positional_digit (show 3 * position % 3 ≠ 2 by omega),
        positional_digit (show (3 * position + 1) % 3 ≠ 2 by omega)]
      rw [show 3 * position + 1 + 1 + 1 = 3 * (position + 1) by omega, later]
      by_cases isDash : dash = 0x2D
      · cases highRead : upperHexValue high <;> cases lowRead : upperHexValue low <;>
          cases restRead : fingerprintPairs rest <;>
          simp [fingerprintPairs, isDash, highRead, lowRead, restRead]
      · simp [fingerprintPairs, isDash]

theorem validFingerprint_iff {text : String} : validFingerprint text = true ↔ ∃ peer, text = peerText peer := by
  constructor
  · intro accepted
    simp only [validFingerprint] at accepted
    split at accepted
    · cases accepted
    · next suffix stripped =>
        simp only [Bool.and_eq_true, decide_eq_true_eq] at accepted
        obtain ⟨size, digits⟩ := accepted
        obtain ⟨pairs, parsed, count⟩ := (positional_iff 7 0 _ size).mp digits
        refine ⟨⟨pairs, count⟩, eq_peerText ?_⟩
        rw [utf8_text, String.toList_ofList] at parsed
        have whole : text.toList = scheme ++ suffix := stripLeading_eq_some.mp stripped
        rw [utf8_text, whole, List.flatMap_append, (Authority.fingerprintPairs_text parsed).1, utf8_scheme]
  · rintro ⟨peer, rfl⟩
    have size := Authority.length_pairsText peer.ne_nil
    rw [peer.2] at size
    have digits := (positional_iff 7 0 (pairsText peer.val) (by omega)).mpr
      ⟨peer.val, fingerprintPairs_pairsText peer.ne_nil, peer.2⟩
    rw [validFingerprint, stripLeading_peerText]
    simp only [utf8_text, String.toList_ofList, utf8_hexish, Bool.and_eq_true, decide_eq_true_eq]
    exact ⟨by omega, digits⟩

theorem parsers_agree (text : String) : validFingerprint text = State.fingerprint text ∧
      (Authority.fingerprint text).isSome = State.fingerprint text := by
  constructor
  · exact Bool.eq_iff_iff.mpr (validFingerprint_iff.trans packFingerprint_iff.symm)
  · rw [Bool.eq_iff_iff, packFingerprint_iff, Option.isSome_iff_exists]
    simp only [fingerprint_iff]

section Packs

variable {external : External}

theorem key_binary (standard : Base64.Standard external.base64Encode external.base64Decode)
    {text : String} {bytes : Key} (read : key external text = some bytes) :
    binary external 32 text = some bytes := by
  obtain ⟨decoded, spelled⟩ := key_iff.mp read
  simp [binary, ← spelled, standard.utf8ByteSize, standard.roundTrip, bytes.2, sized, require]

variable {peers : List PeerRecord} (valid : pack external peers = true) {record : PeerRecord}
  (member : record ∈ peers)

include valid member

theorem pack_fingerprint : validFingerprint record.fingerprint = true ∧
      ∃ peer, Authority.fingerprint record.fingerprint = some peer ∧
        ∀ other ∈ peers, Authority.fingerprint other.fingerprint = some peer → other = record := by
  obtain ⟨_, records, _, distinct, _⟩ := (pack_iff external peers).mp valid
  obtain ⟨peer, same⟩ := packFingerprint_iff.mp (peerValid_some (records record member)).1
  refine ⟨validFingerprint_iff.mpr ⟨peer, same⟩, peer, fingerprint_iff.mpr same, ?_⟩
  intro other listed parsed
  exact List.inj_on_of_nodup_map distinct listed member ((fingerprint_iff.mp parsed).trans same.symm)

theorem pack_key (standard : Base64.Standard external.base64Encode external.base64Decode)
    {text : String} (stores : record.publicKeyB64 = some text) :
    ∃ bytes, binary external 32 text = some bytes := by
  have checked := ((pack_iff external peers).mp valid).2.1 record member
  obtain ⟨bytes, read, _⟩ := (peerValid_some checked).2 text stores
  exact ⟨bytes, key_binary standard read⟩

end Packs

/-- The Pack, the target policy and the handshake accept the same fingerprints, each the
text of the peer it stands for, and a key that the Pack accepts reads the same in the
handshake. So the peers of a valid Pack are usable in the policy and apart in the gate. -/
theorem identity_texts_agree (external : External)
    (standard : Base64.Standard external.base64Encode external.base64Decode) :
    (∀ text, validFingerprint text = State.fingerprint text ∧
      (Authority.fingerprint text).isSome = State.fingerprint text) ∧
    (∀ text peer, Authority.fingerprint text = some peer → peerText peer = text) ∧
    (∀ text bytes, key external text = some bytes → binary external 32 text = some bytes) ∧
    ∀ peers, pack external peers = true → ∀ record ∈ peers, validFingerprint record.fingerprint = true ∧
        (∃ peer, Authority.fingerprint record.fingerprint = some peer ∧
          ∀ other ∈ peers, Authority.fingerprint other.fingerprint = some peer → other = record) ∧
        ∀ text ∈ record.publicKeyB64, ∃ bytes, binary external 32 text = some bytes := by
  refine ⟨parsers_agree, ?_, ?_, ?_⟩
  · intro text peer parsed
    exact (fingerprint_iff.mp parsed).symm
  · intro text bytes read
    exact key_binary standard read
  · intro peers valid record member
    obtain ⟨policy, gate⟩ := pack_fingerprint valid member
    exact ⟨policy, gate, fun text stores => pack_key valid member standard stores⟩

namespace Sample

def plain : External where
  blake3 _ := .zero 32
  fromBytes _ := true
  isWeak _ := false
  verifyStrict _ _ _ := true
  base64Decode := Base64.decode
  base64Encode := Base64.encode
  isSocketAddr _ := true

def stored : PeerRecord :=
  ⟨"howler", "wwp1:00-00-00-00-00-00-00-00", "quic://203.0.113.7:9560", .packmate,
    some (Base64.encode (ByteArr.zero 32).val)⟩

end Sample

theorem stored_identity_is_usable : pack Sample.plain [Sample.stored] = true ∧
      validFingerprint Sample.stored.fingerprint = true ∧
      binary Sample.plain 32 (Base64.encode (ByteArr.zero 32).val) = some (.zero 32) := by
  have valid : pack Sample.plain [Sample.stored] = true := by decide +kernel
  obtain ⟨_, _, keys, stored⟩ := identity_texts_agree Sample.plain Base64.standard
  refine ⟨valid, (stored _ valid _ List.mem_cons_self).1, keys _ _ ?_⟩
  exact key_iff.mpr ⟨Base64.standard.roundTrip _, rfl⟩

end Werewolf.Transport
