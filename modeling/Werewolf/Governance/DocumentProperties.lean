import Werewolf.Governance.Document
import Werewolf.Governance.RunProperties

/-! A head that passes its check comes back from its document, and every head
that `apply` reaches passes it. -/

namespace Werewolf.Governance
open Library
open Json hiding key number

theorem unhex_hex {size : Nat} (bytes : ByteArr size) : unhex size (hex bytes.val) = some bytes := by
  have pairs : readPairs fromStrRadix (hexChars bytes.val) = some bytes.val :=
    readPairs_hexChars (by decide +kernel) bytes.val
  have sized : (hexChars bytes.val).length = 2 * size := by rw [length_hexChars, bytes.2]
  have ascii : (hexChars bytes.val).any (fun char => 128 ≤ char.toNat) = false := by
    rw [List.any_eq_false]
    intro char member
    simpa using hexChars_ascii member
  simp [unhex, hex, pairs, sized, ascii, bytes.2]

theorem mapM_unhex_hex {size : Nat} (values : List (ByteArr size)) :
    (values.map (fun value => hex value.val)).mapM (unhex size) = some values := by
  induction values with
  | nil => rfl
  | cons value values ih =>
    simp only [List.map_cons, List.mapM_cons, unhex_hex, ih, Option.bind_eq_bind, Option.bind_some, Option.pure_def]

theorem headOf_document (head : Head) : headOf (document head) = some head := by
  have epochs (epochs : List (UInt64 × List Key)) :
      (epochs.map (fun epoch => (⟨epoch.1, epoch.2.map (fun key => hex key.val)⟩ : KeyEpoch))).mapM
        (fun epoch => (epoch.keys.mapM (unhex 32)).bind (fun keys =>
          some (epoch.setAt, keys))) = some epochs := by
    induction epochs with
    | nil => rfl
    | cons epoch epochs ih =>
      simp only [List.map_cons, List.mapM_cons, mapM_unhex_hex, ih, Option.bind_eq_bind,
        Option.bind_some, Option.pure_def]
  simp only [headOf, document, unhex_hex, mapM_unhex_hex, epochs, ne_eq, not_true_eq_false,
    if_false, Option.bind_eq_bind, Option.bind_some, Option.pure_def]

theorem parse_canonical {fromSlice : List UInt8 → Option Document}
    (roundTrip : ∀ doc, fromSlice (toVec documentCodec doc) = some doc) {head : Head}
    {bytes : List UInt8} (written : canonical head = some bytes) :
    parse fromSlice bytes = some head := by
  have again := written
  simp only [canonical, Option.ite_none_right_eq_some, Option.some.injEq] at written
  obtain ⟨_, rfl⟩ := written
  simp [parse, roundTrip, headOf_document, again]

theorem canonical_of_parse {fromSlice : List UInt8 → Option Document} {head : Head}
    {bytes : List UInt8} (read : parse fromSlice bytes = some head) :
    canonical head = some bytes := by
  simp only [parse, bind_eq_some, Option.ite_none_right_eq_some, Option.some.injEq] at read
  obtain ⟨_, _, again, written, rfl, rfl⟩ := read
  exact written

/-- The check accepts what `apply` maintains. It compares the number of applied
statements modulo the word size, as the sum wraps. -/
theorem check_of_wellFormed {crypto : Crypto} {head : Head} (wellFormed : head.WellFormed crypto) :
    check head = true := by
  obtain ⟨keys, later, epochs⟩ := wellFormed.epochsStart
  have ordered : hasDescent (head.keyEpochs.map (fun epoch => epoch.1.toNat)) = false := by
    rw [hasDescent_eq_false_iff, StrictlySorted, List.pairwise_map]
    exact wellFormed.epochsIncreasing.imp UInt64.lt_iff_toNat_lt.mp
  have settled : head.keyEpochs.getLast?.any (fun epoch => epoch.1 ≤ head.sequence) = true := by
    obtain ⟨last, found⟩ : ∃ last, head.keyEpochs.getLast? = some last :=
      Option.isSome_iff_exists.mp (by simp [epochs])
    simpa [found] using wellFormed.epochsSettled last (List.mem_of_getLast? found)
  have keySets : head.keyEpochs.all (fun epoch =>
      epoch.2.length = keyCount && !hasRepeat [] epoch.2) = true := by
    rw [List.all_eq_true]
    intro epoch member
    have keySet := wellFormed.epochsKeys epoch member
    have distinct : hasRepeat [] epoch.2 = false :=
      (hasRepeat_eq_false_iff [] epoch.2).mpr ⟨keySet.distinct, by simp⟩
    simp [keySet.count, distinct]
  have unrevoked : head.roster.all (fun key => !(binarySearch head.revoked key).isOk) = true := by
    rw [List.all_eq_true]
    intro key member
    have absent := (binarySearch_isOk_eq_false_iff wellFormed.revokedSorted key).mpr
      (wellFormed.rosterUnrevoked key member)
    simp [absent]
  have counted : (head.sequence.toNat + 1) % 2 ^ 64 = (head.sequence + 1).toNat :=
    (UInt64.toNat_add head.sequence 1).symm
  have activated : head.activatedAt.all (fun sequence => sequence ≤ head.sequence) = true := by
    cases found : head.activatedAt with
    | none => rfl
    | some sequence => simpa using wellFormed.activated sequence found
  have dead : head.deadAt.all (fun sequence => sequence = head.sequence) = true := by
    cases found : head.deadAt with
    | none => rfl
    | some sequence => simpa using wellFormed.dead sequence found
  simp only [check, wellFormed.threshold, wellFormed.appliedLength, wellFormed.appliedLast,
    ordered, settled, keySets, unrevoked, counted, activated, dead,
    (hasDescent_eq_false_iff _).mpr wellFormed.revokedSorted,
    (hasDescent_eq_false_iff _).mpr wellFormed.rosterSorted, wellFormed.rosterBounded]
  simp [epochs]

theorem keyEpochCodec_lawful : keyEpochCodec.Lawful (fun _ => True) :=
  (record_lawful (fields_lawful (field_lawful u64_lawful "set_at")
    (field_lawful (array_lawful string_lawful.anywhere string_opens
      (by decide)) "keys").anywhere)).imap (fun _ => rfl)

theorem commonFields_lawful : commonFields.Lawful (fun _ => True) := by
  have strings : (array string).Lawful (fun _ => True) :=
    array_lawful string_lawful.anywhere string_opens (by decide)
  have epochs : (array keyEpochCodec).Lawful (fun _ => True) :=
    array_lawful keyEpochCodec_lawful.anywhere (fun _ => object_opens _ _) (by decide)
  exact fields_lawful (field_lawful u8_lawful _)
    (fields_lawful (field_lawful string_lawful _).anywhere
    (fields_lawful (field_lawful u64_lawful _)
    (fields_lawful (field_lawful string_lawful _).anywhere
    (fields_lawful (field_lawful u8_lawful _)
    (fields_lawful (field_lawful epochs _).anywhere
    (fields_lawful (field_lawful strings _).anywhere
    (fields_lawful (field_lawful strings _).anywhere
    (field_lawful boolean_lawful _))))))))

theorem documentCodec_lawful : documentCodec.Lawful (fun _ => True) := by
  have strings : (array string).Lawful (fun _ => True) :=
    array_lawful string_lawful.anywhere string_opens (by decide)
  have common : commonFields.Lawful (Past []) := commonFields_lawful.anywhere
  have withRoster := optionalField_lawful common "roster" strings.anywhere (by simp)
  have withActivation := optionalField_lawful withRoster "activated_at" u64_lawful
    (by simp [Json.key])
  have withDeath := optionalField_lawful withActivation "dead_at" u64_lawful
    (by simp [Json.key])
  refine (object_lawful withDeath).imap fun doc => ?_
  have roster : (if doc.roster = [] then none else some doc.roster).getD [] = doc.roster := by
    split
    · rename_i empty
      rw [empty, Option.getD_none]
    · rfl
  exact congrArg (fun names => some { doc with roster := names }) roster

def Document.common (doc : Document) := (doc.version, doc.networkId, doc.sequence, doc.hash,
  doc.threshold, doc.keyEpochs, doc.revoked, doc.applied, doc.forked)

theorem print_common {doc : Document} (roster : doc.roster = []) (inactive : doc.activatedAt = none)
    (alive : doc.deadAt = none) :
    documentCodec.print doc = (object commonFields).print doc.common := by
  simp [documentCodec, Codec.imap, object, Codec.after, Codec.before, optionalField,
    Codec.andThen, Codec.optional, Document.common, roster, inactive, alive]

/-- A head and its document determine each other, whatever else the reader would
take: only the bytes that the head is written as are accepted. A head without the
later fields has the bytes it had before there were any. -/
theorem document_has_one_encoding (fromSlice : List UInt8 → Option Document)
    (roundTrip : ∀ doc, fromSlice (toVec documentCodec doc) = some doc) :
    (∀ head, check head = true → ∃ bytes, canonical head = some bytes ∧ parse fromSlice bytes = some head) ∧
    (∀ bytes head, parse fromSlice bytes = some head → canonical head = some bytes) ∧
    (∀ doc head, parse fromSlice (toVec documentCodec doc) = some head → doc = document head) ∧
    ∀ head, check head = true → head.roster = [] → head.activatedAt = none → head.deadAt = none →
        canonical head = some (toVec (object commonFields) (document head).common) := by
  refine ⟨?_, fun _ _ => canonical_of_parse, ?_, ?_⟩
  · intro head passed
    have written : canonical head = some _ := if_pos passed
    exact ⟨_, written, parse_canonical roundTrip written⟩
  · intro doc head read
    have written := canonical_of_parse read
    simp only [canonical, Option.ite_none_right_eq_some, Option.some.injEq] at written
    have same : some (document head) = some doc := by
      rw [← roundTrip (document head), written.2, roundTrip]
    exact (Option.some.inj same).symm
  · intro head passed roster inactive alive
    have bare := @print_common (document head) (by rw [document, roster, List.map_nil]) inactive alive
    rw [canonical, if_pos passed, toVec, bare, toVec]

open Sample

/-- The head of a rotated network has no roster, no activation and no death. -/
theorem rotated_head_keeps_its_bytes : ∃ head bytes, history crypto rotatedRun = some head ∧
      canonical head = some bytes ∧ parse (fromSlice documentCodec) bytes = some head ∧
      bytes = toVec (object commonFields) (document head).common := by
  have reached : history crypto rotatedRun = some ((history crypto rotatedRun).get (by decide +kernel)) := by simp
  generalize (history crypto rotatedRun).get (by decide +kernel) = head at reached
  have bare : (history crypto rotatedRun).all (fun head =>
      head.roster = [] && head.activatedAt = none && head.deadAt = none) = true := by
    decide +kernel
  simp only [reached, Option.all_some, Bool.and_eq_true, decide_eq_true_eq] at bare
  have passed := check_of_wellFormed (history_wellFormed reached)
  obtain ⟨comesBack, _, _, earlier⟩ := document_has_one_encoding (fromSlice documentCodec)
    (fromSlice_toVec documentCodec_lawful trivial)
  obtain ⟨bytes, written, read⟩ := comesBack head passed
  have same := (earlier head passed bare.1.1 bare.1.2 bare.2).symm.trans written
  exact ⟨head, bytes, reached, written, read, (Option.some.inj same).symm⟩

section Sizes

private theorem length_hexText_le {size : Nat} (bytes : ByteArr size) :
    (string.print (hex bytes.val)).length ≤ 12 * size + 2 := by
  have bounded := length_string_le (hex bytes.val)
  rw [hex, String.toList_ofList, length_hexChars, bytes.2] at bounded
  rw [hex]
  omega

private theorem length_hexTexts_le (keys : List (ByteArr 32)) :
    ((array string).print (keys.map (fun key => hex key.val))).length ≤ 2 + 387 * keys.length := by
  refine (length_array_le _ _).trans (Nat.add_le_add_left ?_ 2)
  induction keys with
  | nil => simp
  | cons key keys ih =>
    have first := length_hexText_le key
    simp only [List.map_cons, List.sum_cons, List.length_cons] at ih ⊢
    omega

private theorem length_epochs_le (epochs : List (UInt64 × List Key)) :
    ((array keyEpochCodec).print (epochs.map (fun epoch =>
      (⟨epoch.1, epoch.2.map (fun key => hex key.val)⟩ : KeyEpoch)))).length ≤
      2 + 387 * (epochs.map (fun epoch => 1 + epoch.2.length)).sum := by
  refine (length_array_le _ _).trans (Nat.add_le_add_left ?_ 2)
  induction epochs with
  | nil => simp
  | cons epoch epochs ih =>
    have keys : ((array string).print (epoch.2.map (fun key => hex key.val))).length ≤
        2 + 387 * epoch.2.length := length_hexTexts_le epoch.2
    have number := length_u64_le epoch.1
    have names : "set_at".toList.length = 6 ∧ "keys".toList.length = 4 := by decide
    simp only [List.map_cons, List.sum_cons, keyEpochCodec, Codec.imap, length_object,
      length_fields, length_field, names] at ih ⊢
    omega

def Head.entries (head : Head) : Nat :=
  head.revoked.length + head.applied.length + head.roster.length +
    (head.keyEpochs.map (fun epoch => 1 + epoch.2.length)).sum

private theorem length_common_le (head : Head) :
    (commonFields.print ((document head).version, (document head).networkId,
      (document head).sequence, (document head).hash, (document head).threshold,
      (document head).keyEpochs, (document head).revoked, (document head).applied,
      (document head).forked)).length ≤ 1200 + 387 * (head.revoked.length + head.applied.length +
        (head.keyEpochs.map (fun epoch => 1 + epoch.2.length)).sum) := by
  have version := length_u8_le (document head).version
  have networkId : (string.print (document head).networkId).length ≤ 386 :=
    length_hexText_le head.networkId
  have sequence := length_u64_le (document head).sequence
  have hash : (string.print (document head).hash).length ≤ 386 := length_hexText_le head.hash
  have threshold := length_u8_le (document head).threshold
  have epochs : ((array keyEpochCodec).print (document head).keyEpochs).length ≤
      2 + 387 * (head.keyEpochs.map (fun epoch => 1 + epoch.2.length)).sum :=
    length_epochs_le head.keyEpochs
  have revoked : ((array string).print (document head).revoked).length ≤
      2 + 387 * head.revoked.length := length_hexTexts_le head.revoked
  have applied : ((array string).print (document head).applied).length ≤
      2 + 387 * head.applied.length := length_hexTexts_le head.applied
  have forked : (boolean.print (document head).forked).length ≤ 5 := by
    cases (document head).forked <;> decide
  have names : "version".toList.length + "network_id".toList.length + "sequence".toList.length +
      "hash".toList.length + "threshold".toList.length + "key_epochs".toList.length +
      "revoked".toList.length + "applied".toList.length + "forked".toList.length = 68 := by
    decide
  simp only [commonFields, length_fields, length_field]
  omega

theorem canonical_length_le {head : Head} {bytes : List UInt8}
    (written : canonical head = some bytes) : bytes.length ≤ 8000 + 1548 * head.entries := by
  simp only [canonical, Option.ite_none_right_eq_some, Option.some.injEq] at written
  obtain ⟨_, rfl⟩ := written
  have bounded := length_common_le head
  have listed : ((array string).print (document head).roster).length ≤
      2 + 387 * head.roster.length := length_hexTexts_le head.roster
  have printed : (documentCodec.print (document head)).length ≤ 2000 + 387 * head.entries := by
    simp only [documentCodec, Codec.imap, length_object, Head.entries]
    generalize ((document head).version, (document head).networkId, (document head).sequence,
      (document head).hash, (document head).threshold, (document head).keyEpochs,
      (document head).revoked, (document head).applied, (document head).forked) = common at bounded ⊢
    have rostered : ∀ present ∈ (if (document head).roster = [] then none
        else some (document head).roster), ((array string).print present).length ≤
          2 + 387 * head.roster.length := by
      intro present given
      split at given
      · cases given
      · cases given
        exact listed
    generalize (if (document head).roster = [] then none else some (document head).roster) = roster at rostered ⊢
    have withRoster := length_optionalField_le commonFields "roster" (array string)
      common roster rostered
    have withActivation := length_optionalField_le (optionalField commonFields "roster"
      (array string)) "activated_at" u64 (common, roster) (document head).activatedAt
      (fun present _ => length_u64_le present)
    have withDeath := length_optionalField_le (optionalField (optionalField
      commonFields "roster" (array string)) "activated_at" u64) "dead_at" u64
      ((common, roster), (document head).activatedAt) (document head).deadAt
      (fun present _ => length_u64_le present)
    have names : "roster".toList.length + "activated_at".toList.length +
        "dead_at".toList.length = 25 := by decide
    omega
  have encoded := length_toVec_le documentCodec (document head)
  omega

end Sizes

end Werewolf.Governance
