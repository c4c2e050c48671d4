import Werewolf.Storage.Contents

/-! The generation in force. A Den holds a generation when its selector names it
and the selected slot has the documents and the manifest of its state; such a
Den loads, and a Den that loads holds what it loads. -/

namespace Werewolf.Storage
open Library Governance State Policy
open Json hiding key number

section Sizes

theorem hex_plain (bytes : List UInt8) : ∀ char ∈ (hex bytes).toList, escape char = [char] := by
  have digits : ∀ code : Fin 256, escape (Nat.digitChar (code / 16)) =
      [Nat.digitChar (code / 16)] ∧ escape (Nat.digitChar (code % 16)) =
      [Nat.digitChar (code % 16)] := by
    decide +kernel
  intro char member
  simp only [hex, String.toList_ofList] at member
  obtain ⟨byte, _, written⟩ := List.mem_flatMap.mp member
  have plain := digits ⟨byte.toNat, UInt8.toNat_lt byte⟩
  rcases List.mem_pair.mp written with rfl | rfl
  · exact plain.1
  · exact plain.2

theorem length_encodeDigest (digest : Hash) : (string.print (encodeDigest digest)).length = 66 := by
  rw [encodeDigest, length_string (hex_plain _), hex, String.toList_ofList, length_hexChars, digest.2]

theorem modeBytes_length : modeBytes.length ≤ manifestLimit := by
  decide +kernel

theorem currentBytes_length (generation : Generation) : (currentBytes generation).length ≤ manifestLimit := by
  refine (length_toVec_le _ _).trans ?_
  have number := length_u64_le generation.number
  have tag := length_u8_le schema
  have slot : (slotCodec.print generation.slot).length = 3 := by
    cases generation.slot <;> decide +kernel
  have names : "schema".toList.length = 6 ∧ "generation".toList.length = 10 ∧
      "slot".toList.length = 4 := by decide
  simp only [currentCodec, Codec.imap, length_object, length_fields, length_field,
    slot, manifestLimit, names]
  omega

theorem decodeDigest_encodeDigest (digest : Hash) : decodeDigest (encodeDigest digest) = .ok digest.val := by
  have digits : ∀ code : Fin 256, decodePair (Nat.digitChar (code / 16))
      (Nat.digitChar (code % 16)) = some (UInt8.ofNat code) := by
    decide +kernel
  simp [decodeDigest, encodeDigest, hex, length_hexChars, digest.2, readPairs_hexChars digits, orError]

theorem stateCommitment_ok (crypto : Crypto) (schema : UInt8) (number : UInt64) (contents : Documents) :
    ∃ commitment, stateCommitment crypto schema number (commitments crypto contents) = .ok commitment := by
  obtain ⟨part, found⟩ : ∃ part, governancePart (commitments crypto contents).governance = .ok part := by
    cases given : contents.governance with
    | none => exact ⟨[], by simp [commitments, given, governancePart]⟩
    | some bytes =>
      rw [commitments, given, Option.map_some]
      exact ⟨_, bind_eq_ok.mpr ⟨_, decodeDigest_encodeDigest _, rfl⟩⟩
  exact ⟨_, bind_eq_ok.mpr ⟨_, decodeDigest_encodeDigest _, bind_eq_ok.mpr ⟨_, decodeDigest_encodeDigest _,
    bind_eq_ok.mpr ⟨_, decodeDigest_encodeDigest _,
    bind_eq_ok.mpr ⟨_, decodeDigest_encodeDigest _,
    bind_eq_ok.mpr ⟨_, decodeDigest_encodeDigest _,
    bind_eq_ok.mpr ⟨_, found, rfl⟩⟩⟩⟩⟩⟩⟩

theorem length_commitments (crypto : Crypto) (contents : Documents) :
    (commitmentsCodec.print (commitments crypto contents)).length ≤ 600 := by
  have names : "pack".toList.length = 4 ∧ "silver".toList.length = 6 ∧
      "target_policy".toList.length = 13 ∧ "fangs".toList.length = 5 ∧
      "active_fangs".toList.length = 12 ∧ "governance".toList.length = 10 := by decide
  cases given : contents.governance with
  | none =>
    simp only [commitmentsCodec, commitments, given, Codec.imap, Option.map_none,
      length_object, length_optionalField_none, length_fields, length_field,
      length_encodeDigest, names]
    omega
  | some bytes =>
    simp only [commitmentsCodec, commitments, given, Codec.imap, Option.map_some,
      length_object, length_optionalField_some, length_fields, length_field,
      length_encodeDigest, names]
    omega

theorem manifest_ok (crypto : Crypto) (number : UInt64) (contents : Documents) :
    ∃ value, manifest crypto number contents = .ok value ∧ value.generation = number ∧
      value.documents = commitments crypto contents ∧
      (toVec manifestCodec value).length ≤ manifestLimit := by
  obtain ⟨commitment, found⟩ := stateCommitment_ok crypto
    (if (commitments crypto contents).governance.isSome then schemaGovernance else schema) number
    contents
  refine ⟨_, bind_eq_ok.mpr ⟨commitment, found, rfl⟩, rfl, rfl, ?_⟩
  refine (length_toVec_le _ _).trans ?_
  have tag := length_u8_le (if (commitments crypto contents).governance.isSome then schemaGovernance else schema)
  have digits := length_u64_le number
  have inner := length_commitments crypto contents
  have names : "schema".toList.length = 6 ∧ "generation".toList.length = 10 ∧
      "documents".toList.length = 9 ∧ "state_commitment".toList.length = 16 := by decide
  simp only [manifestCodec, Codec.imap, length_object, length_fields, length_field,
    length_encodeDigest, manifestLimit, names]
  omega

end Sizes

theorem read_eq_ok_some_iff {den : Den} {file : String} {limit : Nat} {data : List UInt8} :
    read den file limit = .ok (some data) ↔ den file = some data ∧ data.length ≤ limit := by
  cases found : den file with
  | none => simp [read, found]
  | some bytes =>
    simp only [read, found, ite_eq_ok_iff, Nat.not_lt, Except.ok.injEq, Option.some.injEq]
    constructor
    · rintro ⟨fits, rfl⟩
      exact ⟨rfl, fits⟩
    · rintro ⟨rfl, fits⟩
      exact ⟨fits, rfl⟩

theorem readPresent_eq_ok_iff {den : Den} {file : String} {limit : Nat} {data : List UInt8} :
    readPresent den file limit = .ok data ↔ den file = some data ∧ data.length ≤ limit := by
  rw [← read_eq_ok_some_iff, readPresent, bind_eq_ok]
  constructor
  · rintro ⟨_ | found, source, same⟩
    · cases same
    · cases same
      exact source
  · intro source
    exact ⟨some data, source, rfl⟩

section Holding

variable {platform : Platform}
  {generation : Generation} {contents : Documents} {value : Manifest} {α : Type}
  {other : Den} {bit : Bool}

/-- The Den's selector names the generation, and the selected slot has what a
commit of the state writes there. -/
structure Holds (platform : Platform) (den : Den) (generation : Generation)
    (state : ProtectedState) : Prop where
  mode : den modeFile = some modeBytes
  current : den currentFile = some (currentBytes generation)
  positive : generation.number ≠ 0
  slot : ∃ writes, slotWrites platform generation state = .ok writes ∧
    ∀ write ∈ writes, den write.file = some write.data ∧ write.data.length ≤ documentLimit

theorem loadCurrent_of_selected (roundTrip : platform.RoundTrip) {den : Den} (mode : den modeFile = some modeBytes)
    (current : den currentFile = some (currentBytes generation))
    (positive : generation.number ≠ 0) : loadCurrent platform den = .ok (some generation) := by
  have readMode := read_eq_ok_some_iff.mpr ⟨mode, modeBytes_length⟩
  have readCurrent := read_eq_ok_some_iff.mpr ⟨current, currentBytes_length generation⟩
  simp only [loadCurrent, readMode, readCurrent, modeBytes, currentBytes,
    exact_toVec roundTrip.mode, exact_toVec roundTrip.current, bind, Except.bind]
  simp [positive]

theorem selected_of_loadCurrent {den : Den} (loaded : loadCurrent platform den = .ok (some generation)) :
    den modeFile = some modeBytes ∧ den currentFile = some (currentBytes generation) ∧ generation.number ≠ 0 := by
  simp only [loadCurrent, bind_eq_ok] at loaded
  obtain ⟨mode, modeRead, current, currentRead, rest⟩ := loaded
  cases mode with
  | none =>
    cases current with
    | none =>
      obtain ⟨_, _, same⟩ := bind_eq_ok.mp rest
      cases same
    | some currentData => cases rest
  | some modeData =>
    cases current with
    | none => cases rest
    | some currentData =>
      simp only [bind_eq_ok, ite_eq_ok_iff, not_or, ne_eq, not_not] at rest
      obtain ⟨⟨modeSchema, modeText⟩, modeExact, ⟨currentSchema, number, slot⟩, currentExact,
        ⟨rfl, rfl, rfl, positive⟩, same⟩ := rest
      cases same
      have modeSame := toVec_of_exact modeExact
      have currentSame := toVec_of_exact currentExact
      refine ⟨?_, ?_, positive⟩
      · rw [(read_eq_ok_some_iff.mp modeRead).1, ← modeSame]
        rfl
      · rw [(read_eq_ok_some_iff.mp currentRead).1, ← currentSame]
        rfl

theorem validateManifest_manifest {crypto : Crypto}
    (expected : manifest crypto generation.number contents = .ok value) :
    validateManifest crypto value generation contents = .ok () := by
  obtain ⟨_, built, number, _, _⟩ := manifest_ok crypto generation.number contents
  cases built.symm.trans expected
  simp [validateManifest, number, expected, bind, Except.bind]

theorem manifest_of_validateManifest {crypto : Crypto}
    (valid : validateManifest crypto value generation contents = .ok ()) :
    manifest crypto generation.number contents = .ok value := by
  obtain ⟨expected, built, number, _, _⟩ := manifest_ok crypto generation.number contents
  simp only [validateManifest, ite_eq_ok_iff, bind_eq_ok, ne_eq, not_not, not_or] at valid
  obtain ⟨sameNumber, other, otherBuilt, sameSchema, ⟨sameDocuments, sameCommitment⟩, _⟩ := valid
  cases built.symm.trans otherBuilt
  rw [built]
  congr 1
  cases value
  cases expected
  simp_all

theorem loadContents_ok (roundTrip : platform.RoundTrip) {den : Den}
    (built : manifest platform.toCrypto generation.number contents = .ok value)
    (file : ∀ document data, (document, data) ∈ [(Logical.pack, contents.pack),
        (.silver, contents.silver), (.targetPolicy, contents.targetPolicy),
        (.fangs, contents.fangs), (.activeFangs, contents.activeFangs)] →
      den (name generation.slot document) = some data ∧ data.length ≤ documentLimit)
    (governance : ∀ data ∈ contents.governance,
      den (name generation.slot .governance) = some data ∧ data.length ≤ documentLimit)
    (manifestFile : den (name generation.slot .manifest) = some (toVec manifestCodec value)) :
    loadContents platform den generation = .ok contents := by
  obtain ⟨_, again, _, committed, fits⟩ := manifest_ok platform.toCrypto generation.number contents
  cases again.symm.trans built
  have part : readCommitted (readPresent den (name generation.slot .governance) documentLimit)
      value.documents.governance = .ok contents.governance := by
    rw [committed, commitments]
    cases given : contents.governance with
    | none => rfl
    | some data =>
      simp [readCommitted, readPresent_eq_ok_iff.mpr (governance data given), Except.map]
  have present (document : Logical) (data : List UInt8) (member : (document, data) ∈
      [(Logical.pack, contents.pack), (.silver, contents.silver),
        (.targetPolicy, contents.targetPolicy), (.fangs, contents.fangs),
        (.activeFangs, contents.activeFangs)]) :=
    readPresent_eq_ok_iff.mpr (file document data member)
  have readManifest := readPresent_eq_ok_iff.mpr ⟨manifestFile, fits⟩
  simp only [loadContents, present .pack contents.pack (by simp), present .silver contents.silver (by simp),
    present .targetPolicy contents.targetPolicy (by simp),
    present .fangs contents.fangs (by simp), present .activeFangs contents.activeFangs (by simp),
    readManifest, exact_toVec roundTrip.manifest, part, bind, Except.bind,
    validateManifest_manifest built]
  rfl

theorem load_eq_parse (roundTrip : platform.RoundTrip) {den : Den} {state : ProtectedState}
    (holds : Holds platform den generation state) :
    ∃ contents, documents platform state = .ok contents ∧
      load platform den = (parseContents platform contents).map (.manifest generation) := by
  obtain ⟨writes, written, stored⟩ := holds.slot
  simp only [slotWrites, bind_eq_ok, return_eq_ok] at written
  obtain ⟨contents, documented, value, built, rfl⟩ := written
  have contentsRead : loadContents platform den generation = .ok contents := by
    refine loadContents_ok roundTrip built (fun document data member => ?_) (fun data given => ?_) ?_
    · refine stored ⟨name generation.slot document, data⟩ ?_
      simp only [List.mem_cons, Prod.mk.injEq, List.not_mem_nil, or_false] at member
      rcases member with ⟨rfl, rfl⟩ | ⟨rfl, rfl⟩ | ⟨rfl, rfl⟩ | ⟨rfl, rfl⟩ | ⟨rfl, rfl⟩ <;> simp
    · exact stored ⟨name generation.slot .governance, data⟩ (by simp [Option.mem_def.mp given])
    · exact (stored _ (List.mem_append_right _ (List.mem_singleton_self _))).1
  refine ⟨contents, documented, ?_⟩
  simp only [load, loadCurrent_of_selected roundTrip holds.mode holds.current holds.positive,
    contentsRead, bind, Except.bind]
  cases parseContents platform contents <;> rfl

theorem slotWrites_files {state : ProtectedState} {writes : List Write}
    (written : slotWrites platform generation state = .ok writes) :
    (writes.map Write.file).Sublist (Logical.all.map (name generation.slot)) := by
  simp only [slotWrites, bind_eq_ok, return_eq_ok] at written
  obtain ⟨contents, _, _, _, rfl⟩ := written
  cases contents.governance <;> simp [Logical.all]

theorem slotWrites_file {state : ProtectedState} {writes : List Write}
    (written : slotWrites platform generation state = .ok writes) {write : Write}
    (member : write ∈ writes) : ∃ document, write.file = name generation.slot document := by
  have inside := (slotWrites_files written).subset (List.mem_map_of_mem member)
  obtain ⟨document, _, same⟩ := List.mem_map.mp inside
  exact ⟨document, same.symm⟩

def protectedFiles : List String := modeFile :: currentFile :: slotFiles

theorem name_mem_protectedFiles (slot : Slot) (document : Logical) : name slot document ∈ protectedFiles := by
  cases slot <;> cases document <;> decide +kernel

def Opened (bytes : List UInt8) : Prop := ∃ first rest, bytes = first :: rest ∧ first ≠ 0

theorem opened_object {codec : Codec α} (opens : Json.Opens codec '\x7b') (value : α) :
    Opened (toVec codec value) := by
  obtain ⟨rest, written⟩ := toVec_opens opens value
  exact ⟨0x7b, rest, written, by decide⟩

theorem opened_array (element : Codec α) (values : List α) : Opened (toVec (array element) values) := by
  obtain ⟨rest, written⟩ := toVec_opens (sequence_opens '[' ']' element) values
  exact ⟨0x5b, rest, written, by decide⟩

theorem opened_canonicalSorted {valid : List α → Bool} {codec : Codec α} {key : α → String} {values : List α}
    {bytes : List UInt8} (written : canonicalSorted valid codec key values = .ok bytes) : Opened bytes := by
  unfold canonicalSorted at written
  split at written
  · cases written
  · cases written
    exact opened_array _ _

theorem opened_documents {state : ProtectedState} (documented : documents platform state = .ok contents) :
    Opened contents.pack ∧ Opened contents.silver ∧ Opened contents.targetPolicy ∧
      Opened contents.fangs ∧ Opened contents.activeFangs ∧
      ∀ bytes, contents.governance = some bytes → Opened bytes := by
  simp only [documents, bind_eq_ok, return_eq_ok] at documented
  obtain ⟨_, pack, policy, policyWritten, _, fangs, _, active, _, governance, rfl⟩ := documented
  refine ⟨opened_canonicalSorted pack, opened_object (fun _ => object_opens _ _) _, ?_,
    opened_canonicalSorted fangs, opened_canonicalSorted active, fun bytes given => ?_⟩
  · simp only [canonicalPolicy, canonicalFromRuntime] at policyWritten
    cases file : runtimeFile state.targetPolicy with
    | none => simp [file, orError] at policyWritten
    | some file' =>
      simp only [file, Option.map_some, orError, Except.ok.injEq] at policyWritten
      subst policyWritten
      exact opened_object (fun _ => object_opens _ _) _
  · dsimp only at given
    subst given
    cases head : state.governance with
    | none => simp [head, canonicalGovernance] at governance
    | some head' =>
      simp only [head, canonicalGovernance, canonical] at governance
      split at governance
      · simp only [orError, Except.map, Except.ok.injEq, Option.some.injEq] at governance
        subst governance
        exact opened_object (fun _ => object_opens _ _) _
      · cases governance

theorem Holds.carry {den : Den} {state : ProtectedState} (holds : Holds platform den generation state)
    (kept : ∀ file ∈ protectedFiles, ∀ bytes, Opened bytes → den file = some bytes →
      other file = some bytes) : Holds platform other generation state := by
  obtain ⟨writes, written, stored⟩ := holds.slot
  refine ⟨kept _ (by simp [protectedFiles]) _ (opened_object (fun _ => object_opens _ _) _) holds.mode,
    kept _ (by simp [protectedFiles]) _ (opened_object (fun _ => object_opens _ _) _)
      holds.current, holds.positive, writes, written, fun write member => ?_⟩
  obtain ⟨there, small⟩ := stored write member
  obtain ⟨document, named⟩ := slotWrites_file written member
  refine ⟨kept _ (named ▸ name_mem_protectedFiles generation.slot document) _ ?_ there, small⟩
  simp only [slotWrites, bind_eq_ok, return_eq_ok] at written
  obtain ⟨contents, documented, _, _, rfl⟩ := written
  obtain ⟨pack, silver, policy, fangs, active, governance⟩ := opened_documents documented
  simp only [List.mem_append, List.mem_cons, List.not_mem_nil, or_false, Option.mem_toList,
    Option.map_eq_some_iff] at member
  rcases member with ((rfl | rfl | rfl | rfl | rfl) | ⟨data, given, rfl⟩) | rfl
  · exact pack
  · exact silver
  · exact policy
  · exact fangs
  · exact active
  · exact governance _ given
  · exact opened_object (fun _ => object_opens _ _) _

theorem Holds.congr {den : Den} {state : ProtectedState} (holds : Holds platform den generation state)
    (same : ∀ file ∈ protectedFiles, other file = den file) :
    Holds platform other generation state :=
  holds.carry (fun file member _ _ there => (same file member).trans there)

theorem selectedSilver_of_holds (roundTrip : platform.RoundTrip) {den : Den}
    {state : ProtectedState} (holds : Holds platform den generation state) :
    selectedSilver platform den = some state.silverLocked := by
  obtain ⟨writes, written, stored⟩ := holds.slot
  simp only [slotWrites, bind_eq_ok, return_eq_ok] at written
  obtain ⟨contents, documented, value, _, rfl⟩ := written
  have silver : contents.silver = canonicalSilver state.silverLocked := by
    simp only [documents, bind_eq_ok, return_eq_ok] at documented
    obtain ⟨_, _, _, _, _, _, _, _, _, _, rfl⟩ := documented
    rfl
  have file := readPresent_eq_ok_iff.mpr (stored ⟨name generation.slot .silver, contents.silver⟩ (by simp))
  rw [silver] at file
  simp only [selectedSilver, loadCurrent_of_selected roundTrip holds.mode holds.current
    holds.positive, file, parseSilver_canonicalSilver roundTrip]
  rfl

theorem selectedSilver_eq_some_iff {den : Den} : selectedSilver platform den = some bit ↔ ∃ generation bytes,
      loadCurrent platform den = .ok (some generation) ∧
      readPresent den (name generation.slot .silver) documentLimit = .ok bytes ∧
      parseSilver platform bytes = .ok bit := by
  constructor
  · intro selected
    unfold selectedSilver at selected
    split at selected
    · rename_i generation current
      split at selected
      · rename_i bytes file
        cases parsed : parseSilver platform bytes with
        | error error => simp [parsed, Except.toOption] at selected
        | ok value =>
          simp only [parsed, Except.toOption, Option.some.injEq] at selected
          exact ⟨generation, bytes, current, file, selected ▸ parsed⟩
      · cases selected
    · cases selected
  · rintro ⟨generation, bytes, current, file, parsed⟩
    simp [selectedSilver, current, file, parsed, Except.toOption]

theorem opened_of_parseSilver {bytes : List UInt8} (parsed : parseSilver platform bytes = .ok bit) :
    Opened bytes := by
  obtain ⟨value, read, _⟩ := bind_eq_ok.mp parsed
  rw [← toVec_of_exact read]
  exact opened_object (fun _ => object_opens _ _) _

theorem selectedSilver_carry (roundTrip : platform.RoundTrip) {den : Den}
    (selected : selectedSilver platform den = some bit)
    (kept : ∀ file ∈ protectedFiles, ∀ bytes, Opened bytes → den file = some bytes →
      other file = some bytes) : selectedSilver platform other = some bit := by
  obtain ⟨generation, bytes, current, file, parsed⟩ := selectedSilver_eq_some_iff.mp selected
  obtain ⟨mode, selector, positive⟩ := selected_of_loadCurrent current
  obtain ⟨there, small⟩ := readPresent_eq_ok_iff.mp file
  refine selectedSilver_eq_some_iff.mpr ⟨generation, bytes, ?_, ?_, parsed⟩
  · exact loadCurrent_of_selected roundTrip
      (kept _ (by simp [protectedFiles]) _ (opened_object (fun _ => object_opens _ _) _) mode)
      (kept _ (by simp [protectedFiles]) _ (opened_object (fun _ => object_opens _ _) _) selector)
      positive
  · exact readPresent_eq_ok_iff.mpr ⟨kept _ (name_mem_protectedFiles _ _) _
      (opened_of_parseSilver parsed) there, small⟩

theorem load_of_holds (roundTrip : platform.RoundTrip) {den : Den} {state : ProtectedState}
    (wellFormed : state.targetPolicy.WellFormed) (holds : Holds platform den generation state) :
    load platform den = .ok (.manifest generation state.normal) := by
  obtain ⟨contents, documented, loaded⟩ := load_eq_parse roundTrip holds
  rw [loaded, parseContents_documents roundTrip wellFormed documented]
  rfl

theorem Holds.valid {den : Den} {state : ProtectedState} (holds : Holds platform den generation state) :
    pack platform.toExternal state.peers = true ∧ active state.activeProfiles state.fangProfiles = true := by
  obtain ⟨writes, written, _⟩ := holds.slot
  simp only [slotWrites, documents, canonicalPack, canonicalActive, canonicalSorted, bind_eq_ok,
    return_eq_ok, ite_eq_ok_iff, Bool.not_eq_true', Bool.not_eq_false] at written
  obtain ⟨_, ⟨_, ⟨peers, _⟩, _, _, _, _, _, ⟨names, _⟩, _⟩, _⟩ := written
  exact ⟨peers, names⟩

theorem load_governance (roundTrip : platform.RoundTrip) {den : Den} {selected : Generation}
    {state loaded : ProtectedState} (holds : Holds platform den generation state)
    (read : load platform den = .ok (.manifest selected loaded)) :
    selected = generation ∧ loaded.governance = state.governance := by
  obtain ⟨contents, documented, parsed⟩ := load_eq_parse roundTrip holds
  rw [parsed] at read
  cases result : parseContents platform contents with
  | error error => simp [result, Except.map] at read
  | ok found =>
    simp only [result, Except.map, Except.ok.injEq, Load.manifest.injEq] at read
    obtain ⟨rfl, rfl⟩ := read
    simp only [documents, bind_eq_ok, return_eq_ok] at documented
    obtain ⟨_, _, _, _, _, _, _, _, headBytes, head, rfl⟩ := documented
    simp only [parseContents, bind_eq_ok, return_eq_ok] at result
    obtain ⟨_, _, _, _, _, _, _, _, _, _, governance, readHead, rfl⟩ := result
    rw [parseGovernance_canonicalGovernance roundTrip head] at readHead
    cases readHead
    exact ⟨rfl, rfl⟩

theorem load_ne_legacy (roundTrip : platform.RoundTrip) {den : Den} {state : ProtectedState}
    (holds : Holds platform den generation state) :
    load platform den ≠ .ok .legacy := by
  obtain ⟨contents, _, loaded⟩ := load_eq_parse roundTrip holds
  rw [loaded]
  cases parseContents platform contents <;> simp [Except.map]

theorem load_refused (roundTrip : platform.RoundTrip) {den : Den} {state : ProtectedState}
    (holds : Holds platform den generation state) (refused : (runtimeFile state.targetPolicy).bind policyOf = none) :
    load platform den = .error .invalidPolicy := by
  obtain ⟨contents, documented, loaded⟩ := load_eq_parse roundTrip holds
  simp only [documents, bind_eq_ok, return_eq_ok] at documented
  obtain ⟨packBytes, pack, policyBytes, policy, _, _, _, _, _, _, rfl⟩ := documented
  have readPack : parsePack platform packBytes = _ :=
    parseSorted_canonicalSorted roundTrip.peers pack_perm pack
  have readPolicy : parsePolicy platform policyBytes = .error .invalidPolicy := by
    obtain ⟨file, written, rfl⟩ := Option.map_eq_some_iff.mp (orError_eq_ok_iff.mp policy)
    rw [written, Option.bind_some] at refused
    simp [parsePolicy, parseCanonical, roundTrip.policy, refused, orError]
  rw [loaded]
  simp only [parseContents, parseSilver_canonicalSilver roundTrip, readPack, readPolicy, bind, Except.bind]
  rfl

theorem holds_of_load (roundTrip : platform.RoundTrip) {den : Den} {state : ProtectedState}
    (loaded : load platform den = .ok (.manifest generation state)) :
    Holds platform den generation state ∧ state.targetPolicy.WellFormed ∧ state.normal = state := by
  obtain ⟨_ | selected, current, rest⟩ := bind_eq_ok.mp loaded
  · cases rest
  · simp only [bind_eq_ok, return_eq_ok, Load.manifest.injEq] at rest
    obtain ⟨contents, contentsRead, _, parsed, rfl, rfl⟩ := rest
    obtain ⟨mode, selector, positive⟩ := selected_of_loadCurrent current
    obtain ⟨documented, wellFormed, normal⟩ := documents_of_parseContents roundTrip parsed
    simp only [loadContents, bind_eq_ok, return_eq_ok, readPresent_eq_ok_iff] at contentsRead
    obtain ⟨pack, packFile, silver, silverFile, policy, policyFile, fangs, fangsFile, active,
      activeFile, manifestBytes, manifestFile, value, manifestRead, governance, governanceRead, _,
      valid, rfl⟩ := contentsRead
    have built := manifest_of_validateManifest valid
    obtain ⟨_, again, _, committed, _⟩ := manifest_ok platform.toCrypto selected.number
      ⟨pack, silver, policy, fangs, active, governance⟩
    cases again.symm.trans built
    have governanceFile : ∀ data ∈ governance,
        den (name selected.slot .governance) = some data ∧ data.length ≤ documentLimit := by
      rintro data rfl
      rw [committed, commitments, Option.map_some, readCommitted] at governanceRead
      cases found : readPresent den (name selected.slot .governance) documentLimit with
      | error error => simp [found, Except.map] at governanceRead
      | ok bytes =>
        simp only [found, Except.map, Except.ok.injEq, Option.some.injEq] at governanceRead
        subst governanceRead
        exact readPresent_eq_ok_iff.mp found
    refine ⟨⟨mode, selector, positive, _, bind_eq_ok.mpr ⟨_, documented,
      bind_eq_ok.mpr ⟨_, built, rfl⟩⟩, ?_⟩, wellFormed, normal⟩
    intro write member
    simp only [List.mem_append, List.mem_cons, List.not_mem_nil, or_false, Option.mem_toList,
      Option.map_eq_some_iff] at member
    rcases member with ((rfl | rfl | rfl | rfl | rfl) | ⟨data, given, rfl⟩) | rfl
    · exact packFile
    · exact silverFile
    · exact policyFile
    · exact fangsFile
    · exact activeFile
    · exact governanceFile data given
    · refine ⟨by rw [toVec_of_exact manifestRead]; exact manifestFile.1, ?_⟩
      rw [toVec_of_exact manifestRead]
      exact manifestFile.2.trans (by decide)

end Holding

end Werewolf.Storage
