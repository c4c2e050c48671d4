import Werewolf.Storage.CommitProperties

/-! A state that was durably committed comes back. The writer does not look into
the grants of a target policy, and the reader does, so they have to be such as
every reader and every command leaves them. -/

namespace Werewolf.Storage
open Library Governance State Policy
open Json hiding key number

structure SameState (platform : Platform) (loaded committed : ProtectedState) : Prop where
  silver : loaded.silverLocked = committed.silverLocked
  peers : loaded.peers.Perm committed.peers
  profiles : loaded.fangProfiles.Perm committed.fangProfiles
  active : loaded.activeProfiles.Perm committed.activeProfiles
  decisions : ∀ resolver peer target,
    authorize platform.toAddressing resolver loaded.targetPolicy peer target =
      authorize platform.toAddressing resolver committed.targetPolicy peer target
  governance : loaded.governance = committed.governance

theorem normal_sameState (platform : Platform) (state : ProtectedState) : SameState platform state.normal state where
  silver := rfl
  peers := sortOn_perm _ _
  profiles := sortOn_perm _ _
  active := sortOn_perm _ _
  decisions resolver peer target :=
    authorize_normal platform.toAddressing resolver state.targetPolicy peer target
  governance := rfl

/-- The next load on a Den that only the commit has touched. -/
theorem load_after_commit (platform : Platform) (roundTrip : platform.RoundTrip) (den : Den)
    (current : UInt64) (state : ProtectedState) (fates : Nat → Replacement)
    (generation : Generation) (wellFormed : state.targetPolicy.WellFormed)
    (committed : (commit platform den current state fates).2 = .reported (.durablyCommitted generation)) :
    ∃ loaded, load platform (den.apply (commit platform den current state fates).1) =
        .ok (.manifest generation loaded) ∧ SameState platform loaded state :=
  ⟨state.normal, load_of_holds roundTrip wellFormed (holds_of_committed committed), normal_sameState platform state⟩

section Lawful

theorem modeCodec_lawful : modeCodec.Lawful (fun _ => True) :=
  (record_lawful (fields_lawful (field_lawful u8_lawful _)
    (field_lawful string_lawful _).anywhere)).imap (fun _ => rfl)

theorem slotCodec_lawful : slotCodec.Lawful (fun _ => True) :=
  string_lawful.imap (fun slot => by cases slot <;> rfl)

theorem currentCodec_lawful : currentCodec.Lawful (fun _ => True) :=
  (record_lawful (fields_lawful (field_lawful u8_lawful _)
    (fields_lawful (field_lawful u64_lawful _)
    (field_lawful slotCodec_lawful _).anywhere))).imap (fun _ => rfl)

theorem commitmentsCodec_lawful : commitmentsCodec.Lawful (fun _ => True) := by
  have text (name : String) {follows : List Char → Prop} : (field name string).Lawful follows :=
    (field_lawful string_lawful name).anywhere
  have common : (fields (field "pack" string)
      (fields (field "silver" string)
      (fields (field "target_policy" string)
      (fields (field "fangs" string)
      (field "active_fangs" string))))).Lawful (Past []) :=
    fields_lawful (text _) (fields_lawful (text _) (fields_lawful (text _)
      (fields_lawful (text _) (text _))))
  exact (object_lawful (optionalField_lawful common "governance"
    string_lawful.anywhere (by simp))).imap (fun _ => rfl)

theorem manifestCodec_lawful : manifestCodec.Lawful (fun _ => True) :=
  (record_lawful (fields_lawful (field_lawful u8_lawful _)
    (fields_lawful (field_lawful u64_lawful _)
    (fields_lawful (field_lawful commitmentsCodec_lawful _).anywhere
    (field_lawful string_lawful _).anywhere)))).imap (fun _ => rfl)

theorem silverCodec_lawful : silverCodec.Lawful (fun _ => True) :=
  (record_lawful (fields_lawful (field_lawful u8_lawful _)
    (field_lawful string_lawful _).anywhere)).imap (fun _ => rfl)

theorem peerCodec_lawful : peerCodec.Lawful (fun _ => True) := by
  have trust : trustCodec.Lawful (fun _ => True) :=
    string_lawful.imap (fun trust => by cases trust <;> rfl)
  exact (record_lawful (fields_lawful (field_lawful string_lawful _).anywhere
    (fields_lawful (field_lawful string_lawful _).anywhere
    (fields_lawful (field_lawful string_lawful _).anywhere
    (fields_lawful (field_lawful trust _).anywhere
    (field_lawful nullableString_lawful _).anywhere))))).imap (fun _ => rfl)

theorem profileCodec_lawful : profileCodec.Lawful (fun _ => True) := by
  have text (name : String) {follows : List Char → Prop} : (field name string).Lawful follows :=
    (field_lawful string_lawful name).anywhere
  exact (record_lawful (fields_lawful (text _) (fields_lawful (text _)
    (fields_lawful (text _) (fields_lawful (text _) (text _)))))).imap (fun _ => rfl)

end Lawful

namespace Sample

def addressing : Addressing where
  ipText
    | .v4 octets => String.ofList ('4' :: hexChars octets.val)
    | .v6 octets => String.ofList ('6' :: hexChars octets.val)
  parseIp text :=
    match text.toList with
    | '4' :: digits => (unhex 4 (String.ofList digits)).map .v4
    | '6' :: digits => (unhex 16 (String.ofList digits)).map .v6
    | _ => none
  parseSocketAddr _ := none

/-- A platform whose reader accepts nothing but what the writers write. -/
def platform : Platform where
  toCrypto := Governance.Sample.crypto
  base64Decode _ := none
  base64Encode _ := ""
  isSocketAddr _ := true
  toAddressing := addressing
  readMode := fromSlice modeCodec
  readCurrent := fromSlice currentCodec
  readManifest := fromSlice manifestCodec
  readSilver := fromSlice silverCodec
  readPeers := fromSlice (array peerCodec)
  readPolicy := fromSlice (policyFile addressing)
  readProfiles := fromSlice (array profileCodec)
  readNames := fromSlice (array string)
  readGovernance := fromSlice documentCodec

theorem parseIp_ipText (ip : IpAddr) : addressing.parseIp (addressing.ipText ip) = some ip := by
  cases ip with
  | v4 octets =>
    have read := unhex_hex octets
    simp only [hex] at read
    simp [addressing, read]
  | v6 octets =>
    have read := unhex_hex octets
    simp only [hex] at read
    simp [addressing, read]

theorem roundTrip : platform.RoundTrip := by
  have peers := array_lawful peerCodec_lawful.anywhere (fun _ => object_opens _ _) (by decide)
  have profiles := array_lawful profileCodec_lawful.anywhere (fun _ => object_opens _ _) (by decide)
  have names := array_lawful string_lawful.anywhere string_opens (by decide)
  constructor <;> intro value <;> dsimp only [platform]
  · exact fromSlice_toVec modeCodec_lawful trivial value
  · exact fromSlice_toVec currentCodec_lawful trivial value
  · exact fromSlice_toVec manifestCodec_lawful trivial value
  · exact fromSlice_toVec silverCodec_lawful trivial value
  · exact fromSlice_toVec peers trivial value
  · exact fromSlice_toVec (policyFile_lawful parseIp_ipText) trivial value
  · exact fromSlice_toVec profiles trivial value
  · exact fromSlice_toVec names trivial value
  · exact fromSlice_toVec documentCodec_lawful trivial value

def den : Den :=
  Den.apply (fun _ => none) [⟨modeFile, modeBytes⟩, ⟨currentFile, currentBytes ⟨1, .a⟩⟩]

def state (policy : TargetPolicy) : ProtectedState where
  silverLocked := true
  peers := [⟨"howler", "wwp1:12-34-56-78-9A-BC-DE-F0", "tcp://127.0.0.1:7000", .packmate, none⟩]
  targetPolicy := policy
  fangProfiles := []
  activeProfiles := []
  governance := none

def grant (fingerprint : String) : TargetPolicy :=
  .grants ((∅ : Grants).insert fingerprint {.v4 ⟨[127, 0, 0, 2], rfl⟩ 80})

def durable (_ : Nat) : Replacement := .durablyCommitted

def fingerprint : String := "wwp1:12-34-56-78-9A-BC-DE-F0"

theorem grant_wellFormed : (grant fingerprint).WellFormed := by
  have allowed : allowExact .deny fingerprint (.v4 ⟨[127, 0, 0, 2], rfl⟩ 80) = some (grant fingerprint) := by
    have checked : (!validFingerprint fingerprint ||
        !supportedEndpoint (.v4 ⟨[127, 0, 0, 2], rfl⟩ 80)) = false := by decide +kernel
    simp only [allowExact, checked, Bool.false_eq_true, if_false]
    rfl
  exact allowExact_wellFormed (show TargetPolicy.deny.WellFormed from trivial) rfl allowed

theorem selected : loadCurrent platform den = .ok (some ⟨1, .a⟩) :=
  loadCurrent_of_selected roundTrip rfl rfl (by decide)

def fits (policy : TargetPolicy) : Bool :=
  match documents platform (state policy) with
  | .ok contents => contents.bytes.all (fun bytes => bytes.length ≤ documentLimit)
  | .error _ => false

theorem committed {den : Den} {current : UInt64} {slot : Slot} {next : Generation}
    {policy : TargetPolicy} (selected : loadCurrent platform den = .ok (some ⟨current, slot⟩))
    (follows : nextGeneration ⟨current, slot⟩ = some next) (small : fits policy = true) :
    (commit platform den current (state policy) durable).2 = .reported (.durablyCommitted next) := by
  unfold fits at small
  split at small
  · rename_i contents documented
    exact commit_durable selected follows documented (by simpa using small)
  · cases small

end Sample

open Sample

/-- A state with one grant is committed as the second generation and loads. -/
theorem granted_state_loads : ∃ loaded, load Sample.platform (den.apply (commit Sample.platform den 1
        (state (grant Sample.fingerprint)) durable).1) =
        .ok (.manifest ⟨2, .b⟩ loaded) ∧
      SameState Sample.platform loaded (state (grant Sample.fingerprint)) :=
  load_after_commit Sample.platform Sample.roundTrip den 1 (state (grant Sample.fingerprint)) durable ⟨2, .b⟩
    grant_wellFormed (Sample.committed selected (by decide) (by decide +kernel))

/-- A grant to something that is no fingerprint is committed, and never loads. -/
theorem misnamed_grant_never_loads :
    (commit Sample.platform den 1 (state (grant "howler"))
        durable).2 = .reported (.durablyCommitted ⟨2, .b⟩) ∧
      load Sample.platform (den.apply (commit Sample.platform den 1
        (state (grant "howler")) durable).1) = .error .invalidPolicy := by
  have committed : (commit Sample.platform den 1 (state (grant "howler"))
      durable).2 = .reported (.durablyCommitted ⟨2, .b⟩) :=
    Sample.committed selected (by decide) (by decide +kernel)
  exact ⟨committed, load_refused Sample.roundTrip (holds_of_committed committed) (by decide +kernel)⟩

end Werewolf.Storage
