import Werewolf.Governance.DocumentProperties
import Werewolf.Policy.TargetProperties
import Werewolf.State.ValidationProperties
import Werewolf.Storage.ProtectedState

/-! A state and its six documents. What the writer's validators accept, the
reader's checks accept, and the reader returns the state in its stored order. -/

namespace Werewolf.Storage
open Library Governance State Policy

def ProtectedState.normal (state : ProtectedState) : ProtectedState :=
  { state with
    peers := sortOn PeerRecord.name state.peers
    targetPolicy := state.targetPolicy.normal
    fangProfiles := sortOn FangProfile.name state.fangProfiles
    activeProfiles := sortOn id state.activeProfiles }

theorem orError_eq_ok_iff {α : Type} {error : Error} {found : Option α} {value : α} :
    orError error found = .ok value ↔ found = some value := by
  cases found <;> simp [orError]

theorem map_orError_eq_ok_iff {α β : Type} {error : Error} {found : Option α} {f : α → β}
    {result : β} : (orError error found).map f = .ok result ↔ ∃ value, found = some value ∧ f value = result := by
  cases found <;> simp [orError, Except.map]

section Sorted

variable {α : Type} {codec : Codec α} {key : α → String}
  {fromSlice : List UInt8 → Option (List α)}

theorem parseSorted_canonicalSorted {valid others : List α → Bool}
    (roundTrip : ∀ values, fromSlice (Json.toVec (Json.array codec) values) = some values)
    (permuted : ∀ {left right : List α}, left.Perm right → valid left = true → others right = true) {values : List α}
    {bytes : List UInt8} (written : canonicalSorted valid codec key values = .ok bytes) :
    parseSorted fromSlice (canonicalSorted others codec key) bytes = .ok (sortOn key values) := by
  simp only [canonicalSorted, ite_eq_ok_iff, Bool.not_eq_true', Bool.not_eq_false, Except.ok.injEq] at written
  obtain ⟨accepted, rfl⟩ := written
  have again := permuted (sortOn_perm key values).symm accepted
  simp [parseSorted, roundTrip, canonicalSorted, again, bind, Except.bind]

theorem canonicalSorted_of_parseSorted {valid : List α → Bool}
    (roundTrip : ∀ values, fromSlice (Json.toVec (Json.array codec) values) = some values) {values : List α}
    {bytes : List UInt8} (read : parseSorted fromSlice (canonicalSorted valid codec key) bytes = .ok values) :
    canonicalSorted valid codec key values = .ok bytes ∧ sortOn key values = values := by
  unfold parseSorted at read
  split at read
  · cases read
  · rename_i found source
    obtain ⟨again, written, same⟩ := bind_eq_ok.mp read
    simp only [ite_eq_ok_iff, ne_eq, not_not, Except.ok.injEq] at same
    obtain ⟨rfl, rfl⟩ := same
    refine ⟨written, ?_⟩
    simp only [canonicalSorted, ite_eq_ok_iff, Except.ok.injEq] at written
    rw [← written.2, roundTrip] at source
    exact Option.some.inj source

end Sorted

section Exact

variable {α : Type} {codec : Codec α} {fromSlice : List UInt8 → Option α}

theorem exact_toVec (roundTrip : ∀ value, fromSlice (Json.toVec codec value) = some value)
    (value : α) : exact codec fromSlice (Json.toVec codec value) = .ok value := by
  simp [Storage.exact, roundTrip]

theorem toVec_of_exact {bytes : List UInt8} {value : α}
    (read : exact codec fromSlice bytes = .ok value) : Json.toVec codec value = bytes := by
  unfold Storage.exact at read
  split at read
  · cases read
  · simp only [ite_eq_ok_iff, ne_eq, not_not, Except.ok.injEq] at read
    obtain ⟨same, rfl⟩ := read
    exact same

end Exact

section Documents

variable {platform : Platform} {bytes : List UInt8}

theorem parseSilver_canonicalSilver (roundTrip : platform.RoundTrip) (locked : Bool) :
    parseSilver platform (canonicalSilver locked) = .ok locked := by
  cases locked <;>
    simp [parseSilver, canonicalSilver, exact_toVec roundTrip.silver, bind, Except.bind]

theorem canonicalSilver_of_parseSilver {locked : Bool}
    (read : parseSilver platform bytes = .ok locked) : canonicalSilver locked = bytes := by
  obtain ⟨⟨version, mode⟩, found, rest⟩ := bind_eq_ok.mp read
  have same := toVec_of_exact found
  simp only [ite_eq_ok_iff, ne_eq, not_not] at rest
  obtain ⟨rfl, chosen⟩ := rest
  split at chosen
  · rename_i isLocked
    cases chosen
    rw [← same, canonicalSilver, isLocked]
    rfl
  · split at chosen
    · rename_i isOpen
      cases chosen
      rw [← same, canonicalSilver, isOpen]
      rfl
    · cases chosen

theorem parsePolicy_canonicalPolicy (roundTrip : platform.RoundTrip) {policy : TargetPolicy}
    (wellFormed : policy.WellFormed) (written : canonicalPolicy platform policy = .ok bytes) :
    parsePolicy platform bytes = .ok policy.normal :=
  orError_eq_ok_iff.mpr (parseCanonical_canonicalFromRuntime roundTrip.policy wellFormed
    (orError_eq_ok_iff.mp written))

theorem canonicalPolicy_of_parsePolicy (roundTrip : platform.RoundTrip) {policy : TargetPolicy}
    (read : parsePolicy platform bytes = .ok policy) :
    canonicalPolicy platform policy = .ok bytes ∧ policy.WellFormed ∧ policy.normal = policy := by
  have found := orError_eq_ok_iff.mp read
  obtain ⟨written, wellFormed⟩ := canonicalFromRuntime_of_parseCanonical found
  have again := parseCanonical_canonicalFromRuntime roundTrip.policy wellFormed written
  exact ⟨orError_eq_ok_iff.mpr written, wellFormed, Option.some.inj (again.symm.trans found)⟩

theorem parseGovernance_canonicalGovernance (roundTrip : platform.RoundTrip) {governance : Option Head}
    {bytes : Option (List UInt8)} (written : canonicalGovernance governance = .ok bytes) :
    parseGovernance platform bytes = .ok governance := by
  cases governance with
  | none =>
    cases written
    rfl
  | some head =>
    obtain ⟨data, found, rfl⟩ := map_orError_eq_ok_iff.mp written
    exact map_orError_eq_ok_iff.mpr ⟨head, parse_canonical roundTrip.governance found, rfl⟩

theorem canonicalGovernance_of_parseGovernance {governance : Option Head}
    {bytes : Option (List UInt8)} (read : parseGovernance platform bytes = .ok governance) :
    canonicalGovernance governance = .ok bytes := by
  cases bytes with
  | none =>
    cases read
    rfl
  | some data =>
    obtain ⟨head, found, rfl⟩ := map_orError_eq_ok_iff.mp read
    exact map_orError_eq_ok_iff.mpr ⟨data, canonical_of_parse found, rfl⟩

theorem parseContents_documents (roundTrip : platform.RoundTrip) {state : ProtectedState} {contents : Documents}
    (wellFormed : state.targetPolicy.WellFormed) (written : documents platform state = .ok contents) :
    parseContents platform contents = .ok state.normal := by
  simp only [documents, bind_eq_ok, return_eq_ok] at written
  obtain ⟨packBytes, pack, policyBytes, policy, fangBytes, fangs, activeBytes, active,
    headBytes, head, rfl⟩ := written
  have readPack : parsePack platform packBytes = _ :=
    parseSorted_canonicalSorted roundTrip.peers pack_perm pack
  have readFangs : parseProfiles platform fangBytes = _ :=
    parseSorted_canonicalSorted roundTrip.profiles profileDocument_perm fangs
  have readActive : parseActive platform activeBytes (sortOn FangProfile.name state.fangProfiles) = _ :=
    parseSorted_canonicalSorted roundTrip.names (fun permuted => active_perm permuted (sortOn_perm _ _).symm) active
  simp only [parseContents, parseSilver_canonicalSilver roundTrip, readPack, readFangs, readActive,
    parsePolicy_canonicalPolicy roundTrip wellFormed policy,
    parseGovernance_canonicalGovernance roundTrip head, bind, Except.bind]
  rfl

theorem documents_of_parseContents (roundTrip : platform.RoundTrip) {state : ProtectedState}
    {contents : Documents} (read : parseContents platform contents = .ok state) :
    documents platform state = .ok contents ∧ state.targetPolicy.WellFormed ∧ state.normal = state := by
  simp only [parseContents, bind_eq_ok, return_eq_ok] at read
  obtain ⟨locked, silver, peers, pack, policy, policyRead, profiles, fangs, names, active,
    governance, head, rfl⟩ := read
  obtain ⟨packWritten, packSorted⟩ := canonicalSorted_of_parseSorted roundTrip.peers pack
  obtain ⟨fangsWritten, fangsSorted⟩ := canonicalSorted_of_parseSorted roundTrip.profiles fangs
  obtain ⟨activeWritten, activeSorted⟩ := canonicalSorted_of_parseSorted roundTrip.names active
  obtain ⟨policyWritten, wellFormed, policyNormal⟩ :=
    canonicalPolicy_of_parsePolicy roundTrip policyRead
  refine ⟨?_, wellFormed, ?_⟩
  · simp only [documents, canonicalPack, canonicalProfiles, canonicalActive, packWritten,
      fangsWritten, activeWritten, policyWritten, canonicalGovernance_of_parseGovernance head,
      canonicalSilver_of_parseSilver silver, bind, Except.bind]
    rfl
  · simp only [ProtectedState.normal, packSorted, fangsSorted, activeSorted, policyNormal]

end Documents

end Werewolf.Storage
