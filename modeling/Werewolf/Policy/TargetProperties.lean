import Werewolf.Library.Result
import Werewolf.Policy.Target

/-! A policy whose grants could be loaded comes back from its document as the
same policy, save that `deny` comes back as no grants at all. -/

namespace Werewolf.Policy
open Library
open Json hiding key number

variable {peers : Peers} {table : Grants} {policy : TargetPolicy}

def Grantable (endpoint : SocketAddr) : Prop :=
  supportedEndpoint endpoint = true ∧ SocketAddr.new endpoint.ip endpoint.port = endpoint

instance decidableGrantable (endpoint : SocketAddr) : Decidable (Grantable endpoint) :=
  inferInstanceAs (Decidable (_ ∧ _))

def TargetPolicy.WellFormed : TargetPolicy → Prop
  | .grants table => ∀ fingerprint endpoints, table.lookup fingerprint = some endpoints →
      validFingerprint fingerprint = true ∧ ∀ endpoint ∈ endpoints, Grantable endpoint
  | _ => True

def TargetPolicy.normal : TargetPolicy → TargetPolicy
  | .deny => .grants ∅
  | policy => policy

section Maps

variable {β : Type}

def insertAll (value : String → β) (start : Finmap (fun _ : String => β)) (keys : List String) :
    Finmap (fun _ : String => β) :=
  keys.foldl (fun map key => map.insert key (value key)) start

theorem lookup_insertAll (value : String → β) (start : Finmap (fun _ : String => β))
    (keys : List String) (key : String) :
    (insertAll value start keys).lookup key =
      if key ∈ keys then some (value key) else start.lookup key := by
  induction keys generalizing start with
  | nil => simp [insertAll]
  | cons first keys ih =>
    have step := ih (start.insert first (value first))
    simp only [insertAll, List.foldl_cons] at step ⊢
    rw [step]
    by_cases later : key ∈ keys
    · simp [later]
    · by_cases same : key = first
      · subst same
        simp [later]
      · simp [later, same, Finmap.lookup_insert_of_ne _ same]

theorem insertAll_ascending (map : Finmap (fun _ : String => β)) (value : String → β)
    (agrees : ∀ key found, map.lookup key = some found → value key = found) :
    insertAll value ∅ (ascending map.keys) = map := by
  refine Finmap.ext_lookup fun key => ?_
  rw [lookup_insertAll]
  simp only [mem_ascending, Finmap.mem_keys, Finmap.lookup_empty]
  cases found : map.lookup key with
  | none => simp [Finmap.lookup_eq_none.mp found]
  | some member =>
    have present : key ∈ map := Finmap.lookup_isSome.mp (by simp [found])
    simp [present, agrees key member found]

end Maps

theorem visitMap_insertAll {keys : List String} (targets : String → List TargetGrant)
    (distinct : keys.Nodup) (valid : ∀ key ∈ keys, validFingerprint key = true) :
    visitMap (keys.map (fun key => (key, targets key))) = some (insertAll targets ∅ keys) := by
  have general : ∀ start : Peers, (∀ key ∈ keys, key ∉ start) → (keys.map (fun key => (key, targets key))).foldlM
        (fun (peers : Peers) (entry : String × List TargetGrant) =>
          if !validFingerprint entry.1 || entry.1 ∈ peers then none
          else some (peers.insert entry.1 entry.2)) start = some (insertAll targets start keys) := by
    induction keys with
    | nil => intro start _; rfl
    | cons first keys ih =>
      intro start fresh
      have absent := fresh first (by simp)
      have known := valid first (by simp)
      simp only [List.map_cons, List.foldlM_cons, known, absent, Bool.not_true, decide_false,
        Bool.or_false, Bool.false_eq_true, if_false, Option.bind_eq_bind, Option.bind_some]
      refine ih distinct.of_cons (fun key member => valid key (by simp [member])) _ ?_
      intro key member inserted
      rcases Finmap.mem_insert.mp inserted with rfl | old
      · exact (List.nodup_cons.mp distinct).1 member
      · exact fresh key (by simp [member]) old
  exact general ∅ (fun _ _ => Finmap.notMem_empty)

theorem endpointsOf_toFinset {endpoints : List SocketAddr} (distinct : endpoints.Nodup)
    (grantable : ∀ endpoint ∈ endpoints, Grantable endpoint) :
    endpointsOf (endpoints.map (fun endpoint => ⟨endpoint.ip, endpoint.port⟩)) = some endpoints.toFinset := by
  have general : ∀ start : Finset SocketAddr, (∀ endpoint ∈ endpoints, endpoint ∉ start) →
      (endpoints.map (fun endpoint => (⟨endpoint.ip, endpoint.port⟩ : TargetGrant))).foldlM
        (fun (known : Finset SocketAddr) (target : TargetGrant) =>
          if !supportedEndpoint (SocketAddr.new target.address target.port) ||
              SocketAddr.new target.address target.port ∈ known then none
          else some (insert (SocketAddr.new target.address target.port) known)) start =
        some (start ∪ endpoints.toFinset) := by
    induction endpoints with
    | nil => intro start _; simp
    | cons first endpoints ih =>
      intro start fresh
      have absent := fresh first (by simp)
      obtain ⟨supported, plain⟩ := grantable first (by simp)
      simp only [List.map_cons, List.foldlM_cons, plain, supported, absent, Bool.not_true,
        decide_false, Bool.or_false, Bool.false_eq_true, if_false, Option.bind_eq_bind,
        Option.bind_some]
      rw [ih distinct.of_cons (fun endpoint member => grantable endpoint (by simp [member]))]
      · rw [List.toFinset_cons, Finset.insert_union, Finset.union_insert]
      · intro endpoint member inserted
        rcases Finset.mem_insert.mp inserted with rfl | old
        · exact (List.nodup_cons.mp distinct).1 member
        · exact fresh endpoint (by simp [member]) old
  simpa [endpointsOf] using general ∅ (by simp)

theorem grantsOf_insertAll (sets : String → Finset SocketAddr)
    (reads : ∀ key ∈ peers, endpointsOf ((peers.lookup key).getD []) = some (sets key)) :
    grantsOf peers = some (insertAll sets ∅ (ascending peers.keys)) := by
  have general : ∀ (keys : List String) (start : Grants), (∀ key ∈ keys, key ∈ peers) →
      keys.foldlM (fun (grants : Grants) fingerprint =>
          (endpointsOf ((peers.lookup fingerprint).getD [])).map (grants.insert fingerprint)) start =
        some (insertAll sets start keys) := by
    intro keys
    induction keys with
    | nil => intro start _; rfl
    | cons first keys ih =>
      intro start members
      simp only [List.foldlM_cons, reads first (members first (by simp)), Option.map_some,
        Option.bind_eq_bind, Option.bind_some]
      exact ih _ (fun key member => members key (by simp [member]))
  exact general _ ∅ (fun key member => by simpa [mem_ascending, Finmap.mem_keys] using member)

def writtenPeers (table : Grants) : Peers :=
  insertAll (fun fingerprint => (ascending ((table.lookup fingerprint).getD ∅)).map
    (fun endpoint => ⟨endpoint.ip, endpoint.port⟩)) ∅ (ascending table.keys)

theorem mem_writtenPeers {key : String} : key ∈ writtenPeers table ↔ key ∈ table := by
  rw [← Finmap.lookup_isSome, writtenPeers, lookup_insertAll]
  simp only [mem_ascending, Finmap.mem_keys, Finmap.lookup_empty]
  by_cases present : key ∈ table <;> simp [present]

theorem writtenPeers_keys (table : Grants) : (writtenPeers table).keys = table.keys := by
  ext key
  rw [Finmap.mem_keys, mem_writtenPeers, Finmap.mem_keys]

theorem grantsOf_writtenPeers (wellFormed : (TargetPolicy.grants table).WellFormed) :
    grantsOf (writtenPeers table) = some table := by
  have sets : ∀ key ∈ writtenPeers table, endpointsOf (((writtenPeers table).lookup key).getD []) =
        some ((table.lookup key).getD ∅) := by
    intro key member
    have present := mem_writtenPeers.mp member
    obtain ⟨endpoints, found⟩ := Option.isSome_iff_exists.mp (Finmap.lookup_isSome.mpr present)
    rw [writtenPeers, lookup_insertAll,
      if_pos (by simpa [mem_ascending, Finmap.mem_keys] using present), Option.getD_some, found,
      Option.getD_some, endpointsOf_toFinset (ascending_nodup _) fun endpoint granted =>
        (wellFormed key endpoints found).2 endpoint (mem_ascending.mp granted)]
    congr 1
    ext endpoint
    simp [mem_ascending]
  rw [grantsOf_insertAll (fun key => (table.lookup key).getD ∅) sets, writtenPeers_keys,
    insertAll_ascending table _ fun key found lookup => by rw [lookup, Option.getD_some]]

theorem policyOf_runtimeFile {file : PolicyFile} (wellFormed : policy.WellFormed)
    (written : runtimeFile policy = some file) :
    policyOf file = some policy.normal := by
  cases policy with
  | deny =>
    cases written
    decide +kernel
  | legacyAllow =>
    cases written
    decide +kernel
  | grants table =>
    cases written
    have valid : ∀ key ∈ ascending table.keys, validFingerprint key = true := by
      intro key member
      have present := Finmap.mem_keys.mp (mem_ascending.mp member)
      obtain ⟨endpoints, found⟩ := Option.isSome_iff_exists.mp (Finmap.lookup_isSome.mpr present)
      exact (wellFormed key endpoints found).1
    have visited := visitMap_insertAll (fun fingerprint =>
      (ascending ((table.lookup fingerprint).getD ∅)).map
        (fun endpoint => (⟨endpoint.ip, endpoint.port⟩ : TargetGrant)))
      (ascending_nodup table.keys) valid
    have read := grantsOf_writtenPeers wellFormed
    simp only [writtenPeers] at read
    simp [policyOf, visited, policyFromFile, read, TargetPolicy.normal]
  | invalid => cases written

theorem runtimeFile_normal (policy : TargetPolicy) : runtimeFile policy.normal = runtimeFile policy := by
  cases policy with
  | deny => decide +kernel
  | legacyAllow => rfl
  | grants table => rfl
  | invalid => rfl

theorem visitMap_valid {entries : List (String × List TargetGrant)}
    (visited : visitMap entries = some peers) {key : String} (member : key ∈ peers) :
    validFingerprint key = true := by
  refine foldlM_invariant (fun peers : Peers => ∀ key ∈ peers, validFingerprint key = true) ?_
    (fun key inside => absurd inside Finmap.notMem_empty) visited key member
  rintro state ⟨fingerprint, targets⟩ _ next known stepped key inside
  simp only [Option.ite_none_left_eq_some, Bool.or_eq_true, Bool.not_eq_true', not_or,
    Bool.not_eq_false, Option.some.injEq] at stepped
  obtain ⟨⟨valid, _⟩, rfl⟩ := stepped
  rcases Finmap.mem_insert.mp inside with rfl | old
  · exact valid
  · exact known key old

theorem new_grantable {address : IpAddr} {port : UInt16}
    (supported : supportedEndpoint (SocketAddr.new address port) = true) :
    Grantable (SocketAddr.new address port) := by
  refine ⟨supported, ?_⟩
  cases address with
  | v4 octets => rfl
  | v6 octets => rfl

theorem endpointsOf_grantable {targets : List TargetGrant} {endpoints : Finset SocketAddr}
    (read : endpointsOf targets = some endpoints) :
    ∀ endpoint ∈ endpoints, Grantable endpoint := by
  refine foldlM_invariant (fun endpoints : Finset SocketAddr =>
    ∀ endpoint ∈ endpoints, Grantable endpoint) ?_ (by simp) read
  rintro state target _ next known stepped endpoint inside
  simp only [Option.ite_none_left_eq_some, Bool.or_eq_true, Bool.not_eq_true', not_or,
    Bool.not_eq_false, Option.some.injEq] at stepped
  obtain ⟨⟨supported, _⟩, rfl⟩ := stepped
  rcases Finset.mem_insert.mp inside with rfl | old
  · exact new_grantable supported
  · exact known endpoint old

theorem grantsOf_grantable (read : grantsOf peers = some table) :
    ∀ fingerprint endpoints, table.lookup fingerprint = some endpoints →
      fingerprint ∈ peers ∧ ∀ endpoint ∈ endpoints, Grantable endpoint := by
  refine foldlM_invariant (fun table : Grants => ∀ fingerprint endpoints, table.lookup fingerprint = some endpoints →
      fingerprint ∈ peers ∧ ∀ endpoint ∈ endpoints, Grantable endpoint) ?_
    (fun fingerprint endpoints found => by simp at found) read
  intro state key member next known stepped fingerprint endpoints found
  obtain ⟨added, readAdded, rfl⟩ := Option.map_eq_some_iff.mp stepped
  by_cases same : fingerprint = key
  · subst same
    simp only [Finmap.lookup_insert, Option.some.injEq] at found
    subst found
    exact ⟨Finmap.mem_keys.mp (mem_ascending.mp member), endpointsOf_grantable readAdded⟩
  · rw [Finmap.lookup_insert_of_ne _ same] at found
    exact known fingerprint endpoints found

theorem policyOf_wellFormed {file : PolicyFile} (read : policyOf file = some policy) : policy.WellFormed := by
  have fromFile {mode : String} {peers : Option Peers}
      (valid : ∀ known ∈ peers, ∀ key ∈ known, validFingerprint key = true) :
      (policyFromFile mode peers).WellFormed := by
    unfold policyFromFile
    split
    · trivial
    · split
      · split
        · rename_i table found
          obtain ⟨known, rfl, readTable⟩ := Option.bind_eq_some_iff.mp found
          intro fingerprint endpoints lookup
          obtain ⟨member, grantable⟩ := grantsOf_grantable readTable fingerprint endpoints lookup
          exact ⟨valid known rfl fingerprint member, grantable⟩
        · trivial
      · trivial
  unfold policyOf at read
  split at read
  · cases read
    exact fromFile (by simp)
  · obtain ⟨peers, visited, rfl⟩ := Option.map_eq_some_iff.mp read
    refine fromFile fun known found key member => ?_
    cases found
    exact visitMap_valid visited member

theorem wellFormed_insert {table : Grants} {fingerprint : String} {targets : Finset SocketAddr}
    (wellFormed : (TargetPolicy.grants table).WellFormed) (valid : validFingerprint fingerprint = true)
    (grantable : ∀ candidate ∈ targets, Grantable candidate) :
    (TargetPolicy.grants (table.insert fingerprint targets)).WellFormed := by
  intro other endpoints found
  by_cases same : other = fingerprint
  · subst same
    simp only [Finmap.lookup_insert, Option.some.injEq] at found
    subst found
    exact ⟨valid, grantable⟩
  · rw [Finmap.lookup_insert_of_ne _ same] at found
    exact wellFormed other endpoints found

theorem allowExact_wellFormed {next : TargetPolicy} {fingerprint : String} {endpoint : SocketAddr}
    (wellFormed : policy.WellFormed) (plain : SocketAddr.new endpoint.ip endpoint.port = endpoint)
    (allowed : allowExact policy fingerprint endpoint = some next) : next.WellFormed := by
  simp only [allowExact, Option.ite_none_left_eq_some, Bool.or_eq_true, Bool.not_eq_true',
    not_or, Bool.not_eq_false] at allowed
  obtain ⟨⟨valid, supported⟩, chosen⟩ := allowed
  cases policy with
  | deny =>
    cases chosen
    refine wellFormed_insert (fun _ _ found => ?_) valid (by simp [Grantable, supported, plain])
    simp at found
  | grants table =>
    cases chosen
    refine wellFormed_insert wellFormed valid (fun candidate member => ?_)
    rcases Finset.mem_insert.mp member with rfl | old
    · exact ⟨supported, plain⟩
    · cases before : table.lookup fingerprint with
      | none => simp [before] at old
      | some granted =>
        rw [before] at old
        exact (wellFormed fingerprint granted before).2 candidate old
  | legacyAllow => cases chosen
  | invalid => cases chosen

theorem removeExact_wellFormed {next : TargetPolicy} {fingerprint : String} {endpoint : SocketAddr}
    (wellFormed : policy.WellFormed)
    (removed : removeExact policy fingerprint endpoint = some next) : next.WellFormed := by
  simp only [removeExact, Option.ite_none_left_eq_some] at removed
  obtain ⟨_, chosen⟩ := removed
  cases policy with
  | grants table =>
    cases before : table.lookup fingerprint with
    | none => simp [before] at chosen
    | some targets =>
      simp only [before, Option.ite_none_left_eq_some] at chosen
      obtain ⟨_, chosen⟩ := chosen
      split at chosen
      · cases chosen
        intro other endpoints found
        by_cases same : other = fingerprint
        · subst same
          simp at found
        · rw [Finmap.lookup_erase_ne same] at found
          exact wellFormed other endpoints found
      · cases chosen
        obtain ⟨valid, grantable⟩ := wellFormed fingerprint targets before
        exact wellFormed_insert wellFormed valid
          (fun candidate member => grantable candidate (Finset.mem_of_mem_erase member))
  | deny => cases chosen
  | legacyAllow => cases chosen
  | invalid => cases chosen

section Document

variable {addressing : Addressing} {fromSlice : List UInt8 → Option PolicyFile}

theorem parseCanonical_canonicalFromRuntime
    (roundTrip : ∀ file, fromSlice (toVec (policyFile addressing) file) = some file)
    {policy : TargetPolicy} {data : List UInt8} (wellFormed : policy.WellFormed)
    (written : canonicalFromRuntime addressing policy = some data) :
    parseCanonical addressing fromSlice data = some policy.normal := by
  obtain ⟨file, fileWritten, rfl⟩ := Option.map_eq_some_iff.mp written
  have read := policyOf_runtimeFile wellFormed fileWritten
  simp [parseCanonical, roundTrip, read, canonicalFromRuntime, runtimeFile_normal, fileWritten]

theorem canonicalFromRuntime_of_parseCanonical {policy : TargetPolicy} {data : List UInt8}
    (read : parseCanonical addressing fromSlice data = some policy) :
    canonicalFromRuntime addressing policy = some data ∧ policy.WellFormed := by
  simp only [parseCanonical, Option.bind_eq_bind, Option.bind_eq_some_iff,
    Option.ite_none_right_eq_some, Option.some.injEq] at read
  obtain ⟨policy, ⟨file, _, found⟩, canonical, written, rfl, rfl⟩ := read
  exact ⟨written, policyOf_wellFormed found⟩

theorem policyFile_lawful (parsed : ∀ ip, addressing.parseIp (addressing.ipText ip) = some ip) :
    (policyFile addressing).Lawful (fun _ => True) := by
  have grant : (targetGrant addressing).Lawful (fun _ => True) :=
    (record_lawful (fields_lawful
      (field_lawful (string_lawful.imap parsed) "address").anywhere
      (field_lawful u16_lawful "port"))).imap (fun _ => rfl)
  have targets : (array (targetGrant addressing)).Lawful (fun _ => True) :=
    array_lawful grant.anywhere (fun _ => object_opens _ _) (by decide)
  have entry : (peerEntry addressing).Lawful (fun _ => True) :=
    string_lawful.andThen
      ((record_lawful (field_lawful targets "targets").anywhere).after [':'])
      (fun _ _ _ => trivial)
  have opens : Opens (peerEntry addressing) '"' := fun value => ⟨_, rfl⟩
  have peers : (sequence '\x7b' '\x7d' (peerEntry addressing)).Lawful (fun _ => True) :=
    sequence_lawful entry.anywhere opens (by decide) (by decide) (by decide)
  have mode : (field "mode" string).Lawful (Past []) :=
    (field_lawful string_lawful "mode").anywhere
  exact (object_lawful (optionalField_lawful mode "peers" peers.anywhere
    (by simp))).imap (fun _ => rfl)

end Document

theorem targetEndpoints_error {addressing : Addressing}
    {resolver : String → UInt16 → Option (List SocketAddr)} {target outcome : String}
    (failed : targetEndpoints addressing resolver target = .error outcome) : outcome = denied := by
  unfold targetEndpoints at failed
  repeat' split at failed
  all_goals cases failed
  all_goals rfl

theorem authorize_eq {addressing : Addressing} {resolver : String → UInt16 → Option (List SocketAddr)}
    {policy : TargetPolicy} {peer target : String} : authorize addressing resolver policy peer target =
      if policy = .deny ∨ policy = .invalid ∨ '%' ∈ target.toList then .error denied
      else (targetEndpoints addressing resolver target).bind (decideEndpoints policy peer) := by
  unfold authorize authorizeWithResolver targetEndpoints
  split
  · rfl
  · cases addressing.parseSocketAddr target with
    | some endpoint => rfl
    | none =>
      cases rsplitOnce ':' target.toList with
      | none => rfl
      | some parts =>
        cases read : parseU16 parts.2 with
        | none => simp [read, Except.bind]
        | some port =>
          simp only [read]
          split
          · rfl
          · simp only [pure_bind]
            cases resolver (String.ofList parts.1) (UInt16.ofNat port) <;> rfl

theorem authorize_normal (addressing : Addressing) (resolver : String → UInt16 → Option (List SocketAddr))
    (policy : TargetPolicy) (peer target : String) :
    authorize addressing resolver policy.normal peer target = authorize addressing resolver policy peer target := by
  cases policy with
  | deny =>
    have never : authorize addressing resolver (.grants ∅) peer target = .error denied := by
      cases found : targetEndpoints addressing resolver target with
      | error outcome => simp [authorize_eq, found, targetEndpoints_error found, Except.bind]
      | ok endpoints => simp [authorize_eq, found, Except.bind, decideEndpoints]
    simpa [TargetPolicy.normal, authorize_eq] using never
  | legacyAllow => rfl
  | grants table => rfl
  | invalid => rfl

end Werewolf.Policy
