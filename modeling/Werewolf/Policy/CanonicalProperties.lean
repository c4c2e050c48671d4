import Werewolf.Policy.AuthorizationProperties
import Werewolf.Storage.Durability

/-! The canonical document of a policy. It stands for the decisions of the
policy: it is read back as a policy with the same decisions, and two accepted
documents without idle peers share it exactly if they decide alike. -/

namespace Werewolf.Policy
open Library

namespace PolicyFile

def NoIdlePeer (file : PolicyFile) : Prop :=
  ∀ entries, file.peers = some entries → ∀ entry ∈ entries, entry.2 ≠ []

def RepeatsPeer (file : PolicyFile) : Prop :=
  ∃ entries, file.peers = some entries ∧ ¬(entries.map Prod.fst).Nodup

def RepeatsEndpoint (file : PolicyFile) : Prop :=
  ∃ entries, file.peers = some entries ∧ ∃ entry ∈ entries,
    ¬(entry.2.map (fun target => SocketAddr.new target.address target.port)).Nodup

def NamesUnsupported (file : PolicyFile) : Prop :=
  ∃ entries, file.peers = some entries ∧ ∃ entry ∈ entries, ∃ target ∈ entry.2,
    supportedEndpoint (SocketAddr.new target.address target.port) = false

end PolicyFile

def DecideAlike (addressing : Addressing) (left right : TargetPolicy) : Prop :=
  ∀ resolver peer target, authorize addressing resolver left peer target =
    authorize addressing resolver right peer target

section Accepted

variable {file : PolicyFile} {policy : TargetPolicy}

private theorem visitMap_from {entries : List (String × List TargetGrant)} {start peers : Peers}
    (visited : entries.foldlM (fun (peers : Peers) (entry : String × List TargetGrant) =>
        if !validFingerprint entry.1 || entry.1 ∈ peers then none
        else some (peers.insert entry.1 entry.2)) start = some peers) :
    (entries.map Prod.fst).Nodup ∧ (∀ entry ∈ entries, peers.lookup entry.1 = some entry.2) ∧
      ∀ key ∈ start, key ∉ entries.map Prod.fst ∧ peers.lookup key = start.lookup key := by
  induction entries generalizing start with
  | nil =>
    cases visited
    simp
  | cons entry entries ih =>
    rw [List.foldlM_cons, bind_eq_some] at visited
    obtain ⟨next, stepped, rest⟩ := visited
    simp only [Option.ite_none_left_eq_some, Option.some.injEq, Bool.or_eq_true, decide_eq_true_eq, not_or] at stepped
    obtain ⟨⟨_, fresh⟩, rfl⟩ := stepped
    obtain ⟨distinct, found, kept⟩ := ih rest
    have first := kept entry.1 (Finmap.mem_insert.mpr (.inl rfl))
    refine ⟨List.nodup_cons.mpr ⟨first.1, distinct⟩, fun other member => ?_,
      fun key known => ?_⟩
    · cases member with
      | head => rw [first.2, Finmap.lookup_insert]
      | tail _ later => exact found other later
    · have different : key ≠ entry.1 := fun same => fresh (same ▸ known)
      obtain ⟨absent, same⟩ := kept key (Finmap.mem_insert.mpr (.inr known))
      refine ⟨by simpa [different] using absent, ?_⟩
      rw [same, Finmap.lookup_insert_of_ne _ different]

private theorem endpointsOf_from {targets : List TargetGrant} {start endpoints : Finset SocketAddr}
    (read : targets.foldlM (fun (known : Finset SocketAddr) (target : TargetGrant) =>
        if !supportedEndpoint (SocketAddr.new target.address target.port) ||
            SocketAddr.new target.address target.port ∈ known then none
        else some (insert (SocketAddr.new target.address target.port) known)) start =
      some endpoints) :
    (targets.map (fun target => SocketAddr.new target.address target.port)).Nodup ∧
      (∀ target ∈ targets, supportedEndpoint (SocketAddr.new target.address target.port) = true ∧
        SocketAddr.new target.address target.port ∈ endpoints) ∧
      ∀ endpoint ∈ start, endpoint ∈ endpoints ∧
        endpoint ∉ targets.map (fun target => SocketAddr.new target.address target.port) := by
  induction targets generalizing start with
  | nil =>
    cases read
    simp
  | cons target targets ih =>
    rw [List.foldlM_cons, bind_eq_some] at read
    obtain ⟨next, stepped, rest⟩ := read
    simp only [Option.ite_none_left_eq_some, Option.some.injEq, Bool.or_eq_true,
      Bool.not_eq_true', Bool.not_eq_false, decide_eq_true_eq, not_or] at stepped
    obtain ⟨⟨supported, fresh⟩, rfl⟩ := stepped
    obtain ⟨distinct, held, kept⟩ := ih rest
    have first := kept _ (Finset.mem_insert_self _ start)
    refine ⟨List.nodup_cons.mpr ⟨first.2, distinct⟩, fun other member => ?_,
      fun endpoint known => ?_⟩
    · cases member with
      | head => exact ⟨supported, first.1⟩
      | tail _ later => exact held other later
    · obtain ⟨inside, absent⟩ := kept endpoint (Finset.mem_insert_of_mem known)
      have different : endpoint ≠ SocketAddr.new target.address target.port :=
        fun same => fresh (same ▸ known)
      exact ⟨inside, by simpa [different] using absent⟩

theorem grantsOf_keys {peers : Peers} {table : Grants} (read : grantsOf peers = some table)
    {peer : String} (known : peer ∈ peers) :
    ∃ endpoints, endpointsOf ((peers.lookup peer).getD []) = some endpoints := by
  obtain ⟨state, next, stepped⟩ := foldlM_step read (mem_ascending.mpr (Finmap.mem_keys.mpr known))
  obtain ⟨endpoints, found, _⟩ := Option.map_eq_some_iff.mp stepped
  exact ⟨endpoints, found⟩

theorem policyOf_accepted (read : policyOf file = some policy) (accepted : policy ≠ .invalid) :
    file.peers = none ∧ policy = .legacyAllow ∨
      ∃ entries peers table, file.peers = some entries ∧ visitMap entries = some peers ∧
        grantsOf peers = some table ∧ policy = .grants table := by
  unfold policyOf at read
  split at read
  · rename_i absent
    refine .inl ⟨absent, ?_⟩
    simp only [policyFromFile, and_true, Option.bind_none, ite_self, Option.some.injEq] at read
    split at read
    · exact read.symm
    · exact absurd read.symm accepted
  · rename_i entries listed
    obtain ⟨peers, visited, rfl⟩ := Option.map_eq_some_iff.mp read
    refine .inr ⟨entries, peers, ?_⟩
    unfold policyFromFile at accepted ⊢
    simp only [reduceCtorEq, and_false, if_false, Option.bind_some] at accepted ⊢
    split at accepted
    · rename_i guarded
      cases tabled : grantsOf peers with
      | none => simp [tabled] at accepted
      | some table => exact ⟨table, listed, visited, rfl, by simp [guarded]⟩
    · exact absurd rfl accepted

theorem accepted_entries (read : policyOf file = some policy) (accepted : policy ≠ .invalid)
    {entries : List (String × List TargetGrant)} (listed : file.peers = some entries) :
    (entries.map Prod.fst).Nodup ∧ ∀ entry ∈ entries,
      (entry.2.map (fun target => SocketAddr.new target.address target.port)).Nodup ∧
      ∀ target ∈ entry.2, supportedEndpoint (SocketAddr.new target.address target.port) = true := by
  rcases policyOf_accepted read accepted with ⟨absent, _⟩ | ⟨_, peers, table, same, visited, tabled, _⟩
  · rw [listed] at absent
    cases absent
  · cases listed.symm.trans same
    obtain ⟨distinct, found, _⟩ := visitMap_from visited
    refine ⟨distinct, fun entry member => ?_⟩
    have lookup := found entry member
    obtain ⟨endpoints, readTargets⟩ := grantsOf_keys tabled (Finmap.lookup_isSome.mp (by rw [lookup]; rfl))
    rw [lookup, Option.getD_some] at readTargets
    obtain ⟨apart, held, _⟩ := endpointsOf_from readTargets
    exact ⟨apart, fun target inside => (held target inside).1⟩

theorem policyOf_refuses (read : policyOf file = some policy)
    (malformed : file.RepeatsPeer ∨ file.RepeatsEndpoint ∨ file.NamesUnsupported) :
    policy = .invalid := by
  by_contra accepted
  rcases malformed with ⟨entries, listed, repeated⟩ | ⟨entries, listed, entry, member, repeated⟩ |
    ⟨entries, listed, entry, member, target, inside, unsupported⟩
  · exact repeated (accepted_entries read accepted listed).1
  · exact repeated ((accepted_entries read accepted listed).2 entry member).1
  · have supported := ((accepted_entries read accepted listed).2 entry member).2 target inside
    rw [unsupported] at supported
    cases supported

theorem nonempty_of_noIdlePeer {table : Grants} (read : policyOf file = some (.grants table)) (busy : file.NoIdlePeer)
    {peer : String} {endpoints : Finset SocketAddr} (found : table.lookup peer = some endpoints) :
    endpoints.Nonempty := by
  rcases policyOf_accepted read (by simp) with
    ⟨_, other⟩ | ⟨entries, peers, _, listed, visited, tabled, same⟩
  · cases other
  · cases same
    have readTargets := grantsOf_listed tabled peer endpoints found
    obtain ⟨targets, present⟩ := Option.isSome_iff_exists.mp
      (Finmap.lookup_isSome.mpr (grantsOf_grantable tabled peer endpoints found).1)
    rw [present, Option.getD_some] at readTargets
    have member := visitMap_listed visited peer targets present
    obtain ⟨target, inside⟩ := List.exists_mem_of_ne_nil targets (busy entries listed _ member)
    exact ⟨_, ((endpointsOf_from readTargets).2.1 target inside).2⟩

end Accepted

section Probe

variable {addressing : Addressing}

theorem authorize_probe (literals : addressing.parseSocketAddr "den:80" = none)
    (policy : TargetPolicy) (peer : String) (endpoint : SocketAddr) :
    authorize addressing (fun _ _ => some [endpoint]) policy peer "den:80" =
      decideEndpoints policy peer [endpoint] := by
  have named : targetEndpoints addressing (fun _ _ => some [endpoint]) "den:80" =
      .ok [endpoint] := by
    have split : rsplitOnce ':' "den:80".toList = some ("den".toList, "80".toList) := by
      decide +kernel
    have port : parseU16 "80".toList = some 80 := by decide +kernel
    have plain : ("den".toList.isEmpty || "den".toList.any (fun char => char ∈ [':', '[', ']']) ||
        "den".toList.any isWhitespace || (80 : Nat) = 0) = false := by decide +kernel
    simp only [targetEndpoints, literals, split, port, plain, Bool.false_eq_true, if_false]
  rw [authorize_eq, named]
  cases policy with
  | deny => simp [decideEndpoints]
  | legacyAllow => simp [Except.bind]
  | grants table => simp [Except.bind]
  | invalid => simp [decideEndpoints]

theorem decideEndpoints_singleton {policy : TargetPolicy} {peer : String} {endpoint : SocketAddr}
    (supported : supportedEndpoint endpoint = true) :
    decideEndpoints policy peer [endpoint] = .ok [endpoint] ↔
      policy = .legacyAllow ∨ policy.Permits peer endpoint := by
  have one : ascending ({endpoint} : Finset SocketAddr) = [endpoint] := by
    rw [ascending_eq_sort, Finset.sort_singleton]
  cases policy with
  | deny => simp [decideEndpoints, TargetPolicy.Permits]
  | legacyAllow => simp [decideEndpoints, supported, one]
  | invalid => simp [decideEndpoints, TargetPolicy.Permits]
  | grants table =>
    cases found : table.lookup peer with
    | none => simp [decideEndpoints, supported, found, TargetPolicy.Permits]
    | some allowed =>
      by_cases member : endpoint ∈ allowed <;>
        simp [decideEndpoints, supported, found, TargetPolicy.Permits, member, one]

theorem permits_iff_of_alike (literals : addressing.parseSocketAddr "den:80" = none)
    {left right : TargetPolicy} (alike : DecideAlike addressing left right) (peer : String)
    {endpoint : SocketAddr} (supported : supportedEndpoint endpoint = true) :
    (left = .legacyAllow ∨ left.Permits peer endpoint) ↔ (right = .legacyAllow ∨ right.Permits peer endpoint) := by
  rw [← decideEndpoints_singleton supported, ← decideEndpoints_singleton supported,
    ← authorize_probe literals, ← authorize_probe literals, alike]

private theorem alike_legacyAllow (hostName : addressing.parseSocketAddr "den:80" = none)
    {policy : TargetPolicy} (wellFormed : policy.WellFormed)
    (alike : DecideAlike addressing .legacyAllow policy) : policy = .legacyAllow := by
  -- No table has an entry for a text that is no fingerprint.
  have supported : supportedEndpoint Sample.endpoint = true := by decide +kernel
  have decided := (permits_iff_of_alike hostName alike "" supported).mp (.inl rfl)
  rcases decided with same | ⟨table, allowed, rfl, found, _⟩
  · exact same
  · have valid := (wellFormed "" allowed found).1
    have refused : validFingerprint "" = false := by decide +kernel
    rw [refused] at valid
    cases valid

private theorem table_eq {left right : Grants} (peer : String)
    (leftFull : ∀ endpoints, left.lookup peer = some endpoints → endpoints.Nonempty)
    (rightFull : ∀ endpoints, right.lookup peer = some endpoints → endpoints.Nonempty)
    (same : ∀ endpoint, (TargetPolicy.grants left).Permits peer endpoint ↔
      (TargetPolicy.grants right).Permits peer endpoint) :
    left.lookup peer = right.lookup peer := by
  simp only [permits_grants] at same
  cases leftFound : left.lookup peer with
  | none =>
    cases rightFound : right.lookup peer with
    | none => rfl
    | some allowed =>
      obtain ⟨endpoint, member⟩ := rightFull allowed rightFound
      obtain ⟨others, found, _⟩ := (same endpoint).mpr ⟨allowed, rightFound, member⟩
      rw [leftFound] at found
      cases found
  | some allowed =>
    cases rightFound : right.lookup peer with
    | none =>
      obtain ⟨endpoint, member⟩ := leftFull allowed leftFound
      obtain ⟨others, found, _⟩ := (same endpoint).mp ⟨allowed, leftFound, member⟩
      rw [rightFound] at found
      cases found
    | some others =>
      congr 1
      ext endpoint
      have agree := same endpoint
      simpa [leftFound, rightFound] using agree

end Probe

section Canonical

variable {addressing : Addressing} {fromSlice : List UInt8 → Option PolicyFile}
  {policy : TargetPolicy} {data : List UInt8}

structure Accepts (fromSlice : List UInt8 → Option PolicyFile) (data : List UInt8)
    (file : PolicyFile) (policy : TargetPolicy) : Prop where
  read : fromSlice data = some file
  parsed : policyOf file = some policy
  valid : policy ≠ .invalid

theorem canonicalFromRuntime_some (addressing : Addressing) (valid : policy ≠ .invalid) :
    ∃ data, canonicalFromRuntime addressing policy = some data := by
  cases policy with
  | deny => exact ⟨_, rfl⟩
  | legacyAllow => exact ⟨_, rfl⟩
  | grants table => exact ⟨_, rfl⟩
  | invalid => exact absurd rfl valid

theorem canonicalize_accepted {file : PolicyFile} (accepts : Accepts fromSlice data file policy) :
    canonicalize addressing fromSlice data = canonicalFromRuntime addressing policy := by
  simp [canonicalize, accepts.read, accepts.parsed]

theorem canonical_read (roundTrip : ∀ file, fromSlice (Json.toVec (policyFile addressing) file) = some file)
    (wellFormed : policy.WellFormed) (written : canonicalFromRuntime addressing policy = some data) :
    (fromSlice data).bind policyOf = some policy.normal := by
  obtain ⟨file, fileWritten, rfl⟩ := Option.map_eq_some_iff.mp written
  simp [roundTrip, policyOf_runtimeFile wellFormed fileWritten]

theorem canonicalize_idempotent (roundTrip : ∀ file, fromSlice (Json.toVec (policyFile addressing) file) = some file)
    {canonical : List UInt8} (written : canonicalize addressing fromSlice data = some canonical) :
    canonicalize addressing fromSlice canonical = some canonical := by
  obtain ⟨policy, parsed, ofPolicy⟩ := Option.bind_eq_some_iff.mp written
  obtain ⟨file, _, read⟩ := Option.bind_eq_some_iff.mp parsed
  rw [canonicalize, canonical_read roundTrip (policyOf_wellFormed read) ofPolicy,
    Option.bind_some, canonicalFromRuntime, runtimeFile_normal]
  exact ofPolicy

theorem alike_of_canonical_eq (roundTrip : ∀ file, fromSlice (Json.toVec (policyFile addressing) file) = some file)
    {left right : TargetPolicy} (leftFormed : left.WellFormed) (rightFormed : right.WellFormed)
    (valid : left ≠ .invalid) (same : canonicalFromRuntime addressing left = canonicalFromRuntime addressing right) :
    DecideAlike addressing left right := by
  obtain ⟨data, written⟩ := canonicalFromRuntime_some addressing valid
  have normals := (canonical_read roundTrip leftFormed written).symm.trans
    (canonical_read roundTrip rightFormed (same.symm.trans written))
  intro resolver peer target
  rw [← authorize_normal addressing resolver left, ← authorize_normal addressing resolver right,
    Option.some.inj normals]

theorem policy_eq_of_alike (hostName : addressing.parseSocketAddr "den:80" = none)
    {leftFile rightFile : PolicyFile} {left right : TargetPolicy}
    (leftRead : policyOf leftFile = some left) (leftValid : left ≠ .invalid)
    (leftBusy : leftFile.NoIdlePeer) (rightRead : policyOf rightFile = some right)
    (rightValid : right ≠ .invalid) (rightBusy : rightFile.NoIdlePeer)
    (alike : DecideAlike addressing left right) : left = right := by
  have leftFormed := policyOf_wellFormed leftRead
  have rightFormed := policyOf_wellFormed rightRead
  rcases policyOf_accepted leftRead leftValid with ⟨_, rfl⟩ | ⟨_, _, leftTable, _, _, _, rfl⟩
  · exact (alike_legacyAllow hostName rightFormed alike).symm
  · rcases policyOf_accepted rightRead rightValid with ⟨_, rfl⟩ | ⟨_, _, rightTable, _, _, _, rfl⟩
    · exact alike_legacyAllow hostName leftFormed (fun resolver peer target => (alike resolver peer target).symm)
    · congr 1
      refine Finmap.ext_lookup fun peer => table_eq peer
        (fun _ found => nonempty_of_noIdlePeer leftRead leftBusy found)
        (fun _ found => nonempty_of_noIdlePeer rightRead rightBusy found) (fun endpoint => ?_)
      by_cases supported : supportedEndpoint endpoint = true
      · simpa using permits_iff_of_alike hostName alike peer supported
      · -- Neither table holds what is not supported.
        have never {table : Grants} (formed : (TargetPolicy.grants table).WellFormed) :
            ¬(TargetPolicy.grants table).Permits peer endpoint := by
          intro permitted
          obtain ⟨allowed, found, member⟩ := permits_grants.mp permitted
          exact supported ((formed peer allowed found).2 endpoint member).1
        exact iff_of_false (never leftFormed) (never rightFormed)

/-- The canonical document stands for the decisions. `hostName` says that the
parser of addresses takes no host name for one. -/
theorem canonical_documents_stand_for_decisions (addressing : Addressing) (fromSlice : List UInt8 → Option PolicyFile)
    (roundTrip : ∀ file, fromSlice (Json.toVec (policyFile addressing) file) = some file)
    (hostName : addressing.parseSocketAddr "den:80" = none) :
    (∀ policy : TargetPolicy, policy ≠ .invalid → policy.WellFormed →
      ∃ data parsed, canonicalFromRuntime addressing policy = some data ∧
        (fromSlice data).bind policyOf = some parsed ∧ parsed ≠ .invalid ∧
        DecideAlike addressing parsed policy) ∧
    (∀ data canonical, canonicalize addressing fromSlice data = some canonical →
      canonicalize addressing fromSlice canonical = some canonical) ∧
    (∀ left leftFile leftPolicy right rightFile rightPolicy,
      Accepts fromSlice left leftFile leftPolicy → leftFile.NoIdlePeer →
      Accepts fromSlice right rightFile rightPolicy → rightFile.NoIdlePeer →
      (canonicalize addressing fromSlice left = canonicalize addressing fromSlice right ↔
        DecideAlike addressing leftPolicy rightPolicy)) ∧
    (∀ data file, fromSlice data = some file → file.RepeatsPeer ∨ file.RepeatsEndpoint ∨ file.NamesUnsupported →
      (∀ policy, ¬Accepts fromSlice data file policy) ∧ canonicalize addressing fromSlice data = none) := by
  refine ⟨fun policy valid wellFormed => ?_,
    fun data canonical written => canonicalize_idempotent roundTrip written,
    fun left leftFile leftPolicy right rightFile rightPolicy leftAccepts leftBusy rightAccepts rightBusy => ?_,
    fun data file read malformed => ⟨fun policy accepts =>
      accepts.valid (policyOf_refuses accepts.parsed malformed), ?_⟩⟩
  · obtain ⟨data, written⟩ := canonicalFromRuntime_some addressing valid
    refine ⟨data, policy.normal, written, canonical_read roundTrip wellFormed written, ?_,
      fun resolver peer target => authorize_normal addressing resolver policy peer target⟩
    cases policy with
    | deny => simp [TargetPolicy.normal]
    | legacyAllow => simp [TargetPolicy.normal]
    | grants table => simp [TargetPolicy.normal]
    | invalid => exact absurd rfl valid
  · rw [canonicalize_accepted leftAccepts, canonicalize_accepted rightAccepts]
    constructor
    · exact alike_of_canonical_eq roundTrip (policyOf_wellFormed leftAccepts.parsed)
        (policyOf_wellFormed rightAccepts.parsed) leftAccepts.valid
    · intro alike
      rw [policy_eq_of_alike hostName leftAccepts.parsed leftAccepts.valid leftBusy
        rightAccepts.parsed rightAccepts.valid rightBusy alike]
  · cases parsed : policyOf file with
    | none => simp [canonicalize, read, parsed]
    | some policy =>
        rw [policyOf_refuses parsed malformed] at parsed
        simp [canonicalize, read, parsed, canonicalFromRuntime, runtimeFile]

end Canonical

namespace Sample

def document (entries : Option (List (String × List TargetGrant))) (mode : String) : List UInt8 :=
  Json.toVec (policyFile Storage.Sample.addressing) ⟨mode, entries⟩

def entries : List (String × List TargetGrant) := [(fingerprint, [⟨endpoint.ip, endpoint.port⟩])]

private theorem document_accepts {mode : String} {entries : Option (List (String × List TargetGrant))}
    {policy : TargetPolicy} (parsed : policyOf ⟨mode, entries⟩ = some policy) (valid : policy ≠ .invalid) :
    Accepts Storage.Sample.platform.readPolicy (document entries mode) ⟨mode, entries⟩ policy :=
  ⟨Storage.Sample.roundTrip.policy _, parsed, valid⟩

end Sample

open Sample

/-- One grant, beside the legacy mode and a document that repeats its peer. -/
theorem granting_document_stands :
    (∃ data parsed, canonicalFromRuntime Storage.Sample.addressing Sample.granting = some data ∧
      (Storage.Sample.platform.readPolicy data).bind policyOf = some parsed ∧ parsed ≠ .invalid ∧
      DecideAlike Storage.Sample.addressing parsed Sample.granting) ∧
    (canonicalize Storage.Sample.addressing Storage.Sample.platform.readPolicy
        (Sample.document (some entries) "deny-by-default") =
      canonicalize Storage.Sample.addressing Storage.Sample.platform.readPolicy
        (Sample.document none "legacy-allow") ↔
      DecideAlike Storage.Sample.addressing Sample.granting .legacyAllow) ∧
    canonicalize Storage.Sample.addressing Storage.Sample.platform.readPolicy
      (Sample.document (some (entries ++ entries)) "deny-by-default") = none := by
  obtain ⟨reads, _, shares, refuses⟩ := canonical_documents_stand_for_decisions
    Storage.Sample.addressing Storage.Sample.platform.readPolicy Storage.Sample.roundTrip.policy rfl
  have granting : policyOf ⟨"deny-by-default", some entries⟩ = some Sample.granting := by
    decide +kernel
  have legacy : policyOf ⟨"legacy-allow", none⟩ = some .legacyAllow := by decide +kernel
  have valid : Sample.granting ≠ .invalid := by simp [Sample.granting]
  refine ⟨reads Sample.granting valid (policyOf_wellFormed granting), ?_, ?_⟩
  · refine shares _ _ _ _ _ _ (document_accepts granting valid) ?_ (document_accepts legacy (by simp)) ?_
    · rintro _ ⟨⟩ entry member
      cases List.mem_singleton.mp member
      simp
    · rintro _ ⟨⟩
  · refine (refuses _ _ (Storage.Sample.roundTrip.policy _) (.inl ⟨_, rfl, ?_⟩)).2
    decide +kernel

end Werewolf.Policy
